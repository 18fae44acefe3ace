import Mathlib.Algebra.Order.Ring.Int
import Mathlib.Data.List.Infix

/-!
# Texts

Search of a pattern in a text that was put together from known and unknown parts, and the C
functions that read a text: what a `char *` shows of it, lower case, `strtol`.
-/

namespace BybitApi.Lib

section Search

variable {α : Type} {p a b : List α}

/-- The text behind the first occurrence of `p`. -/
def behind [BEq α] (p s : List α) : Option (List α) := (s.dropInfix? p).map Prod.snd

section Behind

variable [BEq α]

private theorem snd_dropInfix_go (s acc acc' : List α) :
    (List.dropInfix?.go p s acc).map Prod.snd = (List.dropInfix?.go p s acc').map Prod.snd := by
  induction s generalizing acc acc' with
  | nil => unfold List.dropInfix?.go; split <;> rfl
  | cons x s ih =>
    unfold List.dropInfix?.go
    split
    · exact ih _ _
    · rfl

variable [LawfulBEq α]

theorem behind_cons {x : α} {s : List α} (h : ¬ p <+: x :: s) : behind p (x :: s) = behind p s := by
  have hnone : (x :: s).dropPrefix? p = none := by
    by_contra hsome
    obtain ⟨t, ht⟩ := Option.ne_none_iff_exists'.1 hsome
    obtain ⟨p', heq, hp⟩ := List.dropPrefix?_eq_some_iff.1 ht
    exact h ⟨t, by rw [heq, eq_of_beq hp]⟩
  simp only [behind, List.dropInfix?, List.dropInfix?.go, hnone]
  exact snd_dropInfix_go _ _ _

theorem behind_self_append (s : List α) : behind p (p ++ s) = some s := by
  have hfirst : (p ++ s).dropInfix? p = some ([], s) :=
    List.dropInfix?_eq_some_iff.2 ⟨⟨p, by simp, by simp⟩, fun _ _ _ _ _ => Nat.zero_le _⟩
  rw [behind, hfirst]; rfl

end Behind

/-- No occurrence of `p` begins within `a`, whatever follows `a`. -/
def Misses (p a : List α) : Prop := ∀ t ∈ a.tails, t ≠ [] → ¬ t <+: p ∧ ¬ p <+: t

instance [DecidableEq α] : Decidable (Misses p a) := by unfold Misses; infer_instance

namespace Misses

theorem tail {x : α} (h : Misses p (x :: a)) : Misses p a := fun t ht =>
  h t (by simp only [List.tails_cons, List.mem_cons]; exact Or.inr ht)

theorem not_prefix_append {x : α} (h : Misses p (x :: a)) : ¬ p <+: x :: (a ++ b) := fun hp => by
  have hx := h (x :: a) (by simp) (List.cons_ne_nil _ _)
  rcases List.prefix_or_prefix_of_prefix hp (List.prefix_append (x :: a) b) with hpa | hap
  · exact hx.2 hpa
  · exact hx.1 hap

/-- So a search of `p` may skip `a`. -/
theorem infix_append_iff (h : Misses p a) : p <:+: a ++ b ↔ p <:+: b := by
  induction a with
  | nil => simp
  | cons x a ih =>
    rw [List.cons_append, List.infix_cons_iff, ih h.tail]
    exact or_iff_right h.not_prefix_append

/-- A mark that `p` does not have ends a stretch too short for `p`. -/
theorem of_mark {x : α} (hx : x ∉ p) (hlen : a.length < p.length) : Misses p (a ++ [x]) := by
  intro t ht hne
  rw [List.mem_tails] at ht
  obtain ⟨t', rfl⟩ : ∃ t', t = t' ++ [x] := by
    obtain ⟨u, hu⟩ := ht
    obtain ⟨t', y, rfl⟩ := List.eq_nil_or_concat t |>.resolve_left hne
    rw [List.concat_eq_append, ← List.append_assoc] at hu
    exact ⟨t', by rw [List.concat_eq_append, (List.append_inj' hu rfl).2]⟩
  refine ⟨fun hp => hx (hp.subset (by simp)), fun hp => ?_⟩
  have hlt := ht.length_le
  rcases List.prefix_concat_iff.1 hp with heq | hp
  · exact hx (by rw [heq]; simp)
  · have := hp.length_le
    simp only [List.length_append, List.length_singleton] at hlt
    omega

theorem behind_append [BEq α] [LawfulBEq α] (h : Misses p a) : behind p (a ++ b) = behind p b := by
  induction a with
  | nil => rfl
  | cons x a ih =>
    rw [List.cons_append, behind_cons h.not_prefix_append, ih h.tail]

end Misses

end Search

/-! ## The C library -/

/-- The `std::string` made from a `const char *`. -/
def cString (s : List Char) : List Char := s.takeWhile fun c => c != Char.ofNat 0

/-- What a function shows that is given the `c_str()` of a text. -/
def shown (s : String) : String := String.ofList (cString s.toList)

/-- `std::tolower` of each byte, in the C locale. -/
def toLower (s : List Char) : List Char := s.map Char.toLower

/-- `std::isspace` in the C locale. -/
def isSpace (c : Char) : Bool := c.toNat = 32 || (9 ≤ c.toNat && c.toNat ≤ 13)

/-- The value of the decimal digits that begin the text. -/
def leadingNat (s : List Char) : Nat := Nat.ofDigitChars 10 (s.takeWhile Char.isDigit) 0

/-- `std::strtol` in base 10 for a `long` of 64 bits: the nearest value when the number is out of
range. -/
def strtol (s : List Char) : Int :=
  match s.dropWhile isSpace with
  | '-' :: digits => max (-2 ^ 63) (-(leadingNat digits : Int))
  | '+' :: digits => min (2 ^ 63 - 1) (leadingNat digits : Int)
  | digits => min (2 ^ 63 - 1) (leadingNat digits : Int)

theorem isSpace_of_isDigit {d : Char} (hd : d.isDigit = true) : isSpace d = false := by
  simp only [Char.isDigit, Bool.and_eq_true, decide_eq_true_eq, ge_iff_le, UInt32.le_iff_toNat_le] at hd
  have h0 : '0'.val.toNat = 48 := rfl
  have h9 : '9'.val.toNat = 57 := rfl
  have hnat : d.toNat = d.val.toNat := rfl
  simp only [isSpace, Bool.or_eq_false_iff, Bool.and_eq_false_iff, decide_eq_false_iff_not]
  omega

theorem strtol_of_isDigit {d : Char} {s : List Char} (hd : d.isDigit = true) :
    strtol (d :: s) = min (2 ^ 63 - 1) (leadingNat (d :: s) : Int) := by
  rw [strtol, List.dropWhile_cons_of_neg (by simp [isSpace_of_isDigit hd])]
  split
  · next heq => cases heq; cases hd
  · next heq => cases heq; cases hd
  · rfl

theorem strtol_minus (s : List Char) : strtol ('-' :: s) = max (-2 ^ 63) (-(leadingNat s : Int)) := rfl

/-- It reads back what `fmt` prints. -/
theorem strtol_toString {n : Int} (h : -2 ^ 63 ≤ n) (h' : n < 2 ^ 63) {c : Char} (hc : c.isDigit = false)
    (rest : List Char) : strtol ((toString n).toList ++ c :: rest) = n := by
  have hread : ∀ m : Nat, leadingNat (Nat.toDigits 10 m ++ c :: rest) = m := fun m => by
    rw [leadingNat, List.takeWhile_append_of_pos fun d hd => Nat.isDigit_of_mem_toDigits (by decide) (by decide) hd,
      List.takeWhile_cons_of_neg (by simp [hc]), List.append_nil, Nat.ofDigitChars_ten_toDigits]
  rw [Int.toString_eq_repr, Int.repr_eq_if]
  split
  · obtain ⟨d, ds, hds⟩ := List.exists_cons_of_ne_nil (Nat.toDigits_ne_nil (n := n.toNat) (b := 10))
    have hd : d.isDigit = true :=
      Nat.isDigit_of_mem_toDigits (n := n.toNat) (b := 10) (by decide) (by decide) (by simp [hds])
    have hval := hread n.toNat
    rw [Nat.repr_eq_ofList_toDigits, String.toList_ofList]
    rw [hds, List.cons_append] at hval ⊢
    rw [strtol_of_isDigit hd, hval]
    omega
  · have hval := hread (-n).toNat
    have htext : ("-" ++ (-n).toNat.repr).toList ++ c :: rest =
        '-' :: (Nat.toDigits 10 (-n).toNat ++ c :: rest) := by
      rw [String.toList_append, Nat.repr_eq_ofList_toDigits, String.toList_ofList (l := Nat.toDigits _ _)]; rfl
    rw [htext, strtol_minus, hval]
    omega

theorem cString_append {a b : List Char} (h : Char.ofNat 0 ∉ a) : cString (a ++ b) = a ++ cString b :=
  List.takeWhile_append_of_pos fun c hc => by
    simp only [bne_iff_ne, ne_eq]
    rintro rfl
    exact h hc

theorem shown_append {a b : String} (h : Char.ofNat 0 ∉ a.toList) : shown (a ++ b) = a ++ shown b := by
  simp [shown, cString_append h, String.ofList_append]

@[simp] theorem toLower_append (a b : List Char) : toLower (a ++ b) = toLower a ++ toLower b :=
  List.map_append

@[simp] theorem length_toLower (a : List Char) : (toLower a).length = a.length := List.length_map _

end BybitApi.Lib
