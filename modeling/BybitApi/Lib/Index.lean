import BybitApi.Lib.Text

/-!
# Texts by index

The searches and pieces of a `std::string`, which go by index; `npos` is `none`. Each has a lemma for a
text that was put together from known parts. And `std::stoll`, which throws where `strtol` does not.
-/

namespace BybitApi.Lib

section Pieces

variable {α : Type}

/-- `s.substr(pos, count)`, for a `pos` that is not behind the end. -/
def substr (s : List α) (pos : ℕ) (count : Option ℕ) : List α :=
  match count with
  | none => s.drop pos
  | some count => (s.drop pos).take count

/-- The end of a text, stepped back over the elements of a kind. -/
def stepBack (p : α → Bool) (s : List α) : ℕ → ℕ
  | 0 => 0
  | stop + 1 => if s[stop]?.any p then stepBack p s stop else stop + 1

variable {s rest : List α} {c : α} {p : α → Bool}

theorem substr_length (a s : List α) : substr (a ++ s) a.length none = s := by
  rw [substr, List.drop_left]

theorem substr_length_length (a b rest : List α) : substr (a ++ (b ++ rest)) a.length (some b.length) = b := by
  rw [substr, List.drop_left, List.take_left]

/-- It steps over what is there behind the last element of another kind. -/
theorem stepBack_append (h : ∀ x ∈ rest, p x) (hs : ∀ x, s.getLast? = some x → ¬ p x) :
    stepBack p (s ++ rest) (s ++ rest).length = s.length := by
  have hfar : ∀ k ≤ rest.length, stepBack p (s ++ rest) (s.length + k) = stepBack p (s ++ rest) s.length := by
    intro k hk
    induction k with
    | zero => rfl
    | succ k ih =>
      obtain ⟨x, hx⟩ : ∃ x, rest[k]? = some x := ⟨_, List.getElem?_eq_getElem hk⟩
      have hat : (s ++ rest)[s.length + k]? = some x := by
        rw [List.getElem?_append_right (Nat.le_add_right _ _), Nat.add_sub_cancel_left, hx]
      rw [← Nat.add_assoc, stepBack, hat, Option.any_some, if_pos (h x (List.mem_of_getElem? hx))]
      exact ih (by omega)
  rw [List.length_append, hfar _ le_rfl]
  rcases List.eq_nil_or_concat s with rfl | ⟨before, last, rfl⟩
  · rfl
  · rw [List.concat_eq_append] at hs ⊢
    have hlast := hs last List.getLast?_concat
    have hat : (before ++ [last] ++ rest)[before.length]? = some last := by simp
    rw [List.length_append, List.length_singleton, stepBack, hat, Option.any_some, if_neg hlast]

/-- A text cut at the last occurrence of an element. -/
theorem exists_last_of_mem (h : c ∈ s) : ∃ a b, s = a ++ c :: b ∧ c ∉ b := by
  obtain ⟨b, a, hrev, hb⟩ := List.eq_append_cons_of_mem (List.mem_reverse.2 h)
  refine ⟨a.reverse, b.reverse, ?_, fun hmem => hb (List.mem_reverse.1 hmem)⟩
  rw [← List.reverse_reverse s, hrev]
  simp

end Pieces

section Search

variable {α : Type} [DecidableEq α]

/-- `s.find(c, pos)`. -/
def find (s : List α) (c : α) (pos : ℕ) : Option ℕ := ((s.drop pos).findIdx? (· = c)).map (pos + ·)

/-- `s.rfind(c, pos)`, from `pos` back to the start. -/
def rfind (s : List α) (c : α) : ℕ → Option ℕ
  | 0 => if s[0]? = some c then some 0 else none
  | pos + 1 => if s[pos + 1]? = some c then some (pos + 1) else rfind s c pos

variable {s a b rest : List α} {c : α} {i n pos : ℕ}

/-! ## Forwards -/

theorem find_of_not_mem (h : c ∉ s) : find s c 0 = none := by
  rw [find, List.drop_zero, Option.map_eq_none_iff, List.findIdx?_eq_none_iff]
  intro x hx
  simp only [decide_eq_false_iff_not]
  rintro rfl
  exact h hx

theorem find_append (h : c ∉ a) : find (a ++ c :: b) c 0 = some a.length := by
  have hnone := find_of_not_mem h
  rw [find, List.drop_zero, Option.map_eq_none_iff] at hnone
  rw [find, List.drop_zero, List.findIdx?_append, hnone, List.findIdx?_cons]
  simp

/-- Behind a known part. -/
theorem find_length (a s : List α) (c : α) : find (a ++ s) c a.length = (find s c 0).map (a.length + ·) := by
  simp [find]

/-! ## Backwards -/

theorem rfind_eq_none (h : ∀ j ≤ pos, s[j]? ≠ some c) : rfind s c pos = none := by
  induction pos with
  | zero => exact if_neg (h 0 le_rfl)
  | succ pos ih =>
    rw [rfind, if_neg (h _ le_rfl)]
    exact ih fun j hj => h j (hj.trans (Nat.le_succ pos))

theorem rfind_eq_some (hi : s[i]? = some c) (h : ∀ j, i < j → j ≤ i + n → s[j]? ≠ some c) :
    rfind s c (i + n) = some i := by
  induction n with
  | zero =>
    cases i with
    | zero => exact if_pos hi
    | succ i => exact if_pos hi
  | succ n ih =>
    rw [← Nat.add_assoc, rfind, if_neg (h _ (by omega) (by omega))]
    exact ih fun j hlt hle => h j hlt (by omega)

/-- No occurrence within a part. -/
theorem rfind_of_not_mem (h : c ∉ b) (hpos : pos < b.length) : rfind (b ++ rest) c pos = none := by
  refine rfind_eq_none fun j hj hc => ?_
  rw [List.getElem?_append_left (hj.trans_lt hpos)] at hc
  exact h (List.mem_of_getElem? hc)

/-- The last occurrence within a part. -/
theorem rfind_append (h : c ∉ b) : rfind (a ++ c :: (b ++ rest)) c (a.length + b.length) = some a.length := by
  refine rfind_eq_some (by simp) fun j hlt hle hc => h ?_
  obtain ⟨k, rfl⟩ := Nat.exists_eq_add_of_lt hlt
  rw [Nat.add_assoc, List.getElem?_append_right (Nat.le_add_right _ _), Nat.add_sub_cancel_left,
    List.getElem?_cons_succ, List.getElem?_append_left (by omega)] at hc
  exact List.mem_of_getElem? hc

end Search

/-! ## `std::stoll` -/

/-- `std::invalid_argument` and `std::out_of_range`. -/
inductive StollError where
  | invalidArgument | outOfRange
  deriving DecidableEq

/-- The sign of a number, and what follows it. -/
def signed : List Char → Bool × List Char
  | '-' :: digits => (true, digits)
  | '+' :: digits => (false, digits)
  | digits => (false, digits)

/-- `std::stoll(s)` in base 10, for a `long long` of 64 bits. What follows the digits is not looked at. -/
def stoll (s : List Char) : Except StollError ℤ :=
  let (negative, digits) := signed (s.dropWhile isSpace)
  if digits.takeWhile Char.isDigit = [] then .error .invalidArgument
  else
    let value : ℤ := if negative then -leadingNat digits else leadingNat digits
    if -2 ^ 63 ≤ value ∧ value < 2 ^ 63 then .ok value else .error .outOfRange

theorem stoll_of_signed {s digits : List Char} {negative : Bool} {n : ℤ} (h : -2 ^ 63 ≤ n) (h' : n < 2 ^ 63)
    (hs : signed (s.dropWhile isSpace) = (negative, digits)) (hdigits : digits.takeWhile Char.isDigit ≠ [])
    (hvalue : (if negative then -leadingNat digits else leadingNat digits : ℤ) = n) : stoll s = .ok n := by
  simp only [stoll, hs, if_neg hdigits, hvalue, if_pos (And.intro h h')]

theorem takeWhile_toDigits (m : ℕ) : (Nat.toDigits 10 m).takeWhile Char.isDigit = Nat.toDigits 10 m := by
  have hdigit : ∀ d ∈ Nat.toDigits 10 m, d.isDigit = true := by
    intro d hd
    exact Nat.isDigit_of_mem_toDigits (by decide) (by decide) hd
  have htake : (Nat.toDigits 10 m ++ []).takeWhile Char.isDigit = Nat.toDigits 10 m ++ [].takeWhile Char.isDigit :=
    List.takeWhile_append_of_pos hdigit
  simpa using htake

theorem leadingNat_toDigits (m : ℕ) : leadingNat (Nat.toDigits 10 m) = m := by
  rw [leadingNat, takeWhile_toDigits, Nat.ofDigitChars_ten_toDigits]

theorem mem_toString {n : ℤ} {c : Char} (hc : c ∈ (toString n).toList) : c = '-' ∨ c.isDigit = true := by
  have hdigit : ∀ {m : ℕ}, c ∈ Nat.toDigits 10 m → c.isDigit = true :=
    fun hd => Nat.isDigit_of_mem_toDigits (by decide) (by decide) hd
  rw [Int.toString_eq_repr, Int.repr_eq_if] at hc
  split at hc
  · rw [Nat.repr_eq_ofList_toDigits, String.toList_ofList] at hc
    exact Or.inr (hdigit hc)
  · rw [String.toList_append, Nat.repr_eq_ofList_toDigits, String.toList_ofList (l := Nat.toDigits _ _)] at hc
    rcases List.mem_append.1 hc with hc | hc
    · exact Or.inl (List.mem_singleton.1 hc)
    · exact Or.inr (hdigit hc)

theorem toList_toString (n : ℤ) :
    (toString n).toList = if 0 ≤ n then Nat.toDigits 10 n.toNat else '-' :: Nat.toDigits 10 (-n).toNat := by
  rw [Int.toString_eq_repr, Int.repr_eq_if]
  split
  · rw [Nat.repr_eq_ofList_toDigits, String.toList_ofList]
  · rw [String.toList_append, Nat.repr_eq_ofList_toDigits, String.toList_ofList (l := Nat.toDigits _ _)]
    rfl

/-- The digits of one number do not begin with the sign of another. -/
theorem toDigits_ne_minus (m : ℕ) (s : List Char) : Nat.toDigits 10 m ≠ '-' :: s := by
  intro heq
  have hd : '-'.isDigit = true :=
    Nat.isDigit_of_mem_toDigits (n := m) (b := 10) (by decide) (by decide) (by simp [heq])
  cases hd

theorem toString_injective {m n : ℤ} (h : (toString m).toList = (toString n).toList) : m = n := by
  have hdigits : ∀ {a b : ℕ}, Nat.toDigits 10 a = Nat.toDigits 10 b → a = b := fun {a b} heq => by
    rw [← leadingNat_toDigits a, heq, leadingNat_toDigits]
  rw [toList_toString, toList_toString] at h
  split at h <;> split at h
  · have := hdigits h
    omega
  · exact absurd h (toDigits_ne_minus _ _)
  · exact absurd h.symm (toDigits_ne_minus _ _)
  · have := hdigits (List.cons.inj h).2
    omega

theorem signed_of_isDigit {d : Char} {s : List Char} (hd : d.isDigit = true) : signed (d :: s) = (false, d :: s) := by
  unfold signed
  split
  · next heq =>
    cases heq
    cases hd
  · next heq =>
    cases heq
    cases hd
  · rfl

/-- It reads back what `fmt` prints. -/
theorem stoll_toString {n : ℤ} (h : -2 ^ 63 ≤ n) (h' : n < 2 ^ 63) : stoll (toString n).toList = .ok n := by
  rw [Int.toString_eq_repr, Int.repr_eq_if]
  split
  · rw [Nat.repr_eq_ofList_toDigits, String.toList_ofList]
    have hsigned : signed ((Nat.toDigits 10 n.toNat).dropWhile isSpace) = (false, Nat.toDigits 10 n.toNat) := by
      obtain ⟨d, ds, hds⟩ := List.exists_cons_of_ne_nil (Nat.toDigits_ne_nil (n := n.toNat) (b := 10))
      have hd : d.isDigit = true :=
        Nat.isDigit_of_mem_toDigits (n := n.toNat) (b := 10) (by decide) (by decide) (by simp [hds])
      rw [hds, List.dropWhile_cons_of_neg (by simp [isSpace_of_isDigit hd]), signed_of_isDigit hd]
    refine stoll_of_signed h h' hsigned ?_ ?_
    · rw [takeWhile_toDigits]
      exact Nat.toDigits_ne_nil
    · rw [leadingNat_toDigits, if_neg Bool.false_ne_true]
      omega
  · have htext : ("-" ++ (-n).toNat.repr).toList = '-' :: Nat.toDigits 10 (-n).toNat := by
      rw [String.toList_append, Nat.repr_eq_ofList_toDigits, String.toList_ofList (l := Nat.toDigits _ _)]
      rfl
    have hsigned : signed (('-' :: Nat.toDigits 10 (-n).toNat).dropWhile isSpace) =
        (true, Nat.toDigits 10 (-n).toNat) := by
      rw [List.dropWhile_cons_of_neg (by decide)]
      rfl
    rw [htext]
    refine stoll_of_signed h h' hsigned ?_ ?_
    · rw [takeWhile_toDigits]
      exact Nat.toDigits_ne_nil
    · rw [leadingNat_toDigits, if_pos rfl]
      omega

end BybitApi.Lib
