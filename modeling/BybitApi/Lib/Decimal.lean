import Mathlib.Algebra.Order.Round
import Mathlib.Data.List.MinMax
import Mathlib.Data.List.TakeWhile
import Mathlib.Data.Rat.Floor
import Mathlib.Tactic.FieldSimp
import Mathlib.Tactic.Linarith
import Mathlib.Tactic.Positivity
import Mathlib.Tactic.Ring

/-!
# Decimals

How many decimals a rational number needs, fixed-point texts and the numbers they stand for, and
`std::llround`.

* `Fixed.read_text` : a text reads as its number;
* `eq_of_perm_of_rank` : numbers cut to decimals of their own are not what others were before.
-/

namespace BybitApi.Lib

/-- So many decimals suffice for `x`. -/
def HasDecimals (x : ℚ) (p : ℕ) : Prop := ∃ z : ℤ, x * 10 ^ p = z

/-- A fixed-point text: a sign and digits, the last `decimals` of them behind the point. -/
structure Fixed where
  negative : Bool
  units : ℕ
  decimals : ℕ
  deriving DecidableEq

namespace Fixed

def value (t : Fixed) : ℚ := (if t.negative then -(t.units : ℚ) else t.units) / 10 ^ t.decimals

def text (t : Fixed) : String :=
  let digits := (toString t.units).toList.leftpad (t.decimals + 1) '0'
  let point := digits.length - t.decimals
  String.ofList ((if t.negative then ['-'] else []) ++ digits.take point ++
    if t.decimals = 0 then [] else '.' :: digits.drop point)

example : text ⟨false, 25, 6⟩ = "0.000025" ∧ text ⟨true, 1234, 2⟩ = "-12.34" ∧ text ⟨false, 7, 0⟩ = "7" := by
  decide +kernel

theorem hasDecimals (t : Fixed) : HasDecimals t.value t.decimals := by
  refine ⟨if t.negative then -t.units else t.units, ?_⟩
  rw [value, div_mul_cancel₀ _ (by positivity)]
  split <;> simp

/-! ### Reading a text -/

/-- All digits, over a power of ten for those behind the point. -/
def unsigned (s : List Char) : ℚ :=
  (Nat.ofDigitChars 10 (s.filter (· ≠ '.')) 0 : ℚ) / 10 ^ (s.dropWhile (· ≠ '.')).tail.length

/-- The number that a fixed-point text stands for. -/
def read (s : String) : ℚ :=
  if s.toList.head? = some '-' then -unsigned s.toList.tail else unsigned s.toList

section Read

variable {digits : List Char} {decimals : ℕ}

/-- The digits of a text, with its point. -/
def pointed (digits : List Char) (decimals : ℕ) : List Char :=
  digits.take (digits.length - decimals) ++
    if decimals = 0 then [] else '.' :: digits.drop (digits.length - decimals)

theorem filter_pointed (h : '.' ∉ digits) : (pointed digits decimals).filter (· ≠ '.') = digits := by
  have hkeep : ∀ {l : List Char}, l ⊆ digits → l.filter (· ≠ '.') = l := fun hl =>
    List.filter_eq_self.2 fun c hc => decide_eq_true fun heq => h (heq ▸ hl hc)
  unfold pointed
  rw [List.filter_append, hkeep (List.take_subset _ _)]
  split
  next hzero => simp [hzero]
  next => rw [List.filter_cons_of_neg (by simp), hkeep (List.drop_subset _ _), List.take_append_drop]

theorem behind_pointed (h : '.' ∉ digits) (hlen : decimals ≤ digits.length) :
    ((pointed digits decimals).dropWhile (· ≠ '.')).tail.length = decimals := by
  have hskip : (digits.take (digits.length - decimals)).dropWhile (· ≠ '.') = [] :=
    List.dropWhile_eq_nil_iff.2 fun c hc => decide_eq_true fun heq => h (heq ▸ List.take_subset _ _ hc)
  unfold pointed
  rw [List.dropWhile_append, hskip, List.isEmpty_nil, if_pos rfl]
  split
  next hzero => simp [hzero]
  next =>
    rw [List.dropWhile_cons_of_neg (by simp), List.tail_cons, List.length_drop]
    omega

theorem head_pointed (h : '-' ∉ digits) (hlen : decimals < digits.length) :
    (pointed digits decimals).head? ≠ some '-' := by
  obtain ⟨first, rest, hdigits⟩ := List.exists_cons_of_ne_nil (l := digits) (by rintro rfl; cases hlen)
  obtain ⟨n, hn⟩ : ∃ n, digits.length - decimals = n + 1 := ⟨digits.length - decimals - 1, by omega⟩
  rw [pointed, hn, hdigits, List.take_succ_cons, List.cons_append, List.head?_cons]
  rintro ⟨⟩
  exact h (hdigits ▸ List.mem_cons_self)

end Read

/-- **A text reads as its number.** -/
theorem read_text (t : Fixed) : read t.text = t.value := by
  obtain ⟨digits, hdigits⟩ : ∃ digits, digits = (Nat.toDigits 10 t.units).leftpad (t.decimals + 1) '0' := ⟨_, rfl⟩
  have htext : t.text.toList = (if t.negative then ['-'] else []) ++ pointed digits t.decimals := by
    rw [hdigits, text, String.toList_ofList, List.append_assoc, Nat.toString_eq_ofList_toDigits,
      String.toList_ofList]
    rfl
  have hlen : t.decimals < digits.length := by
    rw [hdigits, List.length_leftpad]
    omega
  have hdigit : ∀ c ∈ digits, c.isDigit = true := by
    intro c hc
    rw [hdigits, List.leftpad] at hc
    rcases List.mem_append.1 hc with hc | hc
    · rw [List.eq_of_mem_replicate hc]
      rfl
    · exact Nat.isDigit_of_mem_toDigits (by decide) (by decide) hc
  have hpoint : '.' ∉ digits := fun hc => absurd (hdigit _ hc) (by decide)
  have hminus : '-' ∉ digits := fun hc => absurd (hdigit _ hc) (by decide)
  have hunits : Nat.ofDigitChars 10 digits 0 = t.units := by
    rw [hdigits, List.leftpad, Nat.ofDigitChars_append, Nat.ofDigitChars_replicate_zero, Nat.mul_zero,
      Nat.ofDigitChars_ten_toDigits]
  have hunsigned : unsigned (pointed digits t.decimals) = t.units / 10 ^ t.decimals := by
    rw [unsigned, filter_pointed hpoint, behind_pointed hpoint hlen.le, hunits]
  unfold read value
  rw [htext]
  cases t.negative with
  | true => simp [hunsigned, neg_div]
  | false => simp [head_pointed hminus hlen, hunsigned]

end Fixed

section Decimals

variable {x y : ℚ} {p q : ℕ}

theorem HasDecimals.mul_int (h : HasDecimals x p) (z : ℤ) : HasDecimals (z * x) p := by
  obtain ⟨units, hunits⟩ := h
  exact ⟨z * units, by rw [mul_assoc, hunits, Int.cast_mul]⟩

theorem HasDecimals.mono (h : HasDecimals x p) (hle : p ≤ q) : HasDecimals x q := by
  obtain ⟨units, hunits⟩ := h
  obtain ⟨k, rfl⟩ := Nat.exists_eq_add_of_le hle
  exact ⟨units * 10 ^ k, by rw [pow_add, ← mul_assoc, hunits]; push_cast; rfl⟩

/-- Numbers with so many decimals are equal, or a unit of the last one apart. -/
theorem HasDecimals.eq_of_near (h : HasDecimals x p) (h' : HasDecimals y p) (hnear : |x - y| * 10 ^ p < 1) :
    x = y := by
  obtain ⟨units, hx⟩ := h
  obtain ⟨units', hy⟩ := h'
  have hpow : (0 : ℚ) < 10 ^ p := by positivity
  have hdist : |((units - units' : ℤ) : ℚ)| < 1 := by
    rwa [← abs_of_pos hpow, ← abs_mul, sub_mul, hx, hy, ← Int.cast_sub] at hnear
  have hunits : units - units' = 0 := by
    rw [← Int.abs_lt_one_iff]
    exact_mod_cast hdist
  refine mul_right_cancel₀ hpow.ne' ?_
  rw [hx, hy, sub_eq_zero.1 hunits]

end Decimals

/-- Where `f` only rearranges what `g` gives, and a value of `g` that `f` gives at the same rank or below is
one that `f` keeps, it keeps them all. -/
theorem eq_of_perm_of_rank {α β : Type} {f g : α → β} (rank : α → ℕ) :
    ∀ {n : ℕ} {l : List α}, l.length = n → (l.map f).Perm (l.map g) →
      (∀ x ∈ l, ∀ y ∈ l, rank y ≤ rank x → f y = g x → f x = g x) → ∀ x ∈ l, f x = g x
  | 0, l, hlen, _, _ => fun x hx => by
    rw [List.eq_nil_of_length_eq_zero hlen] at hx
    cases hx
  | n + 1, l, hlen, hperm, hkeep => by
    -- one of the highest rank is kept; without it there is one less
    have hne : l ≠ [] := List.ne_nil_of_length_eq_add_one hlen
    obtain ⟨top, hargmax⟩ := Option.ne_none_iff_exists'.1 (mt List.argmax_eq_none.1 hne : l.argmax rank ≠ none)
    have htop : top ∈ l := List.argmax_mem hargmax
    obtain ⟨y, hy, hyeq⟩ := List.mem_map.1 (hperm.mem_iff.2 (List.mem_map_of_mem htop))
    have hkept : f top = g top := hkeep top htop y hy (List.le_of_mem_argmax hy hargmax) hyeq
    obtain ⟨before, after, hsplit⟩ := List.append_of_mem htop
    obtain ⟨rest, hrest⟩ : ∃ rest, l.Perm (top :: rest) := ⟨before ++ after, hsplit ▸ List.perm_middle⟩
    have hless : (rest.map f).Perm (rest.map g) := by
      have hboth := ((hrest.map f).symm.trans hperm).trans (hrest.map g)
      rw [List.map_cons, List.map_cons, hkept] at hboth
      exact hboth.cons_inv
    have hlen' : rest.length = n := by simpa [hlen] using hrest.length_eq.symm
    have hsub : ∀ x ∈ rest, x ∈ l := fun x hx => hrest.mem_iff.2 (List.mem_cons_of_mem _ hx)
    intro x hx
    rcases List.mem_cons.1 (hrest.mem_iff.1 hx) with rfl | hx
    · exact hkept
    · exact eq_of_perm_of_rank rank hlen' hless (fun x hx y hy => hkeep x (hsub x hx) y (hsub y hy)) x hx

/-! ## `std::llround` -/

/-- To the nearest integer, halves away from zero. -/
def llround (x : ℚ) : ℤ := if 0 ≤ x then ⌊x + 1 / 2⌋ else -⌊-x + 1 / 2⌋

/-- No integer is nearer. -/
theorem abs_sub_llround_le (x : ℚ) (z : ℤ) : |x - llround x| ≤ |x - z| := by
  unfold llround
  split
  · rw [← round_eq]
    exact round_le x z
  · have hneg : ∀ y : ℤ, |x - (-y : ℤ)| = |-x - y| := by
      intro y
      rw [Int.cast_neg, ← abs_neg]
      congr 1
      ring
    have hle := round_le (-x) (-z)
    rwa [round_eq, ← hneg, ← hneg, neg_neg] at hle

theorem abs_sub_llround_le_half (x : ℚ) : |x - llround x| ≤ 1 / 2 :=
  (abs_sub_llround_le x (round x)).trans (abs_sub_round x)

theorem llround_nonneg {x : ℚ} (hx : 0 ≤ x) : 0 ≤ llround x := by
  rw [llround, if_pos hx]
  exact Int.floor_nonneg.2 (by linarith)

theorem llround_nonpos {x : ℚ} (hx : x < 0) : llround x ≤ 0 := by
  rw [llround, if_neg (not_le.2 hx), neg_nonpos]
  exact Int.floor_nonneg.2 (by linarith)

/-- The number with so many decimals that is nearest, as a text. -/
def nearestFixed (p : ℕ) (x : ℚ) : Fixed := ⟨x < 0, (llround (x * 10 ^ p)).natAbs, p⟩

theorem value_nearestFixed (p : ℕ) (x : ℚ) : (nearestFixed p x).value * 10 ^ p = llround (x * 10 ^ p) := by
  have hpow : (0 : ℚ) < 10 ^ p := by positivity
  have hcancel : ∀ a : ℚ, a / 10 ^ p * 10 ^ p = a := fun a => div_mul_cancel₀ a hpow.ne'
  unfold nearestFixed Fixed.value
  dsimp only
  rw [hcancel]
  by_cases hx : x < 0
  · have hle := llround_nonpos (mul_neg_of_neg_of_pos hx hpow)
    rw [if_pos (decide_eq_true hx), Nat.cast_natAbs, abs_of_nonpos hle]
    simp
  · have hle := llround_nonneg (mul_nonneg (not_lt.1 hx) hpow.le)
    rw [if_neg (by simpa using hx), Nat.cast_natAbs, abs_of_nonneg hle]

theorem nearestFixed_near (p : ℕ) (x : ℚ) : |(nearestFixed p x).value - x| * 10 ^ p ≤ 1 / 2 := by
  have hpow : (0 : ℚ) < 10 ^ p := by positivity
  have hscaled : |(nearestFixed p x).value - x| * 10 ^ p = |x * 10 ^ p - llround (x * 10 ^ p)| := by
    rw [abs_sub_comm, ← value_nearestFixed, ← sub_mul, abs_mul, abs_of_pos hpow]
  rw [hscaled]
  exact abs_sub_llround_le_half _

end BybitApi.Lib
