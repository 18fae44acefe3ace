import Mathlib.Data.List.Infix
import Mathlib.Data.Nat.Notation

/-!
# Scanning a text for matches

A scan from left to right goes on behind each match, so a match that begins within another is passed over
(`scan`, as `std::sregex_iterator` does it). Where none can (`Apart`), the scan finds what is there to
find, at every place and in order (`scan_eq`).

* `fixed` : a pattern that says of each character which ones it may be.
* `apart_fixed` : two matches of such a pattern do not overlap if the pattern does not match itself shifted.
-/

namespace BybitApi.Lib

variable {α : Type}

/-- `m` gives the match at the beginning of a text. A match is not empty. -/
structure Matcher (α : Type) where
  find : List α → Option (List α)
  isPrefix : ∀ {s t}, find s = some t → t <+: s
  ne_nil : ∀ {s}, find s ≠ some []

/-- The matches from left to right, `skip` characters from here. -/
def Matcher.scan (m : Matcher α) : ℕ → List α → List (List α)
  | _, [] => []
  | skip + 1, _ :: s => m.scan skip s
  | 0, x :: s =>
    match m.find (x :: s) with
    | none => m.scan 0 s
    | some t => t :: m.scan (t.length - 1) s

/-- No match begins within another. -/
def Matcher.Apart (m : Matcher α) : Prop :=
  ∀ s t, m.find s = some t → ∀ k, 0 < k → k < t.length → m.find (s.drop k) = none

namespace Matcher

variable {m : Matcher α} {s t : List α}

theorem find_nil (m : Matcher α) : m.find [] = none := by
  cases h : m.find [] with
  | none => rfl
  | some t =>
    have ht := List.prefix_nil.1 (m.isPrefix h)
    subst ht
    exact absurd h m.ne_nil

theorem scan_skip (h : m.Apart) (s : List α) (skip : ℕ) (hskip : ∀ k < skip, m.find (s.drop k) = none) :
    m.scan skip s = s.tails.filterMap m.find := by
  induction s generalizing skip with
  | nil => cases skip <;> simp [scan, find_nil]
  | cons x s ih =>
    rw [List.tails_cons]
    cases skip with
    | succ skip =>
      have hnone : m.find (x :: s) = none := hskip 0 (Nat.succ_pos skip)
      rw [scan, List.filterMap_cons_none hnone]
      exact ih skip fun k hk => hskip (k + 1) (by omega)
    | zero =>
      rw [scan]
      cases hfind : m.find (x :: s) with
      | none =>
        rw [List.filterMap_cons_none hfind]
        exact ih 0 fun k hk => absurd hk (Nat.not_lt_zero k)
      | some t =>
        rw [List.filterMap_cons_some hfind]
        dsimp only
        rw [ih (t.length - 1) fun k hk => h (x :: s) t hfind (k + 1) (by omega) (by omega)]

/-- **A scan finds every match**, wherever it begins. -/
theorem scan_eq (h : m.Apart) (s : List α) : m.scan 0 s = s.tails.filterMap m.find :=
  scan_skip h s 0 fun k hk => absurd hk (Nat.not_lt_zero k)

theorem mem_scan (h : m.Apart) : t ∈ m.scan 0 s ↔ ∃ b, b <:+ s ∧ m.find b = some t := by
  rw [scan_eq h, List.mem_filterMap]
  simp only [List.mem_tails]

end Matcher

/-! ## Patterns of fixed length -/

/-- Each character is one that its class has. -/
def Fits : List (α → Bool) → List α → Prop
  | [], t => t = []
  | _ :: _, [] => False
  | c :: p, x :: t => c x = true ∧ Fits p t

/-- The beginning of a text, if it fits. -/
def takeFit : List (α → Bool) → List α → Option (List α)
  | [], _ => some []
  | _ :: _, [] => none
  | c :: p, x :: s => if c x then (takeFit p s).map (x :: ·) else none

section Fixed

variable {p q : List (α → Bool)} {s t u : List α}

theorem takeFit_eq_some : takeFit p s = some t ↔ Fits p t ∧ t <+: s := by
  induction p generalizing s t with
  | nil =>
    constructor
    · intro h
      obtain rfl := Option.some.inj h
      exact ⟨rfl, List.nil_prefix⟩
    · rintro ⟨rfl, -⟩
      rfl
  | cons c p ih =>
    cases s with
    | nil =>
      refine iff_of_false nofun ?_
      rintro ⟨hfits, hprefix⟩
      rw [List.prefix_nil.1 hprefix] at hfits
      exact hfits
    | cons x s =>
      rw [takeFit]
      constructor
      · intro h
        split at h
        · next hx =>
          obtain ⟨t', ht', rfl⟩ := Option.map_eq_some_iff.1 h
          obtain ⟨hfits, hprefix⟩ := ih.1 ht'
          exact ⟨⟨hx, hfits⟩, (List.prefix_cons_inj x).2 hprefix⟩
        · cases h
      · rintro ⟨hfits, hprefix⟩
        cases t with
        | nil => exact absurd hfits id
        | cons y t =>
          obtain ⟨rfl, hrest⟩ := List.cons_prefix_cons.1 hprefix
          rw [if_pos hfits.1, ih.2 ⟨hfits.2, hrest⟩]
          rfl

theorem Fits.length_eq (h : Fits p t) : t.length = p.length := by
  induction p generalizing t with
  | nil =>
    obtain rfl : t = [] := h
    rfl
  | cons c p ih =>
    cases t with
    | nil => exact absurd h id
    | cons x t => simp [ih h.2]

theorem Fits.append (h : Fits p t) (h' : Fits q u) : Fits (p ++ q) (t ++ u) := by
  induction p generalizing t with
  | nil =>
    obtain rfl : t = [] := h
    exact h'
  | cons c p ih =>
    cases t with
    | nil => exact absurd h id
    | cons x t => exact ⟨h.1, ih h.2⟩

theorem Fits.of_append (h : Fits (p ++ q) s) : ∃ t u, s = t ++ u ∧ Fits p t ∧ Fits q u := by
  induction p generalizing s with
  | nil => exact ⟨[], s, rfl, rfl, h⟩
  | cons c p ih =>
    cases s with
    | nil => exact absurd h id
    | cons x s =>
      obtain ⟨t, u, rfl, ht, hu⟩ := ih h.2
      exact ⟨x :: t, u, rfl, ⟨h.1, ht⟩, hu⟩

/-- The character at a place is one that the class of the place has. -/
theorem Fits.get (h : Fits p t) {i : ℕ} {c : α → Bool} (hc : p[i]? = some c) : ∃ x, t[i]? = some x ∧ c x = true := by
  induction p generalizing t i with
  | nil => cases hc
  | cons d p ih =>
    cases t with
    | nil => exact absurd h id
    | cons x t =>
      cases i with
      | zero =>
        obtain rfl : d = c := by simpa using hc
        exact ⟨x, rfl, h.1⟩
      | succ i =>
        rw [List.getElem?_cons_succ] at hc ⊢
        exact ih h.2 hc

/-- The pattern as a matcher. -/
def fixed (p : List (α → Bool)) (hne : p ≠ []) : Matcher α where
  find := takeFit p
  isPrefix h := (takeFit_eq_some.1 h).2
  ne_nil {s} h := by
    have hlen := (takeFit_eq_some.1 h).1.length_eq
    exact hne (List.length_eq_zero_iff.1 hlen.symm)

/-- Shifted by `k`, the pattern asks of one place for a character that it cannot be. -/
def Clashes (p : List (α → Bool)) (k : ℕ) : Prop :=
  ∃ i c d, p[i]? = some c ∧ p[i + k]? = some d ∧ ∀ x, c x = true → d x = true → False

theorem apart_fixed (hne : p ≠ []) (h : ∀ k, 0 < k → k < p.length → Clashes p k) : (fixed p hne).Apart := by
  intro s t ht k hk hlt
  obtain ⟨hfits, hprefix⟩ := takeFit_eq_some.1 ht
  rw [hfits.length_eq] at hlt
  obtain ⟨i, c, d, hc, hd, hclash⟩ := h k hk hlt
  by_contra hfind
  obtain ⟨u, hu⟩ := Option.ne_none_iff_exists'.1 hfind
  obtain ⟨hfits', hprefix'⟩ := takeFit_eq_some.1 hu
  obtain ⟨x, hx, hcx⟩ := hfits'.get hc
  obtain ⟨y, hy, hdy⟩ := hfits.get hd
  -- both are the character of the text at that place
  have hx' : s[i + k]? = some x := by
    obtain ⟨rest, hrest⟩ := hprefix'
    rw [Nat.add_comm i k, ← List.getElem?_drop, ← hrest, List.getElem?_append_left (List.getElem?_eq_some_iff.1 hx).1]
    exact hx
  have hy' : s[i + k]? = some y := by
    obtain ⟨rest, hrest⟩ := hprefix
    rw [← hrest, List.getElem?_append_left (List.getElem?_eq_some_iff.1 hy).1]
    exact hy
  obtain rfl := Option.some.inj (hx'.symm.trans hy')
  exact hclash x hcx hdy

end Fixed

end BybitApi.Lib
