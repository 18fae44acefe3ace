import Mathlib.Algebra.Notation.Pi.Defs
import Mathlib.Data.Fintype.Defs

/-!
# Patches

A record has a value in each field. A patch carries new values for some of the fields, and a copy of a
record is kept by laying on it the patches that are sent whenever the record changes.

`settle` says what the copy will be once the patches on the way have come. A copy that will be the
record stays so: when the record changes and a patch is sent, when a patch comes, and when the copy is
replaced by an earlier record, as long as the fields in which that differs are on the way.
-/

namespace BybitApi.Lib

/-- New values for some of the fields. -/
abbrev Patch (ι α : Type) : Type := ι → Option α

namespace Patch

variable {ι α : Type} {q q' : ι → α} {d : Patch ι α} {l : List (Patch ι α)} {o : Option (ι → α)}

/-- The record with the new values. -/
def onto (d : Patch ι α) (q : ι → α) : ι → α := fun i => (d i).getD (q i)

/-- Every field of the record. -/
def full (q : ι → α) : Patch ι α := fun i => some (q i)

/-- Exactly the fields that change. -/
def diff [DecidableEq α] (q q' : ι → α) : Patch ι α := fun i => if q' i = q i then none else some (q' i)

/-- The record, where the patch carries every field. -/
def whole [Fintype ι] (d : Patch ι α) : Option (ι → α) :=
  if h : ∀ i, (d i).isSome = true then some fun i => (d i).get (h i) else none

@[simp] theorem diff_onto [DecidableEq α] : (diff q q').onto q = q' := by
  funext i
  unfold onto diff
  split
  · next h => exact h.symm
  · rfl

@[simp] theorem whole_full [Fintype ι] : (full q).whole = some q := dif_pos fun _ => rfl

theorem onto_of_whole [Fintype ι] (h : d.whole = some q) : d.onto q' = q := by
  unfold whole at h
  split at h
  · next hall =>
    cases h
    funext i
    obtain ⟨v, hv⟩ := Option.isSome_iff_exists.1 (hall i)
    simp [onto, hv]
  · cases h

/-! ## Several patches -/

/-- One patch for all of them; a later one goes over an earlier one. -/
def merge : List (Patch ι α) → Patch ι α
  | [] => fun _ => none
  | d :: l => fun i => (merge l i).or (d i)

theorem merge_isSome_iff {i : ι} : (merge l i).isSome = true ↔ ∃ d ∈ l, (d i).isSome = true := by
  induction l with
  | nil => simp [merge]
  | cons d l ih =>
    simp only [merge, Option.isSome_or, Bool.or_eq_true, ih, List.mem_cons, exists_eq_or_imp, or_comm]

variable [Zero α]

/-- A copy takes a patch. A new one has zero in every field. -/
def take (d : Patch ι α) (o : Option (ι → α)) : Option (ι → α) := some (d.onto (o.getD 0))

/-- The copy once these patches have come, the first one first. -/
def settle (l : List (Patch ι α)) (o : Option (ι → α)) : Option (ι → α) := l.foldl (fun o d => d.take o) o

@[simp] theorem settle_cons : settle (d :: l) o = settle l (d.take o) := rfl

theorem settle_concat : settle (l ++ [d]) o = d.take (settle l o) := List.foldl_concat _ o d l

/-- The record changes, and the patch is sent. -/
theorem settle_diff [DecidableEq α] (h : settle l o = some q) : settle (l ++ [diff q q']) o = some q' := by
  rw [settle_concat, h]
  exact congrArg some diff_onto

/-- The record is sent as a whole. -/
theorem settle_full : settle (l ++ [full q]) o = some q := settle_concat

theorem settle_some (q : ι → α) : settle l (some q) = some ((merge l).onto q) := by
  induction l generalizing q with
  | nil => rfl
  | cons d l ih =>
    rw [settle_cons, take, ih]
    refine congrArg some (funext fun i => ?_)
    simp only [onto, merge, Option.getD_some]
    cases merge l i <;> rfl

/-- What is not on the way is there already. -/
theorem eq_of_settle (h : settle l o = some q) : (merge l).onto (o.getD 0) = q := by
  cases o with
  | some b => exact Option.some.inj ((settle_some b).symm.trans h)
  | none =>
    cases l with
    | nil => cases h
    | cons d l =>
      have hsome : settle (d :: l) (some 0) = some q := h
      exact Option.some.inj ((settle_some 0).symm.trans hsome)

/-- **Another copy.** Where it differs from the record, the field is on the way. -/
theorem settle_replaced (h : settle l o = some q)
    (hcarried : ∀ i, q' i ≠ q i → ∃ d ∈ l, (d i).isSome = true) : settle l (some q') = some q := by
  rw [settle_some]
  refine congrArg some (funext fun i => ?_)
  have hi := congrFun (eq_of_settle h) i
  unfold onto at hi ⊢
  cases hm : merge l i with
  | some v =>
    rw [hm] at hi
    exact hi
  | none =>
    by_contra hne
    have hsome := merge_isSome_iff.2 (hcarried i hne)
    rw [hm] at hsome
    cases hsome

end Patch

end BybitApi.Lib
