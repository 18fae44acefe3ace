import BybitApi.Lib.Loop
import Mathlib.Data.Set.Card
import Mathlib.Logic.Relation
import Mathlib.Order.CompletePartialOrder

/-!
# Loops that go from place to place

A loop whose next place depends on the place it is at and on nothing else. Among finitely many
places it ends if and only if it comes by no place twice.

* `Follows.not_ends` : a loop that comes by a place again never ends;
* `Follows.ends` : one that does not, ends.
-/

namespace BybitApi.Lib

open Relation

section Places

variable {κ : Type} (next : κ → Option κ)

/-- `k'` comes right after `k`. -/
def Leads (k k' : κ) : Prop := next k = some k'

/-- The places that are come by from `k` on. -/
def places (k : κ) : Set κ := {k' | ReflTransGen (Leads next) k k'}

/-- From `k` on, a place is come by twice. -/
def Revisits (k : κ) : Prop := ∃ c ∈ places next k, TransGen (Leads next) c c

variable {next} {k k' k₁ : κ}

theorem not_revisits_of_stop (h : next k = none) : ¬ Revisits next k := by
  have hstuck : ∀ k', ¬ Leads next k k' := fun k' hk' => nomatch h.symm.trans hk'
  rintro ⟨c, hkc, hc⟩
  obtain rfl | ⟨k', hk', -⟩ := hkc.cases_head
  · obtain ⟨k', hk', -⟩ := TransGen.head'_iff.1 hc
    exact hstuck k' hk'
  · exact hstuck k' hk'

/-- The place that follows a place on a cycle is on it as well. -/
theorem revisits_of_leads (h : Leads next k k') (hr : Revisits next k) : Revisits next k' := by
  have hdet : ∀ {k₁}, Leads next k k₁ → k₁ = k' := fun h₁ => Option.some.inj (h₁.symm.trans h)
  obtain ⟨c, hkc, hc⟩ := hr
  obtain rfl | ⟨k₁, hk₁, hk₁c⟩ := hkc.cases_head
  · obtain ⟨k₁, hk₁, hk₁k⟩ := TransGen.head'_iff.1 hc
    obtain rfl := hdet hk₁
    exact ⟨k, hk₁k, hc⟩
  · obtain rfl := hdet hk₁
    exact ⟨c, hk₁c, hc⟩

theorem places_subset_of_leads (h : Leads next k k') : places next k' ⊆ places next k :=
  fun _ hc => ReflTransGen.head h hc

/-- Unless a place is come by twice, fewer and fewer are left. -/
theorem places_ssubset_of_leads (h : Leads next k k') (hr : ¬ Revisits next k) :
    places next k' ⊂ places next k := by
  refine ⟨places_subset_of_leads h, fun hsub => ?_⟩
  have hback : k ∈ places next k' := hsub ReflTransGen.refl
  exact hr ⟨k, ReflTransGen.refl, TransGen.head' h hback⟩

end Places

section Loops

variable {σ β ε κ : Type} {body : σ → Except ε (σ ⊕ β)} {view : σ → κ} {next : κ → Option κ} {s : σ}

/-- The rounds of the loop go from place to place, and the loop is left where no place is next. -/
structure Follows (body : σ → Except ε (σ ⊕ β)) (view : σ → κ) (next : κ → Option κ) : Prop where
  goes : ∀ s s', body s = .ok (.inl s') → Leads next (view s) (view s')
  stops : ∀ s, (∀ s', body s ≠ .ok (.inl s')) → next (view s) = none

namespace Follows

/-- The invariant is that a place is going to be come by again. -/
theorem not_ends (h : Follows body view next) (hr : Revisits next (view s)) : ¬ ∃ r, Ends body s r := by
  rintro ⟨r, hends⟩
  refine hends.invariant (I := fun s => Revisits next (view s)) (Q := fun _ => False) hr ?_ ?_ ?_
  · intro s s' hs hbody
    exact revisits_of_leads (h.goes s s' hbody) hs
  · intro s b hs hbody
    refine not_revisits_of_stop (h.stops s fun s' hs' => ?_) hs
    cases hbody.symm.trans hs'
  · intro s e hs hbody
    refine not_revisits_of_stop (h.stops s fun s' hs' => ?_) hs
    cases hbody.symm.trans hs'

/-- The variant is the number of places that are left. -/
theorem ends (h : Follows body view next) (hfin : (places next (view s)).Finite)
    (hr : ¬ Revisits next (view s)) : ∃ r, Ends body s r := by
  refine Ends.of_variant (I := fun s => (places next (view s)).Finite ∧ ¬ Revisits next (view s))
    (fun s => (places next (view s)).ncard) ⟨hfin, hr⟩ ?_
  rintro s s' ⟨hfin, hr⟩ hbody
  have hlead := h.goes s s' hbody
  refine ⟨⟨hfin.subset (places_subset_of_leads hlead), fun hr' => ?_⟩,
    Set.ncard_lt_ncard (places_ssubset_of_leads hlead hr) hfin⟩
  obtain ⟨c, hc, hcycle⟩ := hr'
  exact hr ⟨c, places_subset_of_leads hlead hc, hcycle⟩

theorem ends_iff (h : Follows body view next) (hfin : (places next (view s)).Finite) :
    (∃ r, Ends body s r) ↔ ¬ Revisits next (view s) :=
  ⟨fun hends hr => h.not_ends hr hends, h.ends hfin⟩

end Follows

end Loops

end BybitApi.Lib
