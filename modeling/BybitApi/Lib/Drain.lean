import Mathlib
import BybitApi.Lib.Runs

/-!
# Work that runs out

A system does work and is given work. A potential measures what is outstanding: a step that does work lowers
it, a step that brings work may raise it by a bounded amount. Then the work done along any sequence of actions is
bounded by what was outstanding and what was brought (`Path.amortised`), whatever the order.

`Path s l s'` says that the actions `l` lead from `s` to `s'`.
-/

namespace BybitApi.Lib

namespace System

variable {σ α : Type}

/-- The actions `l`, one after the other, lead from a state to another. -/
inductive Path (S : System σ α) : σ → List α → σ → Prop
  | nil (s : σ) : Path S s [] s
  | cons {s s₁ s' : σ} {a : α} {l : List α} (hs : S.step s a = some s₁) (h : Path S s₁ l s') : Path S s (a :: l) s'

variable {S : System σ α} {s s₁ s' : σ} {a : α} {l : List α}

theorem Path.of_exec (h : S.exec Free s l = some s') : S.Path s l s' := by
  induction l generalizing s with
  | nil =>
    obtain rfl := Option.some.inj h
    exact .nil s
  | cons a l ih =>
    rw [exec, if_pos (by trivial), Option.bind_eq_some_iff] at h
    obtain ⟨s₁, hs, h⟩ := h
    exact .cons hs (ih h)

/-- What a step keeps, a path keeps. -/
theorem Path.invariant {I : σ → Prop} (hstep : ∀ s a s', S.step s a = some s' → I s → I s') (h : S.Path s l s')
    (hs : I s) : I s' := by
  induction h with
  | nil s => exact hs
  | cons hstep₁ _ ih => exact ih (hstep _ _ _ hstep₁ hs)

/-- **Amortised work.** -/
theorem Path.amortised {I : σ → Prop} {μ : σ → ℕ} {work gain : α → ℕ}
    (hstep : ∀ s a s', S.step s a = some s' → I s → I s' ∧ μ s' + work a ≤ μ s + gain a)
    (h : S.Path s l s') (hs : I s) : (l.map work).sum + μ s' ≤ μ s + (l.map gain).sum := by
  induction h with
  | nil s => simp
  | @cons s s₁ s' a l hstep₁ _ ih =>
    obtain ⟨hs₁, hle⟩ := hstep _ _ _ hstep₁ hs
    have hrest := ih hs₁
    simp only [List.map_cons, List.sum_cons]
    omega

end System

end BybitApi.Lib
