import Mathlib.Data.Nat.Notation
import BybitApi.Lib.Runs

/-!
# Bounded reachability

`Within C n s s'` says that at most `n` steps, all meeting `C`, lead from `s` to `s'`. It is what a
promise of recovery is stated with: from every state that is reached, however that came about, a good
state is a bounded number of steps away. Such stretches compose (`Within.trans`).

`Stretch C n s s'` says that `n` steps, all meeting `C`, lead from `s` to `s'`, and it is what a promise
about every continuation is stated with: what each step lowers bounds them all (`Stretch.lowered`).
-/

namespace BybitApi.Lib

namespace System

variable {σ α : Type}

/-- `n` steps meeting `C` lead from `s` to `s'`. -/
inductive Stretch (S : System σ α) (C : σ → α → Prop) : ℕ → σ → σ → Prop
  | here (s : σ) : Stretch S C 0 s s
  | next {n : ℕ} {s s₁ s' : σ} (a : α) (hC : C s a) (hs : S.step s a = some s₁)
      (h : Stretch S C n s₁ s') : Stretch S C (n + 1) s s'

/-- At most `n` steps meeting `C` lead from `s` to `s'`. -/
inductive Within (S : System σ α) (C : σ → α → Prop) : ℕ → σ → σ → Prop
  | here (n : ℕ) (s : σ) : Within S C n s s
  | next {n : ℕ} {s s₁ s' : σ} (a : α) (hC : C s a) (hs : S.step s a = some s₁)
      (h : Within S C n s₁ s') : Within S C (n + 1) s s'

variable {S : System σ α} {C : σ → α → Prop} {n m : ℕ} {s s₁ s' : σ}

theorem Within.one (a : α) (hC : C s a) (hs : S.step s a = some s') : S.Within C 1 s s' :=
  .next a hC hs (.here 0 s')

theorem Within.le (h : S.Within C n s s') (hnm : n ≤ m) : S.Within C m s s' := by
  induction h generalizing m with
  | here n s => exact .here m s
  | @next n s s₁ s' a hC hs _ ih =>
    obtain ⟨k, rfl⟩ : ∃ k, m = k + 1 := ⟨m - 1, by omega⟩
    exact .next a hC hs (ih (by omega))

/-- A stretch after another. -/
theorem Within.trans (h : S.Within C n s s₁) (h' : S.Within C m s₁ s') : S.Within C (n + m) s s' := by
  induction h with
  | here n s => exact h'.le (Nat.le_add_left m n)
  | @next n s s₂ s₁ a hC hs _ ih =>
    have hrest := Within.next a hC hs (ih h')
    exact hrest.le (by omega)

variable {I : σ → Prop} {μ : σ → ℕ}

/-- What each step keeps. -/
theorem Stretch.invariant (hstep : ∀ s a s', I s → C s a → S.step s a = some s' → I s')
    (h : S.Stretch C n s s') (hs : I s) : I s' := by
  induction h with
  | here s => exact hs
  | next a hC hs₁ _ ih => exact ih (hstep _ a _ hs hC hs₁)

/-- What each step lowers. -/
theorem Stretch.lowered (hstep : ∀ s a s', I s → C s a → S.step s a = some s' → I s' ∧ μ s' < μ s)
    (h : S.Stretch C n s s') (hs : I s) : n + μ s' ≤ μ s := by
  induction h with
  | here s => exact Nat.le_of_eq (Nat.zero_add _)
  | next a hC hs₁ _ ih =>
    obtain ⟨hkept, hlt⟩ := hstep _ a _ hs hC hs₁
    have hrest := ih hkept
    omega

end System

end BybitApi.Lib
