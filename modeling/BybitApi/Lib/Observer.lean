import BybitApi.Lib.Runs

/-!
# Observers

What a run did is often more than its last state tells. An observer is told of every step and keeps
notes; it takes no part. So an observed run is a run, and every run can be observed
(`Reach.forget`, `Reach.observed`): what is proved of the notes of observed runs is proved of all
runs.

`observe_step` is what a step of an observed system is.
-/

namespace BybitApi.Lib

open Relation

namespace System

variable {σ α γ : Type}

/-- The system with an observer that begins with `notes₀`. It is told the state before a step, the
action and the state after it. -/
def observe (S : System σ α) (notes₀ : γ) (note : γ → σ → α → σ → γ) : System (σ × γ) α where
  init := (S.init, notes₀)
  step s a := (S.step s.1 a).map fun s' => (s', note s.2 s.1 a s')

variable {S : System σ α} {notes₀ : γ} {note : γ → σ → α → σ → γ}

theorem observe_step {s s' : σ × γ} {a : α} :
    (S.observe notes₀ note).step s a = some s' ↔
      S.step s.1 a = some s'.1 ∧ s'.2 = note s.2 s.1 a s'.1 := by
  change (S.step s.1 a).map _ = some s' ↔ _
  rw [Option.map_eq_some_iff]
  constructor
  · rintro ⟨s₁, hs, rfl⟩
    exact ⟨hs, rfl⟩
  · rintro ⟨hs, hn⟩
    exact ⟨s'.1, hs, by rw [← hn]⟩

/-- An observed run is a run. -/
theorem Reach.forget {C : σ × γ → α → Prop} {D : σ → α → Prop}
    (hCD : ∀ s a, (S.observe notes₀ note).Reach C s → C s a → D s.1 a) {s : σ × γ}
    (h : (S.observe notes₀ note).Reach C s) : S.Reach D s.1 := by
  refine h.simulate Prod.fst rfl fun s a s' hr hC hs => ?_
  exact ReflTransGen.single ⟨a, hCD s a hr hC, (observe_step.1 hs).1⟩

theorem Reach.unobserved {C : σ × γ → α → Prop} {s : σ × γ} (h : (S.observe notes₀ note).Reach C s) :
    S.Reach Free s.1 :=
  h.forget fun _ _ _ _ => trivial

/-- Every run can be observed. -/
theorem Reach.observed {D : σ → α → Prop} {s : σ} (h : S.Reach D s) :
    ∃ notes, (S.observe notes₀ note).Reach (fun s a => D s.1 a) (s, notes) := by
  induction h with
  | refl => exact ⟨notes₀, Reach.init⟩
  | @tail s s' _ hn ih =>
    obtain ⟨notes, ih⟩ := ih
    obtain ⟨a, hD, hs⟩ := hn
    have hs' : (S.observe notes₀ note).step (s, notes) a = some (s', note notes s a s') :=
      observe_step.2 ⟨hs, rfl⟩
    exact ⟨_, ih.step hD hs'⟩

end System

end BybitApi.Lib
