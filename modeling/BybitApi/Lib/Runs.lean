import Mathlib.Logic.Relation

/-!
# Runs of a guarded transition system

A system is a start and a step function: `step s a` is `some s'` where the action `a` is enabled in
`s`. Everything below is about *runs under a condition*: `C s a` says which steps a run may take, so
an assumption about the environment, or the condition under which a program keeps a promise, is a
restriction of the runs and never an extra hypothesis on the states they reach.

* `Reach C s` : some run whose steps all meet `C` ends in `s`;
* `Reach.invariant` : what holds at the start and is kept by every step holds in every state
  reached;
* `Reach.of_exec` : replaying a list of actions is a run;
* `Reach.simulate` : forward simulation, one step below for any number of steps above.

A *history* is a list of events, latest first. `Each P` says that every event meets `P` given what
came before it.
-/

namespace BybitApi.Lib

open Relation

/-- A transition system: its start, and the state an action leads to where it is enabled. -/
structure System (σ α : Type) where
  init : σ
  step : σ → α → Option σ

namespace System

variable {σ α τ β : Type} (S : System σ α) (T : System τ β)

/-- One step that meets `C`. -/
def Next (C : σ → α → Prop) (s s' : σ) : Prop := ∃ a, C s a ∧ S.step s a = some s'

/-- The states that runs meeting `C` in every step reach. -/
def Reach (C : σ → α → Prop) (s : σ) : Prop := ReflTransGen (S.Next C) S.init s

/-- Every step is allowed. -/
def Free : σ → α → Prop := fun _ _ => True

instance (s : σ) (a : α) : Decidable (Free s a) := inferInstanceAs (Decidable True)

variable {S T} {C D : σ → α → Prop}

theorem Reach.init : S.Reach C S.init := ReflTransGen.refl

theorem Reach.step {s s' : σ} {a : α} (h : S.Reach C s) (hC : C s a) (hs : S.step s a = some s') :
    S.Reach C s' :=
  ReflTransGen.tail h ⟨a, hC, hs⟩

/-- **Invariants.** The step may use that its first state is reached. -/
theorem Reach.invariant {I : σ → Prop} (h₀ : I S.init)
    (hstep : ∀ s a s', S.Reach C s → C s a → S.step s a = some s' → I s → I s') {s : σ} (h : S.Reach C s) :
    I s := by
  induction h with
  | refl => exact h₀
  | tail hr hn ih =>
    obtain ⟨a, hC, hs⟩ := hn
    exact hstep _ a _ hr hC hs ih

theorem Reach.mono (hCD : ∀ s a, S.Reach C s → C s a → D s a) {s : σ} (h : S.Reach C s) : S.Reach D s := by
  induction h with
  | refl => exact Reach.init
  | tail hr hn ih =>
    obtain ⟨a, hC, hs⟩ := hn
    exact ih.step (hCD _ a hr hC) hs

variable (S)

/-- Replay a list of actions; `none` if one of them is not enabled or does not meet `C`. -/
def exec (C : σ → α → Prop) [∀ s a, Decidable (C s a)] : σ → List α → Option σ
  | s, [] => some s
  | s, a :: l => if C s a then (S.step s a).bind fun s' => exec C s' l else none

variable {S}

theorem ReflTransGen_of_exec [∀ s a, Decidable (C s a)] :
    ∀ {l : List α} {s s' : σ}, S.exec C s l = some s' → ReflTransGen (S.Next C) s s'
  | [], s, s', h => by
    simp only [exec, Option.some.injEq] at h
    subst h; exact ReflTransGen.refl
  | a :: l, s, s', h => by
    by_cases hC : C s a
    · simp only [exec, hC, if_true, Option.bind_eq_some_iff] at h
      obtain ⟨s₁, h₁, h₂⟩ := h
      exact ReflTransGen.head ⟨a, hC, h₁⟩ (ReflTransGen_of_exec h₂)
    · simp [exec, hC] at h

theorem Reach.of_exec [∀ s a, Decidable (C s a)] {l : List α} {s : σ} (h : S.exec C S.init l = some s) :
    S.Reach C s :=
  ReflTransGen_of_exec h

/-- A replayed run whose last state passes a test. -/
theorem Reach.exists_of_exec [∀ s a, Decidable (C s a)] {l : List α} {P : σ → Prop} [DecidablePred P]
    (h : (S.exec C S.init l).any (fun s => decide (P s)) = true) : ∃ s, S.Reach C s ∧ P s := by
  rw [Option.any_eq_true] at h
  obtain ⟨s, hs, hP⟩ := h
  exact ⟨s, Reach.of_exec hs, of_decide_eq_true hP⟩

/-- **Forward simulation.** A step of `S` is a sequence of steps of `T`; then the abstractions of
the states that `S` reaches are reached by `T`. -/
theorem Reach.simulate {E : τ → β → Prop} (abs : σ → τ) (h₀ : abs S.init = T.init)
    (hstep : ∀ s a s', S.Reach C s → C s a → S.step s a = some s' →
      ReflTransGen (T.Next E) (abs s) (abs s')) {s : σ} (h : S.Reach C s) : T.Reach E (abs s) := by
  induction h with
  | refl => rw [h₀]; exact Reach.init
  | tail hr hn ih =>
    obtain ⟨a, hC, hs⟩ := hn
    exact ReflTransGen.trans ih (hstep _ a _ hr hC hs)

end System

/-! ## Histories -/

section Histories

variable {ε : Type} {P : ε → List ε → Prop}

/-- Every event of a history meets `P`, given the events before it. -/
def Each (P : ε → List ε → Prop) (history : List ε) : Prop :=
  ∀ later e past, history = later ++ e :: past → P e past

@[simp] theorem each_nil : Each P [] := fun later e past h => by simp at h

@[simp] theorem each_cons {e : ε} {past : List ε} : Each P (e :: past) ↔ P e past ∧ Each P past := by
  constructor
  · intro h
    exact ⟨h [] e past rfl, fun later e' past' hp => h (e :: later) e' past' (by rw [hp]; rfl)⟩
  · rintro ⟨he, hp⟩ later e' past' heq
    cases later with
    | nil =>
      obtain ⟨rfl, rfl⟩ := List.cons.inj heq
      exact he
    | cons x later =>
      obtain ⟨rfl, hrest⟩ := List.cons.inj heq
      exact hp later e' past' hrest

end Histories

end BybitApi.Lib
