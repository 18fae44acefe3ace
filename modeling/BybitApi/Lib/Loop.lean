import Mathlib.Order.Basic

/-!
# Loops

A loop whose number of rounds is not known beforehand. Its body throws, leaves the loop with a
result, or goes on with a new state, and the model runs it for a number of rounds that is given to
it. Only what a number of rounds that suffices gives says something about the program (`Ends`).

* `Ends.unique` : there is one way to end;
* `Ends.invariant` : what the body keeps holds of how the loop ends;
* `Ends.of_variant` : a loop whose rounds make a measure smaller ends;
* `not_ends_of_goes` : one that always goes on does not.

A round may also put something out, a request for instance (`loopOut`).

* `loopOut_invariant` : what every round adds to it, all rounds add to it.
-/

namespace BybitApi.Lib

variable {σ β ε : Type}

/-- At most so many rounds; `none` if they do not suffice. -/
def loop (body : σ → Except ε (σ ⊕ β)) : ℕ → σ → Option (Except ε β)
  | 0, _ => none
  | n + 1, s =>
    match body s with
    | .error e => some (.error e)
    | .ok (.inr b) => some (.ok b)
    | .ok (.inl s') => loop body n s'

/-- The loop, begun in `s`, ends with `r`. -/
def Ends (body : σ → Except ε (σ ⊕ β)) (s : σ) (r : Except ε β) : Prop := ∃ n, loop body n s = some r

variable {body : σ → Except ε (σ ⊕ β)} {s s' : σ} {r r' : Except ε β} {n : ℕ}

/-! ## One round -/

theorem loop_throw {e : ε} (h : body s = .error e) : loop body (n + 1) s = some (.error e) := by
  simp only [loop, h]

theorem loop_leave {b : β} (h : body s = .ok (.inr b)) : loop body (n + 1) s = some (.ok b) := by
  simp only [loop, h]

theorem loop_go (h : body s = .ok (.inl s')) : loop body (n + 1) s = loop body n s' := by
  simp only [loop, h]

/-- More rounds do no harm. -/
theorem loop_add (h : loop body n s = some r) (k : ℕ) : loop body (n + k) s = some r := by
  induction n generalizing s with
  | zero => cases h
  | succ n ih =>
    rw [Nat.add_right_comm]
    cases hb : body s with
    | error e => rwa [loop_throw hb] at h ⊢
    | ok next =>
      cases next with
      | inr b => rwa [loop_leave hb] at h ⊢
      | inl s' =>
        rw [loop_go hb] at h ⊢
        exact ih h

namespace Ends

theorem unique (h : Ends body s r) (h' : Ends body s r') : r = r' := by
  obtain ⟨n, hn⟩ := h
  obtain ⟨n', hn'⟩ := h'
  have h₁ := loop_add hn n'
  have h₂ := loop_add hn' n
  rw [Nat.add_comm n' n, h₁] at h₂
  exact Option.some.inj h₂

theorem throw {e : ε} (h : body s = .error e) : Ends body s (.error e) := ⟨1, loop_throw h⟩

theorem leave {b : β} (h : body s = .ok (.inr b)) : Ends body s (.ok b) := ⟨1, loop_leave h⟩

theorem go (h : body s = .ok (.inl s')) (hr : Ends body s' r) : Ends body s r := by
  obtain ⟨n, hn⟩ := hr
  exact ⟨n + 1, (loop_go h).trans hn⟩

/-- **Invariants.** `I` holds at the start of every round; `Q` of what a round ends with. -/
theorem invariant {I : σ → Prop} {Q : Except ε β → Prop} (h : Ends body s r) (hs : I s)
    (hgo : ∀ s s', I s → body s = .ok (.inl s') → I s')
    (hleave : ∀ s b, I s → body s = .ok (.inr b) → Q (.ok b))
    (hthrow : ∀ s e, I s → body s = .error e → Q (.error e)) : Q r := by
  obtain ⟨n, hn⟩ := h
  induction n generalizing s with
  | zero => cases hn
  | succ n ih =>
    cases hb : body s with
    | error e =>
      rw [loop_throw hb] at hn
      cases hn
      exact hthrow s e hs hb
    | ok next =>
      cases next with
      | inr b =>
        rw [loop_leave hb] at hn
        cases hn
        exact hleave s b hs hb
      | inl s' =>
        rw [loop_go hb] at hn
        exact ih (hgo s s' hs hb) hn

/-- **Variants.** The rounds that go on make `μ` smaller. -/
theorem of_variant {I : σ → Prop} (μ : σ → ℕ) (hs : I s)
    (hgo : ∀ s s', I s → body s = .ok (.inl s') → I s' ∧ μ s' < μ s) : ∃ r, Ends body s r := by
  induction hn : μ s using Nat.strongRecOn generalizing s with
  | ind n ih =>
    cases hb : body s with
    | error e => exact ⟨_, throw hb⟩
    | ok next =>
      cases next with
      | inr b => exact ⟨_, leave hb⟩
      | inl s' =>
        obtain ⟨hs', hlt⟩ := hgo s s' hs hb
        obtain ⟨r, hr⟩ := ih (μ s') (hn ▸ hlt) hs' rfl
        exact ⟨r, go hb hr⟩

end Ends

theorem not_ends_of_goes {I : σ → Prop} (hs : I s) (hgo : ∀ s, I s → ∃ s', body s = .ok (.inl s') ∧ I s') :
    ¬ Ends body s r := by
  intro h
  have hnever : ∀ {s b}, I s → body s = .ok (.inr b) → False := by
    intro s b hI hb
    obtain ⟨s', hs', -⟩ := hgo s hI
    rw [hb] at hs'
    cases hs'
  refine h.invariant (Q := fun _ => False) hs (fun s s' hI hb => ?_) (fun s b => hnever) (fun s e hI hb => ?_)
  · obtain ⟨s₁, hs₁, hI'⟩ := hgo s hI
    rw [hb] at hs₁
    cases hs₁
    exact hI'
  · obtain ⟨s', hs', -⟩ := hgo s hI
    rw [hb] at hs'
    cases hs'

/-! ## Rounds with an output -/

section Output

variable {ω : Type}

/-- `loop` with what its rounds put out, in their order. -/
def loopOut (body : σ → List ω × Except ε (σ ⊕ β)) : ℕ → σ → List ω × Option (Except ε β)
  | 0, _ => ([], none)
  | n + 1, s =>
    match body s with
    | (out, .error e) => (out, some (.error e))
    | (out, .ok (.inr b)) => (out, some (.ok b))
    | (out, .ok (.inl s')) =>
      let (later, r) := loopOut body n s'
      (out ++ later, r)

variable {body : σ → List ω × Except ε (σ ⊕ β)} {out : List ω}

theorem loopOut_throw {e : ε} (h : body s = (out, .error e)) :
    loopOut body (n + 1) s = (out, some (.error e)) := by
  simp only [loopOut, h]

theorem loopOut_leave {b : β} (h : body s = (out, .ok (.inr b))) :
    loopOut body (n + 1) s = (out, some (.ok b)) := by
  simp only [loopOut, h]

theorem loopOut_go (h : body s = (out, .ok (.inl s'))) :
    loopOut body (n + 1) s = (out ++ (loopOut body n s').1, (loopOut body n s').2) := by
  simp only [loopOut, h]

/-- It is the loop of its bodies. -/
theorem loopOut_snd (body : σ → List ω × Except ε (σ ⊕ β)) (n : ℕ) (s : σ) :
    (loopOut body n s).2 = loop (fun s => (body s).2) n s := by
  induction n generalizing s with
  | zero => rfl
  | succ n ih =>
    rcases hb : body s with ⟨out, next⟩
    cases next with
    | error e => rw [loopOut_throw hb, loop_throw (congrArg Prod.snd hb)]
    | ok next =>
      cases next with
      | inr b => rw [loopOut_leave hb, loop_leave (congrArg Prod.snd hb)]
      | inl s' =>
        rw [loopOut_go hb, loop_go (congrArg Prod.snd hb)]
        exact ih s'

/-- Once it has ended nothing more is put out. -/
theorem loopOut_add (h : (loopOut body n s).2 = some r) (k : ℕ) :
    loopOut body (n + k) s = loopOut body n s := by
  induction n generalizing s with
  | zero => cases h
  | succ n ih =>
    rw [Nat.add_right_comm]
    rcases hb : body s with ⟨out, next⟩
    cases next with
    | error e => rw [loopOut_throw hb, loopOut_throw hb]
    | ok next =>
      cases next with
      | inr b => rw [loopOut_leave hb, loopOut_leave hb]
      | inl s' =>
        rw [loopOut_go hb] at h
        rw [loopOut_go hb, loopOut_go hb, ih h]

/-- **Invariants of the output.** `I` holds at the start of every round; `Q s` of what is put out
from `s` on. -/
theorem loopOut_invariant {I : σ → Prop} {Q : σ → List ω → Prop} (hs : I s) (hnil : ∀ s, I s → Q s [])
    (hgo : ∀ s s' out, I s → body s = (out, .ok (.inl s')) →
      I s' ∧ ∀ later, Q s' later → Q s (out ++ later))
    (hleave : ∀ s b out, I s → body s = (out, .ok (.inr b)) → Q s out)
    (hthrow : ∀ s e out, I s → body s = (out, .error e) → Q s out) (n : ℕ) :
    Q s (loopOut body n s).1 := by
  induction n generalizing s with
  | zero => exact hnil s hs
  | succ n ih =>
    rcases hb : body s with ⟨out, next⟩
    cases next with
    | error e =>
      rw [loopOut_throw hb]
      exact hthrow s e out hs hb
    | ok next =>
      cases next with
      | inr b =>
        rw [loopOut_leave hb]
        exact hleave s b out hs hb
      | inl s' =>
        rw [loopOut_go hb]
        obtain ⟨hs', hadd⟩ := hgo s s' out hs hb
        exact hadd _ (ih hs')

end Output

end BybitApi.Lib
