import BybitApi.Session.Life

/-!
# Generation isolation

A callback that an earlier generation registered must not move the session once a newer one has
begun. The nine completion handlers compare the generation they captured with the current one, so
all that happens is that the completion is gone from those outstanding. The control callback
captures no generation: a pong on the stream of a torn-down connection is taken for a sign of life
of the current one.
-/

namespace BybitApi.Session

open Lib

namespace World

/-- The action runs a callback of an earlier generation. -/
def StaleCallback (w : World) : Action → Prop
  | .complete p _ _ => p.gen < w.generation
  | .control gen _ _ => gen < w.generation
  | _ => False

/-- The session as it was: the completion that ran is no longer outstanding, and that is all. -/
def untouched (w : World) : Action → World
  | .complete p _ _ => w.taken p
  | _ => w

/-- A control callback takes a pong, at another time than `lastPongTime`. -/
def MovesPongTime (w : World) : Action → Prop
  | .control _ isPong now => isPong = true ∧ now.steady ≠ w.lastPongTime
  | _ => False

theorem controlCallback_eq_self_iff (isPong : Bool) (now : Clock) (w : World) :
    w.controlCallback isPong now = w ↔ ¬ (isPong = true ∧ now.steady ≠ w.lastPongTime) := by
  unfold controlCallback
  cases isPong with
  | false => simp
  | true =>
    simp only [if_true, true_and, ne_eq, not_not]
    constructor
    · intro h
      exact congrArg World.lastPongTime h
    · intro h
      rw [h]

/-- **Isolation.** A callback of an earlier generation leaves the session untouched, unless it is
the control callback and takes a pong that moves `lastPongTime`. -/
theorem stale_callback_untouched_iff (w w' : World) (a : Action) (ha : w.StaleCallback a)
    (hs : step w a = some w') : w' = w.untouched a ↔ ¬ w.MovesPongTime a := by
  cases a with
  | complete p r now =>
    obtain ⟨-, -, rfl⟩ := step_complete hs
    have hg : p.gen ≠ (w.taken p).generation := Nat.ne_of_lt ha
    rw [completion_stale hg]
    exact iff_of_true rfl not_false
  | control gen isPong now =>
    obtain ⟨-, rfl⟩ := step_control hs
    exact controlCallback_eq_self_iff isPong now w
  | run f => exact ha.elim
  | subscribe topic => exact ha.elim
  | unsubscribe topic => exact ha.elim
  | close => exact ha.elim
  | task t => exact ha.elim
  | streamCloses => exact ha.elim

/-- Two generations. The first one is torn down over a failed write; its read is still outstanding,
and its stream has a control callback. -/
def secondGenerationRun : List Action :=
  connectRun "tickers.BTCUSDT" ++ .complete ⟨.write, 1, false⟩ .failed ⟨0, 0⟩ :: reconnectRun 1

/-- That read completes during the second generation. -/
theorem stale_callback_untouched_read :
    ∃ w w', (session "" "").Reach System.Free w ∧ w.generation = 2 ∧
      step w (.complete ⟨.read, 1, false⟩ (.frame none) ⟨0, 0⟩) = some w' ∧ w' = w.taken ⟨.read, 1, false⟩ := by
  obtain ⟨w, hw, hg, hp⟩ := System.Reach.exists_of_exec (S := session "" "") (C := System.Free)
    (l := secondGenerationRun) (P := fun w => w.generation = 2 ∧ ⟨.read, 1, false⟩ ∈ w.pending) (by decide)
  have hs : step w (.complete ⟨.read, 1, false⟩ (.frame none) ⟨0, 0⟩) =
      some (completion .read 1 (.frame none) ⟨0, 0⟩ (w.taken ⟨.read, 1, false⟩)) := if_pos ⟨hp, by decide⟩
  have ha : w.StaleCallback (.complete ⟨.read, 1, false⟩ (.frame none) ⟨0, 0⟩) := by simp [StaleCallback, hg]
  exact ⟨w, _, hw, hg, hs, (stale_callback_untouched_iff w _ _ ha hs).2 not_false⟩

/-- A pong on the stream of the first generation counts for the second. -/
theorem stale_pong_counts :
    ¬ ∀ w, (session "" "").Reach System.Free w → ∀ a w', w.StaleCallback a → step w a = some w' →
      w' = w.untouched a := by
  intro h
  obtain ⟨w, hw, hg, hc, ht⟩ := System.Reach.exists_of_exec (S := session "" "") (C := System.Free)
    (l := secondGenerationRun)
    (P := fun w => w.generation = 2 ∧ 1 ∈ w.controlCallbacks ∧ w.lastPongTime = 0) (by decide)
  have hs : step w (.control 1 true ⟨5000, 0⟩) = some (w.controlCallback true ⟨5000, 0⟩) := by simp [step, hc]
  have heq := h w hw _ _ (by simp [StaleCallback, hg]) hs
  have htime : 5000 = w.lastPongTime := congrArg World.lastPongTime heq
  omega

end World

end BybitApi.Session
