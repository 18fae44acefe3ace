import BybitApi.Lib.Runs
import BybitApi.Session.Handlers

/-!
# The runs of a session

An action is a call from some thread, a task or a completion that the strand runs, a control frame
that the stream of some generation takes, or Beast taking the current stream out of its open state.
The environment is free: any task and any operation may be next, and an operation may end in any way
that fits it.
-/

namespace BybitApi.Session

open Lib

inductive Action where
  | run (subscriptionFilter : Topic)
  | subscribe (topic : Topic)
  | unsubscribe (topic : Topic)
  | close
  | task (t : Task)
  | complete (p : Pending) (r : Result) (now : Clock)
  | control (gen : ℕ) (isPong : Bool) (now : Clock)
  | streamCloses

/-- A topic that the action asks for is UTF-8. -/
def Action.AsksUtf8 : Action → Prop
  | .run topic | .subscribe topic => topic.isUtf8 = true
  | _ => True

instance : DecidablePred Action.AsksUtf8
  | .run topic | .subscribe topic => inferInstanceAs (Decidable (topic.isUtf8 = true))
  | .unsubscribe _ | .close | .task _ | .complete .. | .control .. | .streamCloses => isTrue trivial

/-- `run` is called once: its only caller, `WebSocketClient::subscribe`, calls it on a session it
has just made. -/
def step (w : World) : Action → Option World
  | .run subscriptionFilter =>
    if w.ran || subscriptionFilter = "" then none else some (w.run subscriptionFilter)
  | .subscribe topic => some (w.subscribe topic)
  | .unsubscribe topic => some (w.unsubscribe topic)
  | .close => some (w.post .closeByUser)
  | .task t => if t ∈ w.tasks then some ((w.begin t).runTask t).world else none
  | .complete p r now =>
    if p ∈ w.pending ∧ r.fits p then
      some (completion p.kind p.gen r now (w.taken p))
    else none
  | .control gen isPong now => if gen ∈ w.controlCallbacks then some (w.controlCallback isPong now) else none
  | .streamCloses => some { w with ws := w.ws.map Stream.closed }

/-- A handler of the strand ends by an exception, which leaves `ioContext.run()`. That of a read does
not: `onRead` catches it. -/
def World.throws (w : World) : Action → Bool
  | .task t => ((w.begin t).runTask t).threw
  | .complete p r now =>
    p.kind = .handshake && p.gen = w.generation && ((w.taken p).onHandshake p.gen r.ec now).threw
  | _ => false

/-- A session with the given credentials; empty ones for a public stream. -/
def session (apiKey apiSecret : String) : System World Action := ⟨.init apiKey apiSecret, step⟩

/-! ## Stretches of runs -/

/-- The connect chain of a generation, without an error. -/
def chainRun (gen : ℕ) (now : Clock) : List Action :=
  [.complete ⟨.resolve, gen, false⟩ .done now, .complete ⟨.connect, gen, false⟩ .done now,
    .complete ⟨.sslHandshake, gen, false⟩ .done now, .complete ⟨.handshake, gen, false⟩ .done now]

/-- `run()` and the first generation, up to its handshake. -/
def connectRun (subscriptionFilter : Topic) : List Action :=
  [.run subscriptionFilter, .task .startConnect] ++ chainRun 1 ⟨0, 0⟩

/-- The reconnect after generation `gen` was torn down. -/
def reconnectRun (gen : ℕ) : List Action :=
  .complete ⟨.reconnectTimer, gen, false⟩ .done ⟨0, 0⟩ :: chainRun (gen + 1) ⟨0, 0⟩

/-- A topic that `dump()` throws on: a byte that no UTF-8 has. -/
def notUtf8 : Topic := .other ⟨#[0xff]⟩ (by decide)

/-! ## Inversion -/

section Inversion

variable {w w' : World}

theorem step_task {t : Task} (h : step w (.task t) = some w') :
    t ∈ w.tasks ∧ w' = ((w.begin t).runTask t).world := by
  simp only [step] at h
  split at h
  · next ht => exact ⟨ht, (Option.some.inj h).symm⟩
  · cases h

theorem step_complete {p : Pending} {r : Result} {now : Clock} (h : step w (.complete p r now) = some w') :
    p ∈ w.pending ∧ r.fits p ∧ w' = completion p.kind p.gen r now (w.taken p) := by
  simp only [step] at h
  split at h
  · next hp => exact ⟨hp.1, hp.2, (Option.some.inj h).symm⟩
  · cases h

theorem step_run {f : Topic} (h : step w (.run f) = some w') : w.ran = false ∧ f ≠ "" ∧ w' = w.run f := by
  simp only [step] at h
  split at h
  · cases h
  · next hr =>
    simp only [Bool.or_eq_true, decide_eq_true_eq, not_or, Bool.not_eq_true] at hr
    exact ⟨hr.1, hr.2, (Option.some.inj h).symm⟩

theorem step_control {gen : ℕ} {isPong : Bool} {now : Clock}
    (h : step w (.control gen isPong now) = some w') :
    gen ∈ w.controlCallbacks ∧ w' = w.controlCallback isPong now := by
  simp only [step] at h
  split at h
  · next hg => exact ⟨hg, (Option.some.inj h).symm⟩
  · cases h

end Inversion

end BybitApi.Session
