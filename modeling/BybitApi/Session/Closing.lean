import BybitApi.Lib.Drain
import BybitApi.Session.Life
import Mathlib

/-!
# After close

Every handler keeps the session alive through the `shared_from_this` it captured, so a session that was closed is
destroyed only when nothing is outstanding for it any more. `World.work` measures what is: a connect chain that is
under way goes on to its handshake, a write lets the next frame be written, a task may enqueue one. Nothing of it
starts a connection or a heartbeat again (`Event.AfterClose`), and nothing waits for the peer: the handlers run
out as soon as there are no more calls and no more frames.
-/

namespace BybitApi.Session

open Lib

/-- How many handlers can come of an operation, with those it starts in its turn. -/
def Kind.work : Kind → ℕ
  | resolve => 4
  | connect => 3
  | sslHandshake => 2
  | _ => 1

/-- A task that enqueues a frame is run itself, and the frame is written. -/
def Task.work : Task → ℕ
  | .flushTopics | .sendUnsubscribe _ => 3
  | .startConnect | .closeByUser => 1

/-- A frame may be answered with another, and the next one is read. -/
def Result.brings : Result → ℕ
  | .frame _ => 3
  | _ => 0

/-- The run of one handler of the strand. -/
def Action.ran : Action → ℕ
  | .task _ | .complete _ _ _ => 1
  | _ => 0

/-- What a call or a frame gives the strand to do. -/
def Action.brings : Action → ℕ
  | .run _ | .subscribe _ | .unsubscribe _ | .close => 3
  | .complete _ r _ => r.brings
  | _ => 0

/-- What may still happen after close: frames for the topics that were asked for or given up. -/
def Event.AfterClose : Event → Prop
  | .started _ | .teardown _ _ => False
  | .enqueued ⟨_, .auth _ _ _⟩ | .enqueued ⟨_, .ping⟩ => False
  | _ => True

namespace World

/-- A frame that is queued is handed over when a write completes. -/
def work (w : World) : ℕ :=
  (w.pending.map fun p => p.kind.work).sum + (w.tasks.map Task.work).sum + 2 * w.outboundQueue.length

section Work

variable {w : World}

@[simp] theorem work_log (e : Event) (w : World) : (w.log e).work = w.work := rfl

@[simp] theorem work_post (t : Task) (w : World) : (w.post t).work = w.work + t.work := by
  unfold work post
  simp only [List.map_append, List.map_cons, List.map_nil, List.sum_append, List.sum_cons, List.sum_nil]
  omega

@[simp] theorem work_start (k : Kind) (w : World) : (w.start k).work = w.work + k.work := by
  unfold work start
  simp only [List.map_append, List.map_cons, List.map_nil, List.sum_append, List.sum_cons, List.sum_nil]
  omega

@[simp] theorem work_enqueueOp (op : Op) (w : World) : (w.enqueueOp op).work = w.work + 2 := by
  unfold work enqueueOp log
  simp only [List.length_append, List.length_cons, List.length_nil]
  omega

theorem work_begin {t : Task} (ht : t ∈ w.tasks) : (w.begin t).work + t.work = w.work := by
  have hsum := ((List.perm_cons_erase ht).map Task.work).sum_eq
  rw [List.map_cons, List.sum_cons] at hsum
  unfold work begin
  dsimp only
  omega

theorem work_taken {p : Pending} (hp : p ∈ w.pending) : (w.taken p).work + p.kind.work = w.work := by
  have hsum := ((List.perm_cons_erase hp).map fun p => p.kind.work).sum_eq
  rw [List.map_cons, List.sum_cons] at hsum
  unfold work taken
  dsimp only
  omega

end Work

/-! ## What one handler leaves to do -/

/-- A handler of a closed session: it leaves at most `n` more to do than there was. -/
structure Winds (n : ℕ) (w w' : World) : Prop where
  closed : w'.userClosed = true
  work : w'.work ≤ w.work + n
  quiet : ∃ since, w'.trace = since ++ w.trace ∧ ∀ e ∈ since, e.AfterClose

namespace Winds

variable {w w' w'' : World} {n m : ℕ}

/-- Neither the outstanding work nor the history changes. -/
theorem of_eq (hc : w.userClosed = true) (hclosed : w'.userClosed = w.userClosed) (hwork : w'.work ≤ w.work + n)
    (htrace : w'.trace = w.trace) : w.Winds n w' :=
  ⟨hclosed.trans hc, hwork, [], htrace, nofun⟩

theorem refl (hc : w.userClosed = true) (n : ℕ) : w.Winds n w := of_eq hc rfl (Nat.le_add_right _ _) rfl

theorem trans (h : w.Winds n w') (h' : w'.Winds m w'') : w.Winds (n + m) w'' where
  closed := h'.closed
  work := by
    have hle := h.work
    have hle' := h'.work
    omega
  quiet := by
    obtain ⟨since, htrace, hsince⟩ := h.quiet
    obtain ⟨since', htrace', hsince'⟩ := h'.quiet
    refine ⟨since' ++ since, by rw [htrace', htrace, List.append_assoc], fun e he => ?_⟩
    rcases List.mem_append.1 he with he | he
    · exact hsince' e he
    · exact hsince e he

theorem le (h : w.Winds n w') (hle : n ≤ m) : w.Winds m w' := ⟨h.closed, h.work.trans (by omega), h.quiet⟩

theorem log (hc : w.userClosed = true) (e : Event) (he : e.AfterClose) : w.Winds 0 (w.log e) :=
  ⟨hc, by simp, [e], rfl, by simpa using he⟩

theorem start (hc : w.userClosed = true) (k : Kind) : w.Winds k.work (w.start k) :=
  of_eq hc rfl (by simp) rfl

end Winds

section Handlers

variable {w : World}

theorem winds_enqueueOp (hc : w.userClosed = true) (op : Op) (hauth : op.isAuth = false) (hping : op ≠ .ping) :
    w.Winds 2 (w.enqueueOp op) := by
  refine ⟨hc, by simp, [.enqueued ⟨w.generation, op⟩], rfl, ?_⟩
  rintro e he
  obtain rfl := List.mem_singleton.1 he
  cases op with
  | auth _ _ _ => cases hauth
  | ping => exact absurd rfl hping
  | subscribe _ _ | unsubscribe _ => trivial

/-- The frame that is handed over was queued. -/
theorem winds_pump (hc : w.userClosed = true) : w.Winds 0 w.pump := by
  unfold pump
  split
  · next ws frame rest hws hqueue =>
    split
    · exact .refl hc 0
    · refine ⟨hc, ?_, [.written ws.gen frame], rfl, by simp [Event.AfterClose]⟩
      rw [work_log, work_start]
      unfold work
      dsimp only
      rw [hqueue, List.length_cons]
      change _ + _ + 1 ≤ _
      omega
  · exact .refl hc 0

theorem winds_sendOp (hc : w.userClosed = true) (op : Op) (ha : op.isAuth = false) (hp : op ≠ .ping) :
    w.Winds 2 (w.sendOp op).world := by
  unfold sendOp
  split
  · have henqueue : w.Winds 2 (w.enqueueOp op) := winds_enqueueOp hc op ha hp
    exact henqueue.trans (winds_pump henqueue.closed)
  · exact .refl hc 2

theorem winds_flushTopics (hc : w.userClosed = true) : w.Winds 2 w.flushTopics.world := by
  unfold flushTopics
  split
  · exact .refl hc 2
  · split
    · exact .refl hc 2
    · have hbooks : w.Winds 0 w.flushBooks := .of_eq hc rfl (by exact Nat.le_refl _) rfl
      exact hbooks.trans (winds_sendOp hbooks.closed w.subscribeOp rfl nofun)

theorem winds_sendUnsubscribe (hc : w.userClosed = true) (topic : Topic) :
    w.Winds 2 (w.sendUnsubscribe topic).world := by
  unfold sendUnsubscribe
  split
  · exact .refl hc 2
  · exact winds_sendOp hc (.unsubscribe [topic]) rfl nofun

theorem winds_handleAck (hc : w.userClosed = true) (gen : ℕ) (now : Clock) (ack : Ack) :
    w.Winds 2 (w.handleAck gen now ack).world := by
  unfold handleAck
  split
  · exact .of_eq hc rfl (by exact Nat.le_add_right _ _) rfl
  · split
    · split
      · have hset : w.Winds 0 (w.setAuthenticated gen) :=
          ⟨hc, by exact Nat.le_refl _, [.authAck gen true], rfl, by simp [Event.AfterClose]⟩
        exact hset.trans (winds_flushTopics hset.closed)
      · have hlog : w.Winds 0 (w.log (.authAck gen false)) := .log hc _ trivial
        rw [handleError_of_closed gen hlog.closed]
        exact hlog.le (by omega)
    · split
      · have hbooks : w.Winds 0 { w with books := w.books.ackSubscribe ack.success ack.reqId } :=
          .of_eq hc rfl (by exact Nat.le_refl _) rfl
        unfold noteAnswer
        split
        · exact hbooks.le (by omega)
        · exact (hbooks.trans (.log hbooks.closed (.answered gen _ ack.success) trivial)).le (by omega)
      · exact .refl hc 2

theorem winds_readAgain (hc : w.userClosed = true) (gen : ℕ) : w.Winds 1 (w.readAgain gen) := by
  unfold readAgain
  split
  · exact .refl hc 1
  · split
    · have hreset : w.Winds 0 { w with reconnectDelayS := 1 } := .of_eq hc rfl (by exact Nat.le_refl _) rfl
      exact hreset.trans (.start hreset.closed .read)
    · exact .start hc .read

/-- A frame is answered with a frame at most, and the next one is read. -/
theorem winds_onRead (hc : w.userClosed = true) (gen : ℕ) (json : Option Json) (now : Clock) :
    w.Winds 3 (w.onRead gen false json now) := by
  unfold onRead
  rw [if_neg (by decide)]
  split
  · rw [handleError_of_closed gen hc]
    exact .refl hc 3
  · split
    · cases hack : readAck ‹Json› with
      | error e =>
        rw [handleApiControlMsg_error hack, afterControlMsg, if_pos rfl, handleError_of_closed gen hc]
        exact .refl hc 3
      | ok ack =>
        have hwinds : w.Winds 2 (w.handleAck gen now ack).world := winds_handleAck hc gen now ack
        rw [handleApiControlMsg_ok hack, afterControlMsg]
        split
        · rw [handleError_of_closed gen hwinds.closed]
          exact hwinds.le (by omega)
        · exact hwinds.trans (winds_readAgain hwinds.closed gen)
    · exact (winds_readAgain hc gen).le (by omega)

theorem winds_completion (hc : w.userClosed = true) {p : Pending} {r : Result} (hf : r.fits p = true) (now : Clock) :
    ∃ n, n + 1 ≤ p.kind.work + r.brings ∧ w.Winds n (completion p.kind p.gen r now w) := by
  obtain ⟨kind, gen, cancelled⟩ := p
  by_cases hg : gen = w.generation
  · subst hg
    have herr : w.handleError w.generation = w := handleError_of_closed _ hc
    unfold completion
    cases kind with
    | resolve =>
      refine ⟨3, by simp [Kind.work], ?_⟩
      simp only [ne_eq, not_true_eq_false, if_false, onResolve, herr]
      split
      · exact .refl hc 3
      · exact .start hc .connect
    | connect =>
      refine ⟨2, by simp [Kind.work], ?_⟩
      simp only [ne_eq, not_true_eq_false, if_false, onConnect, herr]
      split
      · exact .refl hc 2
      · split
        · exact .refl hc 2
        · exact .start hc .sslHandshake
    | sslHandshake =>
      refine ⟨1, by simp [Kind.work], ?_⟩
      simp only [ne_eq, not_true_eq_false, if_false, onSSLHandshake, herr]
      split
      · exact .refl hc 1
      · have hset : w.Winds 0 w.setControlCallback := .of_eq hc rfl (by exact Nat.le_refl _) rfl
        exact hset.trans (.start hset.closed .handshake)
    | handshake =>
      refine ⟨0, by simp [Kind.work], ?_⟩
      simp only [ne_eq, not_true_eq_false, if_false, onHandshake, herr, hc, if_true]
      split
      · exact .refl hc 0
      · exact .of_eq hc hc.symm (by exact Nat.le_refl _) rfl
    | read =>
      simp only [ne_eq, not_true_eq_false, if_false]
      cases r with
      | failed =>
        refine ⟨0, by simp [Kind.work], ?_⟩
        simp only [onRead, Result.ec, if_true, herr]
        exact .refl hc 0
      | frame json => exact ⟨3, by simp [Kind.work, Result.brings], winds_onRead hc w.generation json now⟩
      | done | sniRefused => simp [Result.fits] at hf
    | write =>
      refine ⟨0, by simp [Kind.work], ?_⟩
      have hdone : w.Winds 0 w.writeDone := .of_eq hc rfl (by exact Nat.le_refl _) rfl
      simp only [ne_eq, not_true_eq_false, if_false, onWrite, handleError_of_closed _ hdone.closed]
      split
      · exact hdone
      · exact hdone.trans (winds_pump hdone.closed)
    | pingTimer =>
      refine ⟨0, by simp [Kind.work], ?_⟩
      simp only [onPingTimer, hc, if_true, ite_self]
      exact .refl hc 0
    | reconnectTimer =>
      refine ⟨0, by simp [Kind.work], ?_⟩
      simp only [ne_eq, not_true_eq_false, if_false, onReconnectTimer, hc, Bool.or_true, if_true]
      exact .of_eq hc rfl (by exact Nat.le_refl _) rfl
    | close => exact ⟨0, by simp [Kind.work], .refl hc 0⟩
  · dsimp only at hg ⊢
    rw [completion_stale hg]
    refine ⟨0, ?_, .refl hc 0⟩
    have hpos : 1 ≤ kind.work := by cases kind <;> decide
    omega

theorem winds_task (hc : w.userClosed = true) (t : Task) :
    ∃ n, n + 1 ≤ t.work ∧ w.Winds n (w.runTask t).world := by
  cases t with
  | startConnect => exact ⟨0, by decide, by simpa [runTask, startConnect, hc] using Winds.refl hc 0⟩
  | flushTopics => exact ⟨2, by decide, winds_flushTopics hc⟩
  | sendUnsubscribe topic => exact ⟨2, by exact Nat.le_refl 3, winds_sendUnsubscribe hc topic⟩
  | closeByUser => exact ⟨0, by decide, by simpa [runTask, closeByUser, hc] using Winds.refl hc 0⟩

end Handlers

/-! ## Runs -/

section Runs

variable {w w' : World} {a : Action} {apiKey apiSecret : String} {l : List Action}

/-- What is outstanding after a step, and the handler that ran, were outstanding or are brought. -/
theorem winds_step (hc : w.userClosed = true) (hs : step w a = some w') :
    w'.work + a.ran ≤ w.work + a.brings ∧ ∃ since, w'.trace = since ++ w.trace ∧ ∀ e ∈ since, e.AfterClose := by
  cases a with
  | run f =>
    obtain ⟨-, -, rfl⟩ := step_run hs
    have hlog : Winds 0 w ({ w with ran := true }.addTopic f) :=
      ⟨hc, by exact Nat.le_refl _, [.requested f], rfl, by simp [Event.AfterClose]⟩
    refine ⟨?_, hlog.quiet⟩
    have hwork := hlog.work
    unfold World.run
    simp only [work_post, Task.work, Action.ran, Action.brings]
    omega
  | subscribe topic =>
    obtain rfl := Option.some.inj hs
    have hlog : Winds 0 w (w.addTopic topic) :=
      ⟨hc, by exact Nat.le_refl _, [.requested topic], rfl, by simp [Event.AfterClose]⟩
    refine ⟨?_, hlog.quiet⟩
    have hwork := hlog.work
    unfold World.subscribe
    simp only [work_post, Task.work, Action.ran, Action.brings]
    omega
  | unsubscribe topic =>
    obtain rfl := Option.some.inj hs
    have hlog : Winds 0 w (w.removeTopic topic) :=
      ⟨hc, by exact Nat.le_refl _, [.removed topic], rfl, by simp [Event.AfterClose]⟩
    have hwork := hlog.work
    unfold World.unsubscribe
    split
    · refine ⟨?_, hlog.quiet⟩
      simp only [work_post, Task.work, Action.ran, Action.brings]
      omega
    · refine ⟨?_, hlog.quiet⟩
      simp only [Action.ran, Action.brings]
      omega
  | close =>
    obtain rfl := Option.some.inj hs
    refine ⟨?_, [], rfl, nofun⟩
    simp only [work_post, Task.work, Action.ran, Action.brings]
    omega
  | task t =>
    obtain ⟨ht, rfl⟩ := step_task hs
    obtain ⟨n, hn, hwinds⟩ := winds_task (w := w.begin t) hc t
    have hwork := hwinds.work
    have hbegin := work_begin ht
    refine ⟨?_, hwinds.quiet⟩
    simp only [Action.ran, Action.brings]
    omega
  | complete p r now =>
    obtain ⟨hp, hf, rfl⟩ := step_complete hs
    obtain ⟨n, hn, hwinds⟩ := winds_completion (w := w.taken p) hc hf now
    have hwork := hwinds.work
    have htaken := work_taken hp
    refine ⟨?_, hwinds.quiet⟩
    simp only [Action.ran, Action.brings]
    omega
  | control gen isPong now =>
    obtain ⟨-, rfl⟩ := step_control hs
    unfold controlCallback
    split <;> exact ⟨Nat.le_refl _, [], rfl, nofun⟩
  | streamCloses =>
    obtain rfl := Option.some.inj hs
    exact ⟨Nat.le_refl _, [], rfl, nofun⟩

/-- Where something is outstanding, a handler can run without a frame from the peer. -/
theorem runs_on (w : World) : (w.tasks = [] ∧ w.pending = []) ∨
    ∃ a w', a.ran = 1 ∧ a.brings = 0 ∧ step w a = some w' := by
  cases htasks : w.tasks with
  | cons t rest => exact Or.inr ⟨.task t, _, rfl, rfl, if_pos (by simp [htasks])⟩
  | nil =>
    cases hpending : w.pending with
    | nil => exact Or.inl ⟨rfl, rfl⟩
    | cons p rest =>
      refine Or.inr ?_
      have hp : p ∈ w.pending := by simp [hpending]
      by_cases hread : p.kind = .read
      · exact ⟨.complete p .failed ⟨0, 0⟩, _, rfl, rfl, if_pos ⟨hp, by simp [Result.fits, hread, Kind.isTimer]⟩⟩
      · exact ⟨.complete p .done ⟨0, 0⟩, _, rfl, rfl, if_pos ⟨hp, by simp [Result.fits, hread]⟩⟩

/-- **A closed session winds down.** Along every continuation after `closeByUser`, with any calls, frames, errors and
timers, no connection is begun, no reconnect armed, and no login or ping enqueued; the handlers that run are at most
what was outstanding and three for each call and each frame. So without calls and frames they run out, and nothing
but an empty strand stops them. -/
theorem closed_winds_down (hc : w.userClosed = true) (h : (session apiKey apiSecret).Path w l w') :
    w'.userClosed = true ∧ w'.generation = w.generation ∧
      (∃ since, w'.trace = since ++ w.trace ∧ ∀ e ∈ since, e.AfterClose) ∧
      (l.map Action.ran).sum + w'.work ≤ w.work + (l.map Action.brings).sum ∧
      ((w'.tasks = [] ∧ w'.pending = []) ∨ ∃ a w'', a.ran = 1 ∧ a.brings = 0 ∧ step w' a = some w'') := by
  obtain ⟨hclosed, hgeneration, hquiet⟩ := h.invariant (I := fun v => v.userClosed = true ∧
      v.generation = w.generation ∧ ∃ since, v.trace = since ++ w.trace ∧ ∀ e ∈ since, e.AfterClose)
    (fun v a v' hs hI => by
      obtain ⟨hv, hgen, since, htrace, hsince⟩ := hI
      obtain ⟨hv', hgen', -⟩ := near_of_closed hs hv
      obtain ⟨-, since', htrace', hsince'⟩ := winds_step hv hs
      refine ⟨hv', hgen'.trans hgen, since' ++ since, by rw [htrace', htrace, List.append_assoc], fun e he => ?_⟩
      rcases List.mem_append.1 he with he | he
      · exact hsince' e he
      · exact hsince e he)
    ⟨hc, rfl, [], rfl, nofun⟩
  have hwork : (l.map Action.ran).sum + w'.work ≤ w.work + (l.map Action.brings).sum :=
    h.amortised (I := fun v => v.userClosed = true)
      (fun v a v' hs hv => ⟨(near_of_closed hs hv).1, (winds_step hv hs).1⟩) hc
  exact ⟨hclosed, hgeneration, hquiet, hwork, runs_on w'⟩

/-- A connection that is up, with a subscribe op being written, is closed; the write completes and the read fails. -/
theorem closed_winds_down_connected : ∃ w w' l, (session "" "").Reach System.Free w ∧
    (w.connected = true ∧ w.userClosed = true ∧ w.work = 3) ∧ (session "" "").Path w l w' ∧
    (l.map Action.ran).sum + w'.work ≤ w.work + (l.map Action.brings).sum ∧ w'.tasks = [] ∧ w'.pending = [] := by
  have hrun : (((session "" "").exec System.Free (session "" "").init
      (connectRun "tickers.BTCUSDT" ++ [.close, .task .closeByUser])).any fun w =>
      decide (w.connected = true ∧ w.userClosed = true ∧ w.work = 3) &&
        (((session "" "").exec System.Free w [.complete ⟨.write, 1, false⟩ .done ⟨5, 5⟩,
          .complete ⟨.read, 1, false⟩ .failed ⟨6, 6⟩, .complete ⟨.pingTimer, 1, true⟩ .failed ⟨7, 7⟩]).any fun w' =>
            decide (w'.tasks = [] ∧ w'.pending = []))) = true := by decide +kernel
  obtain ⟨w, hw, hafter⟩ := (Option.any_eq_true _ _).mp hrun
  obtain ⟨hclosed, hafter⟩ := (Bool.and_eq_true _ _).mp hafter
  obtain ⟨w', hw', hdone⟩ := (Option.any_eq_true _ _).mp hafter
  have hclosed' := of_decide_eq_true hclosed
  have hpath := System.Path.of_exec hw'
  obtain ⟨-, -, -, hwork, -⟩ := closed_winds_down hclosed'.2.1 hpath
  exact ⟨w, w', _, System.Reach.of_exec hw, hclosed', hpath, hwork, of_decide_eq_true hdone⟩

end Runs

end World

end BybitApi.Session
