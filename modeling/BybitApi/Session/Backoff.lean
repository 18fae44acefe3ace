import BybitApi.Session.Gate
import BybitApi.Session.Marks

/-!
# The reconnect backoff

The delay before a reconnect doubles with every teardown, up to `reconnectDelayMaxInS`, and starts
over once the endpoint has proven to work: with credentials, when the session is authenticated;
without, at any frame of a connection that is up. An observer counts the teardowns since then
(`counted`), and the delay is what the count says.

Each connection is torn down once, however many of its operations fail.

A success auth ack starts the delay over wherever it is processed, also after the teardown of its
connection. A session without credentials that is sent one does not wait as it should.
-/

namespace BybitApi.Session

open Lib

def Event.isTeardown : Event → Bool
  | teardown _ _ => true
  | _ => false

/-- A reconnect armed by the generation `gen`. -/
def Event.isTeardownOf (gen : ℕ) : Event → Bool
  | teardown g _ => decide (g = gen)
  | _ => false

def teardowns (trace : List Event) : List Event := trace.filter Event.isTeardown

namespace World

/-! ## Counting -/

/-- A frame of the current connection is parsed. -/
def readsFrame (w : World) : Action → Bool
  | .complete ⟨.read, gen, _⟩ (.frame (some _)) _ => decide (gen = w.generation)
  | _ => false

/-- A step that proves the endpoint to work: with credentials, a success auth ack, or a frame after
which the session is authenticated; without, a frame after which the session is connected, or a success
auth ack on a connection that is up. -/
def provesEndpoint (w : World) (a : Action) (w' : World) : Bool :=
  if w.authRequired then decide (w.cause a = some (.authAck true)) || (w.readsFrame a && w'.authenticated)
  else w.readsFrame a && (w'.connected || (w.connected && decide (w.cause a = some (.authAck true))))

/-- The failures that count at a teardown in the step: where the step proves the endpoint, it does so
first. -/
def failuresBefore (failures : ℕ) (w : World) (a : Action) (w' : World) : ℕ :=
  if w.provesEndpoint a w' then 0 else failures

/-- The teardowns since the endpoint was last proven to work. -/
def countFailures (failures : ℕ) (w : World) (a : Action) (w' : World) : ℕ :=
  failuresBefore failures w a w' + (teardowns (news w.trace w'.trace)).length

end World

/-- The session, with its failures counted. -/
def counted (apiKey apiSecret : String) : System (World × ℕ) Action :=
  (session apiKey apiSecret).observe 0 World.countFailures

namespace World

/-! ## What a step does to the delay -/

/-- The delay stays, and nothing is torn down. -/
structure Quiet (w w' : World) : Prop where
  delay : w'.reconnectDelayS = w.reconnectDelayS
  authed : w'.authenticated = true → w.authenticated = true
  teardowns : teardowns w'.trace = teardowns w.trace

/-- The connection is torn down. -/
structure Torn (w w' : World) : Prop where
  delay : w'.reconnectDelayS = min (w.reconnectDelayS * 2) reconnectDelayMaxInS
  authed : w'.authenticated = false
  teardowns : teardowns w'.trace = .teardown w.generation w.reconnectDelayS :: teardowns w.trace

/-- What a step does. Before the session is closed, a step that proves the endpoint and leaves the delay
as it was finds the session authenticated; afterwards nothing is torn down. -/
inductive Outcome (w : World) (a : Action) (w' : World) : Prop
  | quiet (h : w.Quiet w') (hp : w.userClosed = false → w.provesEndpoint a w' = true →
      w.authRequired = true ∧ w.authenticated = true)
  | torn (hc : w.userClosed = false) (h : w.Torn w') (hp : w.provesEndpoint a w' = false)
  | reset (hd : w'.reconnectDelayS = 1) (ht : teardowns w'.trace = teardowns w.trace)
    (hp : w.provesEndpoint a w' = true)
  /-- The flush after a success auth ack threw. -/
  | resetTorn (hc : w.userClosed = false) (hd : w'.reconnectDelayS = 2) (ha : w'.authenticated = false)
    (ht : teardowns w'.trace = .teardown w.generation 1 :: teardowns w.trace) (hp : w.provesEndpoint a w' = true)

/-- What the backoff looks at. -/
structure Pace where
  delay : ℕ
  authenticated : Bool
  teardowns : List Event

def pace (w : World) : Pace := ⟨w.reconnectDelayS, w.authenticated, teardowns w.trace⟩

theorem Quiet.of_pace {w w' : World} (h : w'.pace = w.pace) : w.Quiet w' where
  delay := congrArg Pace.delay h
  authed := fun ha => (congrArg Pace.authenticated h).symm.trans ha
  teardowns := congrArg Pace.teardowns h

section Pace

variable {w : World}

theorem pace_log {e : Event} (he : e.isTeardown = false) (w : World) : (w.log e).pace = w.pace := by
  simp [pace, log, teardowns, he]

theorem pace_enqueueOp (op : Op) (w : World) : (w.enqueueOp op).pace = w.pace := pace_log rfl _

theorem pace_pump (w : World) : w.pump.pace = w.pace := by
  unfold pump
  split
  · split
    · rfl
    · exact pace_log rfl _
  · rfl

theorem pace_sendOp (op : Op) (w : World) : (w.sendOp op).world.pace = w.pace := by
  unfold sendOp
  split
  · exact (pace_pump _).trans (pace_enqueueOp op w)
  · rfl

theorem pace_flushTopics (w : World) : w.flushTopics.world.pace = w.pace := by
  unfold flushTopics
  split
  · rfl
  · split
    · rfl
    · rw [pace_sendOp]
      rfl

theorem pace_sendUnsubscribe (topic : Topic) (w : World) : (w.sendUnsubscribe topic).world.pace = w.pace := by
  unfold sendUnsubscribe
  split
  · rfl
  · rw [pace_sendOp]

theorem pace_goUp (now : Clock) (w : World) : (w.goUp now).world.pace = w.pace := by
  unfold goUp
  split
  · unfold sendAuth
    rw [pace_pump]
    exact pace_enqueueOp _ _
  · rw [pace_flushTopics]
    rfl

theorem pace_closeByUser (w : World) : w.closeByUser.pace = w.pace := by
  unfold closeByUser
  split
  · rfl
  · unfold closeStream
    split
    · rfl
    · split <;> rfl

theorem quiet_startConnect {v : World} (hv : v.pace = w.pace) : w.Quiet v.startConnect := by
  unfold startConnect
  split
  · exact .of_pace hv
  · exact ⟨congrArg Pace.delay hv, fun ha => (by cases ha), congrArg Pace.teardowns hv⟩

theorem torn_teardown (w : World) : w.Torn w.teardown := ⟨rfl, rfl, rfl⟩

end Pace

/-! ## The outcome of a step -/

section Outcome

variable {w v w' : World} {a : Action}

/-- An auth ack comes in a frame of the current connection. -/
theorem readsFrame_of_authAck {success : Bool} (h : w.cause a = some (.authAck success)) :
    w.readsFrame a = true := by
  obtain ⟨ack, hack, -⟩ := ackOf_of_cause h (Or.inr ⟨success, rfl⟩)
  obtain ⟨cancelled, json, now, rfl, -, -⟩ := ackOf_eq_some hack
  exact decide_eq_true rfl

theorem cause_of_no_frame (hr : w.readsFrame a = false) : w.cause a ≠ some (.authAck true) := fun h => by
  rw [readsFrame_of_authAck h] at hr
  cases hr

/-- The completion of a read, of the current generation, brings a frame; no other completion does. -/
theorem readsFrame_other {p : Pending} {r : Result} {now : Clock}
    (h : p.kind ≠ .read ∨ p.gen ≠ w.generation) : w.readsFrame (.complete p r now) = false := by
  unfold readsFrame
  split
  · next heq =>
    cases heq
    exact decide_eq_false (h.resolve_left (not_not_intro rfl))
  · rfl

/-- Steps that read no frame of the current connection prove nothing. -/
theorem Outcome.of_no_frame (hr : w.readsFrame a = false) (h : w.Quiet w') : w.Outcome a w' := by
  refine .quiet h fun _ hp => ?_
  have hcause := cause_of_no_frame hr
  unfold provesEndpoint at hp
  split at hp <;> simp [hr, hcause] at hp

/-- `handleError`: the connection is torn down, or was before, or the session is closed. -/
theorem Outcome.of_handleError (hv : v.pace = w.pace) (hg : v.generation = w.generation)
    (hs : v.reconnectScheduled = w.reconnectScheduled) (hc : v.userClosed = w.userClosed)
    (hdown : w.userClosed = false → w.reconnectScheduled = true → v.connected = false)
    (hcause : w.cause a ≠ some (.authAck true)) : w.Outcome a (v.handleError w.generation) := by
  by_cases hclosed : w.userClosed = true
  · rw [handleError_of_closed _ (hc.trans hclosed)]
    refine .quiet (.of_pace hv) fun hno => ?_
    rw [hclosed] at hno
    cases hno
  have hclosed' : w.userClosed = false := (Bool.not_eq_true _).mp hclosed
  by_cases hsched : w.reconnectScheduled = true
  · rw [handleError_of_scheduled _ (hs.trans hsched)]
    refine .quiet (.of_pace hv) fun _ hp => ?_
    unfold provesEndpoint at hp
    split at hp
    · next hr =>
      simp only [hcause, decide_false, Bool.false_or, Bool.and_eq_true] at hp
      exact ⟨hr, (congrArg Pace.authenticated hv).symm.trans hp.2⟩
    · simp [hcause, hdown hclosed' hsched] at hp
  · have htear : v.handleError w.generation = v.teardown := by
      rw [← hg]
      exact handleError_current (hs.trans ((Bool.not_eq_true _).mp hsched)) (hc.trans hclosed')
    have hd : v.reconnectDelayS = w.reconnectDelayS := congrArg Pace.delay hv
    have ht : teardowns v.trace = teardowns w.trace := congrArg Pace.teardowns hv
    obtain ⟨h₁, h₂, h₃⟩ := torn_teardown v
    rw [htear]
    refine .torn hclosed' ⟨by rw [h₁, hd], h₂, by rw [h₃, hg, hd, ht]⟩ ?_
    have hcon : v.teardown.connected = false := rfl
    unfold provesEndpoint
    split <;> simp [hcause, h₂, hcon]

/-- The end of a read: the delay starts over where the connection is up and, with credentials,
authenticated. -/
theorem Outcome.of_readAgain (hv : v.pace = w.pace) (hg : v.generation = w.generation)
    (hs : w.userClosed = false → v.reconnectScheduled = !v.connected) (hreq : v.authRequired = w.authRequired)
    (hr : w.readsFrame a = true) (hcause : w.cause a ≠ some (.authAck true)) :
    w.Outcome a (v.readAgain w.generation) := by
  unfold readAgain
  split
  · next hstop =>
    refine .quiet (.of_pace hv) fun hc hp => ?_
    have hcon : v.connected = false := by
      simpa [hg, hs hc] using hstop
    unfold provesEndpoint at hp
    split at hp
    · next hreq' =>
      simp only [hcause, decide_false, Bool.false_or, Bool.and_eq_true] at hp
      exact ⟨hreq', (congrArg Pace.authenticated hv).symm.trans hp.2⟩
    · simp [hcause, hcon] at hp
  · next hgo =>
    simp only [Bool.or_eq_true, Bool.not_eq_true', not_or, Bool.not_eq_false] at hgo
    split
    · next hop =>
      refine .reset rfl (congrArg Pace.teardowns hv) ?_
      unfold provesEndpoint
      split
      · next hreq' =>
        have ha : v.authenticated = true := by
          simpa [hreq, hreq'] using hop
        simp only [hr, Bool.true_and, Bool.or_eq_true]
        exact Or.inr ha
      · have hup : ({ v with reconnectDelayS := 1 }.start .read).connected = true := hgo.2
        rw [hr, hup]
        rfl
    · next hop =>
      refine .quiet (.of_pace hv) fun _ hp => ?_
      simp only [Bool.or_eq_true, Bool.not_eq_true', not_or, Bool.not_eq_false, Bool.not_eq_true] at hop
      rw [provesEndpoint, if_pos (hreq ▸ hop.1)] at hp
      have hno : (v.start .read).authenticated = false := hop.2
      simp [hcause, hno] at hp

/-- A success auth ack proves the endpoint. -/
theorem provesEndpoint_of_authAck (hcause : w.cause a = some (.authAck true))
    (hlive : w.authRequired = false → w.connected = true) : w.provesEndpoint a w' = true := by
  unfold provesEndpoint
  split
  · simp [hcause]
  · next hreq => simp [readsFrame_of_authAck hcause, hcause, hlive ((Bool.not_eq_true _).mp hreq)]

/-- A success auth ack starts the delay over; where the flush after it throws, the connection is torn
down then. -/
theorem Outcome.of_authAccepted (hv : v.pace = w.pace) (hg : v.generation = w.generation)
    (hs : w.userClosed = false → v.reconnectScheduled = !v.connected) (hc : v.userClosed = w.userClosed)
    (hcause : w.cause a = some (.authAck true)) (hlate : w.authRequired = false → ¬ w.LateAuthAck a) :
    w.Outcome a (afterControlMsg w.generation (v.authAccepted w.generation)) := by
  have hlife := life_authAccepted w.generation v
  have hpace : (v.authAccepted w.generation).world.pace = ⟨1, true, teardowns w.trace⟩ := by
    unfold authAccepted
    rw [pace_flushTopics]
    have hset : (v.setAuthenticated w.generation).pace = ⟨1, true, teardowns v.trace⟩ := pace_log rfl _
    rw [hset, show teardowns v.trace = teardowns w.trace from congrArg Pace.teardowns hv]
  have hprove : ∀ w', w.provesEndpoint a w' = true := fun w' => provesEndpoint_of_authAck hcause fun hreq => by
    by_contra hno
    exact hlate hreq ⟨(Bool.not_eq_true _).mp hno, hcause⟩
  unfold afterControlMsg
  split
  · next hthrew =>
    by_cases hclosed : w.userClosed = true
    · rw [handleError_of_closed _ ((congrArg Life.closed hlife).trans (hc.trans hclosed))]
      exact .reset (congrArg Pace.delay hpace) (congrArg Pace.teardowns hpace) (hprove _)
    · have hclosed' : w.userClosed = false := (Bool.not_eq_true _).mp hclosed
      have hup : v.connected = true := connected_of_threw (w := v.setAuthenticated w.generation) hthrew
      have hsched : v.reconnectScheduled = false := by rw [hs hclosed', hup]; rfl
      have hgen : (v.authAccepted w.generation).world.generation = w.generation :=
        (congrArg Life.generation hlife).trans hg
      have htear : (v.authAccepted w.generation).world.handleError w.generation =
          (v.authAccepted w.generation).world.teardown := by
        have hcurrent := handleError_current (w := (v.authAccepted w.generation).world)
          ((congrArg Life.scheduled hlife).trans hsched) ((congrArg Life.closed hlife).trans (hc.trans hclosed'))
        rwa [hgen] at hcurrent
      have hd : (v.authAccepted w.generation).world.reconnectDelayS = 1 := congrArg Pace.delay hpace
      have ht : teardowns (v.authAccepted w.generation).world.trace = teardowns w.trace :=
        congrArg Pace.teardowns hpace
      obtain ⟨h₁, h₂, h₃⟩ := torn_teardown (v.authAccepted w.generation).world
      rw [htear]
      exact .resetTorn hclosed' (by rw [h₁, hd]; rfl) h₂ (by rw [h₃, hgen, hd, ht]) (hprove _)
  · have hagain : ((v.authAccepted w.generation).world.readAgain w.generation).pace =
        ⟨1, true, teardowns w.trace⟩ := by
      rw [← hpace]
      unfold readAgain
      split
      · rfl
      · split
        · have hd : (v.authAccepted w.generation).world.reconnectDelayS = 1 := congrArg Pace.delay hpace
          simp only [pace, World.start, hd]
        · rfl
    exact .reset (congrArg Pace.delay hagain) (congrArg Pace.teardowns hagain) (hprove _)

/-- The ack that a frame of the current connection brings is the cause of the step. -/
theorem cause_of_frame {cancelled : Bool} {json : Json} {now : Clock} {w : World} :
    w.cause (.complete ⟨.read, w.generation, cancelled⟩ (.frame (some json)) now) =
      if (json.isObject && isApiControlMsg json) = true then (readAck json).toOption.bind Ack.move
      else none := by
  simp only [cause, ackOf, decide_true, Bool.true_and]
  split <;> rfl

/-- `handleError`, and the end of the read. Nothing is read on after a teardown. -/
theorem Outcome.of_handleError_readAgain (hv : v.pace = w.pace) (hg : v.generation = w.generation)
    (hs : v.reconnectScheduled = w.reconnectScheduled) (hc : v.userClosed = w.userClosed)
    (hcon : v.connected = w.connected) (hdown : w.userClosed = false → w.reconnectScheduled = !w.connected)
    (hreq : v.authRequired = w.authRequired) (hr : w.readsFrame a = true)
    (hcause : w.cause a ≠ some (.authAck true)) :
    w.Outcome a ((v.handleError w.generation).readAgain w.generation) := by
  by_cases hclosed : w.userClosed = true
  · rw [handleError_of_closed _ (hc.trans hclosed)]
    refine .of_readAgain hv hg (fun hno => ?_) hreq hr hcause
    rw [hclosed] at hno
    cases hno
  have hclosed' : w.userClosed = false := (Bool.not_eq_true _).mp hclosed
  have hstop : (v.handleError w.generation).reconnectScheduled = true := by
    by_cases hsched : v.reconnectScheduled = true
    · rw [handleError_of_scheduled _ hsched]
      exact hsched
    · rw [← hg, handleError_current ((Bool.not_eq_true _).mp hsched) (hc.trans hclosed')]
      rfl
  rw [readAgain_of_scheduled _ hstop]
  refine .of_handleError hv hg hs hc (fun hno hsched => ?_) hcause
  rw [hdown hno, Bool.not_eq_true'] at hsched
  exact hcon.trans hsched

/-- An ack, and the end of the read that brought it. -/
theorem Outcome.of_ack {ack : Ack} (now : Clock) (hv : v.pace = w.pace) (hg : v.generation = w.generation)
    (hcon : v.connected = w.connected) (hs : v.reconnectScheduled = w.reconnectScheduled)
    (hdown : w.userClosed = false → w.reconnectScheduled = !w.connected)
    (hreq : v.authRequired = w.authRequired) (hc : v.userClosed = w.userClosed) (hr : w.readsFrame a = true)
    (hcause : w.cause a = ack.move) (hlate : w.authRequired = false → ¬ w.LateAuthAck a) :
    w.Outcome a (afterControlMsg w.generation (v.handleAck w.generation now ack)) := by
  have hsched : w.userClosed = false → v.reconnectScheduled = !v.connected := fun hno => by
    rw [hs, hdown hno, hcon]
  unfold Ack.move at hcause
  unfold handleAck
  split
  · next hp =>
    rw [if_pos hp] at hcause
    exact .of_readAgain (v := { v with lastPongTime := now.steady }) hv hg hsched hreq hr
      (by rw [hcause]; simp)
  · next hp =>
    rw [if_neg hp] at hcause
    split
    · next ha =>
      rw [if_pos ha] at hcause
      split
      · next hsuc =>
        rw [hsuc] at hcause
        exact .of_authAccepted hv hg hsched hc hcause hlate
      · next hsuc =>
        rw [(Bool.not_eq_true _).mp hsuc] at hcause
        exact .of_handleError_readAgain ((pace_log rfl v).trans hv) hg hs hc hcon hdown hreq hr
          (by rw [hcause]; simp)
    · next ha =>
      rw [if_neg ha] at hcause
      have hno : w.cause a ≠ some (.authAck true) := by
        rw [hcause]
        split <;> simp
      split
      · unfold noteAnswer
        split
        · exact .of_readAgain (v := { v with books := _ }) hv hg hsched hreq hr hno
        · refine .of_readAgain (v := ({ v with books := _ } : World).log _) ?_ hg hsched hreq hr hno
          exact (pace_log rfl _).trans hv
      · exact .of_readAgain hv hg hsched hreq hr hno

/-- A frame of the current connection that is parsed. -/
theorem Outcome.of_frame {cancelled : Bool} {json : Json} {now : Clock}
    (ha : a = .complete ⟨.read, w.generation, cancelled⟩ (.frame (some json)) now)
    (hv : v = w.taken ⟨.read, w.generation, cancelled⟩)
    (hs : w.userClosed = false → w.reconnectScheduled = !w.connected)
    (hlate : w.authRequired = false → ¬ w.LateAuthAck a) :
    w.Outcome a (v.onRead w.generation false (some json) now) := by
  have hr : w.readsFrame a = true := by rw [ha]; exact decide_eq_true rfl
  have hdown : w.userClosed = false → w.reconnectScheduled = true → w.connected = false := fun hc h => by
    rw [hs hc, Bool.not_eq_true'] at h
    exact h
  have hcause : w.cause a = _ := ha ▸ cause_of_frame
  have hpace : v.pace = w.pace := by rw [hv]; rfl
  by_cases hj : (json.isObject && isApiControlMsg json) = true
  swap
  · rw [if_neg hj] at hcause
    have hrun : v.onRead w.generation false (some json) now = v.readAgain w.generation := by
      simp only [onRead, hj, Bool.false_eq_true, if_false]
    rw [hrun]
    exact .of_readAgain hpace (by rw [hv]; rfl) (by rw [hv]; exact hs) (by rw [hv]; rfl) hr
      (by rw [hcause]; simp)
  rw [if_pos hj] at hcause
  cases hread : readAck json with
  | error e =>
    rw [hread] at hcause
    have hrun : v.onRead w.generation false (some json) now = v.handleError w.generation := by
      simp only [onRead, hj, if_true, Bool.false_eq_true, if_false, handleApiControlMsg_error hread]
      rfl
    rw [hrun]
    exact .of_handleError hpace (by rw [hv]; rfl) (by rw [hv]; rfl) (by rw [hv]; rfl)
      (by rw [hv]; exact hdown) (by rw [hcause]; simp [Except.toOption])
  | ok ack =>
    rw [hread] at hcause
    have hcause' : w.cause a = ack.move := hcause
    have hrun : v.onRead w.generation false (some json) now =
        afterControlMsg w.generation (v.handleAck w.generation now ack) := by
      have hgen : w.generation = v.generation := by rw [hv]; rfl
      rw [hgen]
      exact onRead_ack v now hj hread
    rw [hrun]
    exact .of_ack now hpace (by rw [hv]; rfl) (by rw [hv]; rfl) (by rw [hv]; rfl) hs (by rw [hv]; rfl)
      (by rw [hv]; rfl) hr hcause' hlate

/-- The completion of a read of the current generation. -/
theorem Outcome.of_read {cancelled : Bool} {r : Result} (now : Clock) (h : w.Loop)
    (hp : ⟨.read, w.generation, cancelled⟩ ∈ w.pending)
    (hlate : w.authRequired = false → ¬ w.LateAuthAck (.complete ⟨.read, w.generation, cancelled⟩ r now)) :
    w.Outcome (.complete ⟨.read, w.generation, cancelled⟩ r now)
      ((w.taken ⟨.read, w.generation, cancelled⟩).onRead w.generation r.ec r.json now) := by
  have hs : w.userClosed = false → w.reconnectScheduled = !w.connected := by
    intro hc
    rcases (h.begun hc hp).live_or_waiting hp rfl (Or.inl rfl) with hst | hst
    · rw [show w.reconnectScheduled = false from hst.scheduled, show w.connected = true from hst.connected]
      rfl
    · rw [show w.reconnectScheduled = true from hst.scheduled, show w.connected = false from hst.connected]
      rfl
  have herr : w.cause (.complete ⟨.read, w.generation, cancelled⟩ r now) = none →
      w.Outcome (.complete ⟨.read, w.generation, cancelled⟩ r now)
        ((w.taken ⟨.read, w.generation, cancelled⟩).handleError w.generation) := by
    intro hno
    refine .of_handleError rfl rfl rfl rfl (fun hc hsched => ?_) (by rw [hno]; simp)
    rw [hs hc, Bool.not_eq_true'] at hsched
    exact hsched
  cases r with
  | failed => exact herr rfl
  | done => exact herr rfl
  | sniRefused => exact herr rfl
  | frame json =>
    cases json with
    | none => exact herr rfl
    | some json => exact .of_frame rfl rfl hs hlate

/-- A completion of the current generation. -/
theorem Outcome.of_complete {p : Pending} {r : Result} (now : Clock) (h : w.Loop) (hp : p ∈ w.pending)
    (hg : p.gen = w.generation)
    (hlate : w.authRequired = false → ¬ w.LateAuthAck (.complete p r now)) :
    w.Outcome (.complete p r now) (completion p.kind p.gen r now (w.taken p)) := by
  obtain ⟨kind, gen, cancelled⟩ := p
  obtain rfl : gen = w.generation := hg
  have hdown : w.userClosed = false → w.reconnectScheduled = true →
      (w.taken ⟨kind, w.generation, cancelled⟩).connected = false := by
    intro hc hs
    rcases (h.begun hc hp).stage with ⟨hst, -⟩ | hst | hst
    · exact hst.connected
    · rw [show w.reconnectScheduled = false from hst.scheduled] at hs
      cases hs
    · exact hst.connected
  have hnone : kind ≠ .read →
      w.cause (.complete ⟨kind, w.generation, cancelled⟩ r now) ≠ some (.authAck true) := by
    intro hk
    exact cause_of_no_frame (readsFrame_other (Or.inl hk))
  have herr : kind ≠ .read → w.Outcome (.complete ⟨kind, w.generation, cancelled⟩ r now)
      ((w.taken ⟨kind, w.generation, cancelled⟩).handleError w.generation) := by
    intro hk
    exact .of_handleError rfl rfl rfl rfl hdown (hnone hk)
  have hsame : ∀ w₁ : World, w.Quiet w₁ → kind ≠ .read →
      w.Outcome (.complete ⟨kind, w.generation, cancelled⟩ r now) w₁ := by
    intro w₁ hq hk
    exact .of_no_frame (readsFrame_other (Or.inl hk)) hq
  have hgen : (w.taken ⟨kind, w.generation, cancelled⟩).generation = w.generation := rfl
  unfold completion
  cases kind <;> simp only [hgen, ne_eq, not_true_eq_false, if_false]
  case resolve =>
    unfold onResolve
    split
    · exact herr (by simp)
    · exact hsame _ (.of_pace rfl) (by simp)
  case connect =>
    unfold onConnect
    split
    · exact herr (by simp)
    · split
      · exact herr (by simp)
      · exact hsame _ (.of_pace rfl) (by simp)
  case sslHandshake =>
    unfold onSSLHandshake
    split
    · exact herr (by simp)
    · exact hsame _ (.of_pace rfl) (by simp)
  case handshake =>
    unfold onHandshake
    split
    · exact herr (by simp)
    · split
      · exact hsame _ (.of_pace rfl) (by simp)
      · split <;> exact hsame _ (.of_pace (pace_goUp now _)) (by simp)
  case read => exact .of_read now h hp hlate
  case write =>
    unfold onWrite
    split
    · exact .of_handleError (v := (w.taken ⟨.write, w.generation, cancelled⟩).writeDone) rfl rfl rfl rfl hdown
        (hnone (by simp))
    · exact hsame _ (.of_pace (pace_pump _)) (by simp)
  case pingTimer =>
    unfold onPingTimer
    split
    · exact hsame _ (.of_pace rfl) (by simp)
    · split
      · exact hsame _ (.of_pace rfl) (by simp)
      · split
        · split
          · exact herr (by simp)
          · split
            · exact herr (by simp)
            · exact hsame _ (.of_pace ((pace_pump _).trans (pace_enqueueOp _ _))) (by simp)
        · exact hsame _ (.of_pace rfl) (by simp)
  case reconnectTimer =>
    unfold onReconnectTimer
    split
    · exact hsame _ (.of_pace rfl) (by simp)
    · exact hsame _ (quiet_startConnect (v := unschedule _) rfl) (by simp)
  case close => exact hsame _ (.of_pace rfl) (by simp)

theorem Outcome.of_step (h : w.Loop) (hs : step w a = some w')
    (hlate : w.authRequired = false → ¬ w.LateAuthAck a) : w.Outcome a w' := by
  cases a with
  | run f => obtain ⟨-, -, rfl⟩ := step_run hs; exact .of_no_frame rfl (.of_pace rfl)
  | subscribe topic =>
    obtain rfl := Option.some.inj hs
    exact .of_no_frame rfl (.of_pace rfl)
  | unsubscribe topic =>
    obtain rfl := Option.some.inj hs
    refine .of_no_frame rfl (.of_pace ?_)
    unfold unsubscribe
    split <;> exact pace_log (e := .removed topic) rfl { w with books := _ }
  | close => obtain rfl := Option.some.inj hs; exact .of_no_frame rfl (.of_pace rfl)
  | task t =>
    obtain ⟨-, rfl⟩ := step_task hs
    refine .of_no_frame rfl ?_
    cases t with
    | startConnect => exact quiet_startConnect (v := w.begin .startConnect) rfl
    | flushTopics => exact .of_pace (pace_flushTopics (w.begin .flushTopics))
    | sendUnsubscribe topic => exact .of_pace (pace_sendUnsubscribe topic (w.begin (.sendUnsubscribe topic)))
    | closeByUser => exact .of_pace (pace_closeByUser (w.begin .closeByUser))
  | complete p r now =>
    obtain ⟨hp, -, rfl⟩ := step_complete hs
    by_cases hg : p.gen = w.generation
    · exact .of_complete now h hp hg hlate
    · rw [completion_stale (show p.gen ≠ (w.taken p).generation from hg)]
      exact .of_no_frame (readsFrame_other (Or.inr hg)) (.of_pace rfl)
  | control gen isPong now =>
    obtain ⟨-, rfl⟩ := step_control hs
    refine .of_no_frame rfl (.of_pace ?_)
    unfold controlCallback
    split <;> rfl
  | streamCloses => obtain rfl := Option.some.inj hs; exact .of_no_frame rfl (.of_pace rfl)

end Outcome

/-! ## The delay is what the count says -/

/-- The teardowns a step adds. -/
theorem teardowns_news {new before after : List Event} (ts : List Event) (h : after = new ++ before)
    (ht : teardowns after = ts ++ teardowns before) : teardowns (news before after) = ts := by
  rw [h, news_append]
  rw [h, teardowns, List.filter_append] at ht
  exact List.append_cancel_right ht

/-- Before the session is closed: the delay is what the count says, and an authenticated session
counts nothing. -/
structure Paced (w : World) (failures : ℕ) : Prop where
  delay : w.reconnectDelayS = min (2 ^ failures) reconnectDelayMaxInS
  authed : w.authRequired = true → w.authenticated = true → failures = 0

/-- Twice the delay, up to the bound. -/
theorem double_delay (n : ℕ) :
    min (min (2 ^ n) reconnectDelayMaxInS * 2) reconnectDelayMaxInS =
      min (2 ^ (n + 1)) reconnectDelayMaxInS := by
  rw [Nat.pow_succ]
  omega

theorem authRequired_step {w w' : World} {a : Action} (h : w.Loop) (hs : step w a = some w') :
    w'.authRequired = w.authRequired := by
  have hpath : Path false System.Free w.line w'.line := refines (fun _ _ _ => trivial) h hs fun _ _ => trivial
  have hsec : ∀ l, Path false System.Free w.line l → l.secured = w.line.secured := by
    intro l hl
    induction hl with
    | refl => rfl
    | tail _ hn ih =>
      obtain ⟨m, -, hm⟩ := hn
      obtain ⟨-, rfl⟩ := Line.step_eq_some hm
      rw [Line.secured_after, ih]
  exact hsec _ hpath

/-- What an outcome does to the count. -/
theorem Paced.step {w w' : World} {a : Action} {failures : ℕ} (h : w.Paced failures)
    (hc : w.userClosed = false) (hl : w.Loop) (hs : step w a = some w') (ho : w.Outcome a w') :
    w'.Paced (countFailures failures w a w') := by
  obtain ⟨new, htr⟩ := trace_step hl hs
  have hreq := authRequired_step hl hs
  unfold countFailures failuresBefore
  cases ho with
  | quiet hq hp =>
    rw [teardowns_news [] htr hq.teardowns]
    by_cases hprove : w.provesEndpoint a w' = true
    · obtain ⟨hr, ha⟩ := hp hc hprove
      have hzero := h.authed hr ha
      rw [if_pos hprove]
      exact ⟨by rw [hq.delay, h.delay, hzero]; rfl, fun _ _ => rfl⟩
    · rw [if_neg hprove]
      exact ⟨hq.delay.trans h.delay, fun hr ha => h.authed (hreq ▸ hr) (hq.authed ha)⟩
  | torn _ ht hp =>
    rw [teardowns_news [_] htr ht.teardowns, if_neg (by simp [hp])]
    refine ⟨by rw [ht.delay, h.delay]; exact double_delay failures, fun _ ha => ?_⟩
    rw [ht.authed] at ha
    cases ha
  | reset hd ht hp =>
    rw [teardowns_news [] htr ht, if_pos hp]
    exact ⟨by rw [hd]; rfl, fun _ _ => rfl⟩
  | resetTorn _ hd ha ht hp =>
    rw [teardowns_news [_] htr ht, if_pos hp]
    refine ⟨by rw [hd]; rfl, fun _ ha' => ?_⟩
    rw [ha] at ha'
    cases ha'

/-- A session without credentials is sent no success auth ack while it is not connected. -/
def AuthAcksInTime (s : World × ℕ) (a : Action) : Prop := s.1.authRequired = false → ¬ s.1.LateAuthAck a

instance (s : World × ℕ) (a : Action) : Decidable (AuthAcksInTime s a) := by
  unfold AuthAcksInTime; infer_instance

theorem session_of_counted {apiKey apiSecret : String} {C : World × ℕ → Action → Prop} {s : World × ℕ}
    (h : (counted apiKey apiSecret).Reach C s) : (session apiKey apiSecret).Reach System.Free s.1 :=
  h.unobserved

theorem paced_of_reach {apiKey apiSecret : String} {s : World × ℕ}
    (h : (counted apiKey apiSecret).Reach AuthAcksInTime s) : s.1.userClosed = false → s.1.Paced s.2 := by
  refine h.invariant (I := fun s => s.1.userClosed = false → s.1.Paced s.2) (fun _ => ⟨rfl, fun _ _ => rfl⟩)
    fun s a s' hr hC hs hI hc' => ?_
  obtain ⟨hstep, hnotes⟩ := System.observe_step.1 hs
  have hl : s.1.Loop := Loop.of_reach (session_of_counted hr)
  have hc : s.1.userClosed = false := open_of_step hstep hc'
  rw [hnotes]
  exact (hI hc).step hc hl hstep (.of_step hl hstep hC)

end World

/-! ## One reconnect for each connection -/

namespace Line

/-- A connection is torn down at most once, and not before it is opened. -/
structure TornOnce (l : Line) : Prop where
  one : ∀ g, l.trace.countP (Event.isTeardownOf g) ≤ 1
  later : ∀ g, l.conn < g → l.trace.countP (Event.isTeardownOf g) = 0
  fresh : l.phase ≠ .down → l.trace.countP (Event.isTeardownOf l.conn) = 0

section TornOnce

variable {l l' : Line}

theorem TornOnce.keep (h : l.TornOnce) (hp : l'.phase = l.phase) (hc : l'.conn = l.conn)
    (ht : l'.trace = l.trace) : l'.TornOnce :=
  ⟨by rw [ht]; exact h.one, by rw [ht, hc]; exact h.later, by rw [ht, hc, hp]; exact h.fresh⟩

theorem TornOnce.log {e : Event} (h : l.TornOnce) (he : ∀ g, e.isTeardownOf g = false) :
    (l.log e).TornOnce where
  one := fun g => by rw [Line.log, List.countP_cons_of_neg (by simp [he])]; exact h.one g
  later := fun g hg => by rw [Line.log, List.countP_cons_of_neg (by simp [he])]; exact h.later g hg
  fresh := fun hp => by rw [Line.log, List.countP_cons_of_neg (by simp [he])]; exact h.fresh hp

/-- The teardown of a connection that is open or opening: there was none before. -/
theorem TornOnce.teardown (h : l.TornOnce) (he : l.phase ≠ .down) (delayS : ℕ) :
    (l.after (.teardown delayS)).TornOnce := by
  have hzero := h.fresh he
  refine ⟨fun g => ?_, fun g hg => ?_, fun hp => absurd rfl hp⟩
  · change (Event.teardown l.conn delayS :: l.trace).countP (Event.isTeardownOf g) ≤ 1
    rw [List.countP_cons]
    by_cases hg : l.conn = g
    · subst hg
      rw [hzero]
      split <;> simp
    · rw [if_neg (by simp [Event.isTeardownOf, hg])]
      exact h.one g
  · have hg' : l.conn < g := hg
    change (Event.teardown l.conn delayS :: l.trace).countP (Event.isTeardownOf g) = 0
    rw [List.countP_cons_of_neg (by simp [Event.isTeardownOf, Nat.ne_of_lt hg'])]
    exact h.later g hg'

theorem TornOnce.after {m : Move} (h : l.TornOnce) (he : l.Enabled m) : (l.after m).TornOnce := by
  cases m with
  | request topic => exact TornOnce.log (h.keep rfl rfl rfl) fun _ => rfl
  | withdraw topic => exact TornOnce.log (h.keep rfl rfl rfl) fun _ => rfl
  | sendUnsubscribe topic =>
    rw [Line.after]
    split
    · exact TornOnce.log (h.keep rfl rfl rfl) fun _ => rfl
    · exact h.keep rfl rfl rfl
  | authAck success =>
    rw [Line.after]
    split
    · exact TornOnce.log (h.keep rfl rfl rfl) fun _ => rfl
    · exact h.log fun _ => rfl
  | subscribeAck success reqId =>
    change (noteAnswer success _).TornOnce
    unfold noteAnswer
    split
    · exact h.keep rfl rfl rfl
    · exact TornOnce.log (h.keep rfl rfl rfl) fun _ => rfl
  | start =>
    refine TornOnce.log (e := .started (l.conn + 1)) ⟨h.one, fun g hg => ?_, fun _ => ?_⟩ fun _ => rfl
    · exact h.later g (Nat.lt_of_succ_lt hg)
    · exact h.later _ (Nat.lt_succ_self _)
  | abandon => exact ⟨h.one, h.later, fun hp => absurd rfl hp⟩
  | goUp apiKey expires sign =>
    have hup : ({ l with phase := .up } : Line).TornOnce :=
      ⟨h.one, h.later, fun _ => h.fresh (by rw [show l.phase = .opening from he]; simp)⟩
    rw [Line.after]
    split
    · exact TornOnce.log (hup.keep rfl rfl rfl) fun _ => rfl
    · exact hup
  | flush => exact TornOnce.log (h.keep rfl rfl rfl) fun _ => rfl
  | flushThrows => exact h.keep rfl rfl rfl
  | ping => exact TornOnce.log (h.keep rfl rfl rfl) fun _ => rfl
  | write =>
    change l.writeHead.TornOnce
    unfold writeHead
    split
    · exact h
    · exact TornOnce.log (h.keep rfl rfl rfl) fun _ => rfl
  | teardown delayS => exact h.teardown he delayS

theorem tornOnce_of_reach {secured : Bool} {E : Line → Move → Prop} (h : (system secured).Reach E l) :
    l.TornOnce :=
  invariant_of_moves (I := TornOnce) ⟨fun _ => Nat.zero_le _, fun _ _ => rfl, fun _ => rfl⟩
    (fun _ _ _ _ he hI => hI.after he) h

end TornOnce

end Line

namespace World

/-- **Reconnect backoff.** In every run in which a session without credentials is sent no success
auth ack while it is not connected: a teardown arms a reconnect after `min (2 ^ n) 30` seconds, where
`n` counts the teardowns before it since the endpoint was last proven to work, so the k-th waits
`min (2 ^ (k - 1)) 30`; and a connection arms at most one reconnect. -/
theorem backoff_doubles (apiKey apiSecret : String) (w w' : World) (failures : ℕ) (a : Action)
    (h : (counted apiKey apiSecret).Reach AuthAcksInTime (w, failures)) (hC : AuthAcksInTime (w, failures) a)
    (hs : step w a = some w') :
    (∀ gen delayS, .teardown gen delayS ∈ news w.trace w'.trace →
      gen = w.generation ∧ delayS = min (2 ^ failuresBefore failures w a w') reconnectDelayMaxInS) ∧
    ∀ gen, w'.trace.countP (Event.isTeardownOf gen) ≤ 1 := by
  have hr := session_of_counted h
  have hl : w.Loop := Loop.of_reach hr
  obtain ⟨new, htr⟩ := trace_step hl hs
  refine ⟨fun gen delayS hmem => ?_, fun gen => ?_⟩
  · have hmem' : .teardown gen delayS ∈ teardowns (news w.trace w'.trace) := List.mem_filter.2 ⟨hmem, rfl⟩
    cases Outcome.of_step hl hs hC with
    | quiet hq hp =>
      rw [teardowns_news [] htr hq.teardowns] at hmem'
      cases hmem'
    | reset hd ht hp =>
      rw [teardowns_news [] htr ht] at hmem'
      cases hmem'
    | torn hc ht hp =>
      rw [teardowns_news [_] htr ht.teardowns, List.mem_singleton] at hmem'
      cases hmem'
      refine ⟨rfl, ?_⟩
      rw [failuresBefore, if_neg (by simp [hp])]
      exact (paced_of_reach h hc).delay
    | resetTorn hc hd ha ht hp =>
      rw [teardowns_news [_] htr ht, List.mem_singleton] at hmem'
      cases hmem'
      refine ⟨rfl, ?_⟩
      rw [failuresBefore, if_pos hp]
      rfl
  · exact (Line.tornOnce_of_reach (line_of_reach_free (hr.step trivial hs))).one gen

/-- The resolve of the second generation fails. -/
def secondFailure : Action := .complete ⟨.resolve, 2, false⟩ .failed ⟨0, 0⟩

/-- The write of the auth op fails, and so does the next attempt to connect. -/
theorem backoff_doubles_second :
    ∃ w w' : World, step w secondFailure = some w' ∧ .teardown 2 2 ∈ w'.trace ∧
      2 = min (2 ^ 1) reconnectDelayMaxInS ∧ w'.trace.countP (Event.isTeardownOf 2) ≤ 1 := by
  obtain ⟨⟨w, failures⟩, hw, hC, hcount, hstep⟩ :=
    System.Reach.exists_of_exec (S := counted "key" "secret") (C := AuthAcksInTime)
      (l := connectRun "order" ++ [.complete ⟨.write, 1, false⟩ .failed ⟨0, 0⟩,
        .complete ⟨.reconnectTimer, 1, false⟩ .done ⟨0, 0⟩])
      (P := fun s => AuthAcksInTime s secondFailure ∧ s.2 = 1 ∧
        (step s.1 secondFailure).any (fun w' => decide (.teardown 2 2 ∈ news s.1.trace w'.trace ∧
          .teardown 2 2 ∈ w'.trace ∧ failuresBefore 1 s.1 secondFailure w' = 1)) = true)
      (by decide)
  obtain ⟨w', hs, hmem⟩ := (Option.any_eq_true _ _).1 hstep
  obtain ⟨hnews, htrace, hbefore⟩ := of_decide_eq_true hmem
  obtain ⟨hdelay, honce⟩ := backoff_doubles "key" "secret" w w' failures secondFailure hw hC hs
  obtain ⟨-, hd⟩ := hdelay 2 2 hnews
  rw [show failures = 1 from hcount, hbefore] at hd
  exact ⟨w, w', hs, htrace, hd, honce 2⟩

/-- A public session is torn down, and the read that had completed brings a success auth ack: the second
teardown waits no longer than the first. -/
theorem backoff_restarted :
    ¬ ∀ w w' failures a, (counted "" "").Reach System.Free (w, failures) → step w a = some w' →
      ∀ gen delayS, .teardown gen delayS ∈ news w.trace w'.trace →
        delayS = min (2 ^ failuresBefore failures w a w') reconnectDelayMaxInS := by
  intro h
  obtain ⟨⟨w, failures⟩, hw, hcount, hstep⟩ :=
    System.Reach.exists_of_exec (S := counted "" "") (C := System.Free)
      (l := connectRun "tickers.A" ++ [.complete ⟨.write, 1, false⟩ .failed ⟨0, 0⟩,
        .complete ⟨.read, 1, false⟩ (.frame (some authSuccess)) ⟨0, 0⟩,
        .complete ⟨.reconnectTimer, 1, false⟩ .done ⟨0, 0⟩])
      (P := fun s => s.2 = 1 ∧ (step s.1 secondFailure).any (fun w' => decide
        (.teardown 2 1 ∈ news s.1.trace w'.trace ∧ failuresBefore 1 s.1 secondFailure w' = 1)) = true) (by decide)
  obtain ⟨w', hs, hmem⟩ := (Option.any_eq_true _ _).1 hstep
  obtain ⟨hnews, hbefore⟩ := of_decide_eq_true hmem
  have hd := h w w' failures secondFailure hw hs 2 1 hnews
  rw [show failures = 1 from hcount, hbefore] at hd
  exact absurd hd (by decide)

end World

end BybitApi.Session
