import BybitApi.Session.Refines

/-!
# The write pump

`Outlet` is what the write pump looks at and what it does: the queue, the flags, and how many writes
of each generation are outstanding. Every handler leaves the outlet `Drained` (`pump_drained` is the
one that has to work for it), and in between `Sound` is enough: at most one write of a generation is
outstanding, and the flag says so while the session is connected.

What was written and what is queued is, in order, what was enqueued. That is a fact of the line.
-/

namespace BybitApi.Session

open Lib

structure Outlet where
  generation : ℕ
  connected : Bool
  streamOpen : Bool
  inFlight : Bool
  queue : List Frame
  /-- The outstanding writes of a generation. -/
  writes : ℕ → ℕ

namespace Outlet

/-- The flag and the outstanding writes agree. -/
structure Sound (o : Outlet) : Prop where
  one : ∀ g, o.writes g ≤ 1
  ahead : ∀ g, o.generation < g → o.writes g = 0
  idle : o.connected = false → o.inFlight = false
  busy : o.connected = true → o.writes o.generation = if o.inFlight then 1 else 0

/-- Nothing is left in the queue that could be written now. -/
structure Drained (o : Outlet) : Prop extends Sound o where
  drained : o.connected = true → o.streamOpen = true → o.inFlight = false → o.queue = []

variable {o : Outlet}

/-- More frames in the queue. -/
theorem Sound.queued (h : o.Sound) (queue : List Frame) : ({ o with queue := queue } : Outlet).Sound :=
  ⟨h.one, h.ahead, h.idle, h.busy⟩

/-- The stream is in its open state, or is not. -/
theorem Sound.reopened (h : o.Sound) (streamOpen : Bool) :
    ({ o with streamOpen := streamOpen } : Outlet).Sound :=
  ⟨h.one, h.ahead, h.idle, h.busy⟩

theorem Sound.of_down (h : o.Sound) (hc : o.connected = false) : o.Drained :=
  ⟨h, fun hcon => by rw [hc] at hcon; cases hcon⟩

/-- The connection is taken down. -/
theorem Sound.takeDown (h : o.Sound) :
    ({ o with connected := false, inFlight := false, queue := [] } : Outlet).Drained :=
  ⟨⟨h.one, h.ahead, fun _ => rfl, fun hcon => by cases hcon⟩, fun _ _ _ => rfl⟩

/-- A new generation begins, with a stream that is not open yet. -/
theorem Sound.next (h : o.Sound) (streamOpen : Bool) :
    ({ o with
      generation := o.generation + 1, connected := false, streamOpen := streamOpen
      inFlight := false } : Outlet).Drained :=
  ⟨⟨h.one, fun g hg => h.ahead g (Nat.lt_of_succ_lt hg), fun _ => rfl, fun hcon => by cases hcon⟩,
    fun hcon => by cases hcon⟩

/-- The connection goes up. -/
theorem Sound.goUp (h : o.Sound) (hc : o.connected = false) (hw : o.writes o.generation = 0)
    (hq : o.queue = []) (streamOpen : Bool) :
    ({ o with connected := true, streamOpen := streamOpen } : Outlet).Drained :=
  ⟨⟨h.one, h.ahead, fun hcon => (by cases hcon), fun _ => (by rw [h.idle hc]; exact hw)⟩, fun _ _ _ => hq⟩

/-- A write of the current generation is started. -/
theorem Sound.write (h : o.Sound) (hc : o.connected = true) (hf : o.inFlight = false) (queue : List Frame) :
    ({ o with
      inFlight := true, queue := queue
      writes := fun g => o.writes g + if g = o.generation then 1 else 0 } : Outlet).Drained := by
  have hzero : o.writes o.generation = 0 := by rw [h.busy hc, hf]; rfl
  refine ⟨⟨fun g => ?_, fun g hg => ?_, fun hcon => ?_, fun _ => ?_⟩, fun _ _ hf' => by cases hf'⟩
  · change o.writes g + (if g = o.generation then 1 else 0) ≤ 1
    split
    · next heq => rw [heq, hzero]
    · exact h.one g
  · change o.writes g + (if g = o.generation then 1 else 0) = 0
    rw [if_neg (Nat.ne_of_gt hg), h.ahead g hg]
  · rw [show o.connected = false from hcon] at hc
    cases hc
  · change o.writes o.generation + (if o.generation = o.generation then 1 else 0) = 1
    rw [if_pos rfl, hzero]

/-- A write of the current generation completes. -/
theorem Sound.writeDone (h : o.Sound) :
    ({ o with
      inFlight := false
      writes := fun g => o.writes g - if g = o.generation then 1 else 0 } : Outlet).Sound := by
  refine ⟨fun g => ?_, fun g hg => ?_, fun _ => rfl, fun _ => ?_⟩
  · exact (Nat.sub_le _ _).trans (h.one g)
  · exact Nat.eq_zero_of_le_zero ((Nat.sub_le _ _).trans (h.ahead g hg).le)
  · have hone := h.one o.generation
    change o.writes o.generation - (if o.generation = o.generation then 1 else 0) = 0
    rw [if_pos rfl]
    omega

/-- A write of an earlier generation completes. -/
theorem Drained.writeStale (h : o.Drained) {gen : ℕ} (hg : gen ≠ o.generation) :
    ({ o with writes := fun g => o.writes g - if g = gen then 1 else 0 } : Outlet).Drained := by
  refine ⟨⟨fun g => ?_, fun g hg => ?_, h.idle, fun hcon => ?_⟩, h.drained⟩
  · exact (Nat.sub_le _ _).trans (h.one g)
  · exact Nat.eq_zero_of_le_zero ((Nat.sub_le _ _).trans (h.ahead g hg).le)
  · change o.writes o.generation - (if o.generation = gen then 1 else 0) = _
    rw [if_neg hg.symm, Nat.sub_zero]
    exact h.busy hcon

end Outlet

namespace World

/-- The outstanding writes on the stream of a generation. -/
def writes (w : World) (g : ℕ) : ℕ := w.pending.countP fun p => p.kind = .write && p.gen = g

def outlet (w : World) : Outlet where
  generation := w.generation
  connected := w.connected
  streamOpen := w.ws.any Stream.isOpen
  inFlight := w.writeInFlight
  queue := w.outboundQueue
  writes := w.writes

/-! ## The moves -/

theorem outlet_log (e : Event) (w : World) : (w.log e).outlet = w.outlet := rfl

theorem outlet_start {k : Kind} (hk : k ≠ .write) (w : World) : (w.start k).outlet = w.outlet := by
  have h : (w.start k).writes = w.writes := by
    funext g
    simp [writes, start, List.countP_append, hk]
  exact congrArg (fun n => { w.outlet with writes := n }) h

theorem outlet_start_write (w : World) :
    (w.start .write).outlet =
      { w.outlet with writes := fun g => w.writes g + if g = w.generation then 1 else 0 } := by
  have h : (w.start .write).writes = fun g => w.writes g + if g = w.generation then 1 else 0 := by
    funext g
    simp [writes, start, List.countP_append, List.countP_singleton, eq_comm]
  exact congrArg (fun n => { w.outlet with writes := n }) h

@[simp] theorem outlet_cancel (k : Kind) (w : World) : (w.cancel k).outlet = w.outlet := by
  have h : (w.cancel k).writes = w.writes := by
    funext g
    simp only [writes, cancel, List.countP_map]
    refine List.countP_congr fun p _ => ?_
    by_cases hk : p.kind = k <;> simp [hk]
  exact congrArg (fun n => { w.outlet with writes := n }) h

theorem outlet_arm {k : Kind} (hk : k ≠ .write) (w : World) : (w.arm k).outlet = w.outlet := by
  rw [arm, outlet_start hk, outlet_cancel]

theorem writes_taken {p : Pending} {w : World} (hp : p ∈ w.pending) (g : ℕ) :
    (w.taken p).writes g = w.writes g - if p.kind = .write && p.gen = g then 1 else 0 := by
  simp only [writes, taken, List.countP_erase, hp, true_and]

theorem writes_current (w : World) : w.writes w.generation = w.current fun p => p.kind = .write := by
  simp only [writes, current, Bool.and_comm]

theorem outlet_taken {p : Pending} {w : World} (hp : p ∈ w.pending) (hk : p.kind ≠ .write) :
    (w.taken p).outlet = w.outlet := by
  have h : (w.taken p).writes = w.writes := by
    funext g
    rw [writes_taken hp]
    simp [hk]
  exact congrArg (fun n => { w.outlet with writes := n }) h

theorem outlet_taken_write {p : Pending} {w : World} (hp : p ∈ w.pending) (hk : p.kind = .write) :
    (w.taken p).outlet = { w.outlet with writes := fun g => w.writes g - if g = p.gen then 1 else 0 } := by
  have h : (w.taken p).writes = fun g => w.writes g - if g = p.gen then 1 else 0 := by
    funext g
    rw [writes_taken hp]
    simp [hk, eq_comm]
  exact congrArg (fun n => { w.outlet with writes := n }) h

/-! ## The handlers -/

section Handlers

variable {w : World}

theorem sound_enqueueOp (op : Op) (h : w.outlet.Sound) : (w.enqueueOp op).outlet.Sound := h.queued _

/-- **The pump.** Whatever it finds, it leaves nothing in the queue that it could have written. -/
theorem pump_drained (h : w.outlet.Sound) : w.pump.outlet.Drained := by
  unfold pump
  split
  · next ws frame rest hws hq =>
    split
    · next hg =>
      -- one of the guards holds, so nothing may be written
      refine ⟨h, fun hc ho hf => ?_⟩
      have ho' : ws.isOpen = true := by simpa [outlet, hws] using ho
      rw [show w.writeInFlight = false from hf, show w.connected = true from hc, ho'] at hg
      cases hg
    · next hg =>
      simp only [Bool.or_eq_true, Bool.not_eq_true', not_or, Bool.not_eq_false, Bool.not_eq_true] at hg
      rw [outlet_log, outlet_start_write]
      exact h.write hg.1.2 hg.1.1 rest
  · next hno =>
    refine ⟨h, fun _ ho _ => ?_⟩
    change w.outboundQueue = []
    cases hws : w.ws with
    | none => simp [outlet, hws] at ho
    | some ws =>
      cases hq : w.outboundQueue with
      | nil => rfl
      | cons frame rest => exact absurd hq (hno ws frame rest hws)

theorem sendOp_drained (op : Op) (h : w.outlet.Drained) : (w.sendOp op).world.outlet.Drained := by
  unfold sendOp
  split
  · exact pump_drained (sound_enqueueOp op h.toSound)
  · exact h

theorem flushTopics_drained (h : w.outlet.Drained) : w.flushTopics.world.outlet.Drained := by
  unfold flushTopics
  split
  · exact h
  · split
    · exact h
    · exact sendOp_drained (w := w.flushBooks) w.subscribeOp h

theorem sendUnsubscribe_drained (topic : Topic) (h : w.outlet.Drained) :
    (w.sendUnsubscribe topic).world.outlet.Drained := by
  unfold sendUnsubscribe
  split
  · exact h
  · exact sendOp_drained _ h

theorem teardown_drained (h : w.outlet.Sound) : w.teardown.outlet.Drained := by
  unfold teardown
  rw [outlet_arm (by simp), outlet_cancel]
  exact h.takeDown

theorem handleError_drained (gen : ℕ) (h : w.outlet.Drained) : (w.handleError gen).outlet.Drained := by
  unfold handleError
  split
  · exact h
  · split
    · exact h
    · exact teardown_drained h.toSound

theorem startConnect_drained (h : w.outlet.Drained) : w.startConnect.outlet.Drained := by
  unfold startConnect
  split
  · exact h
  · rw [outlet_start (by simp)]
    exact h.toSound.next _

theorem readAgain_outlet (gen : ℕ) (w : World) : (w.readAgain gen).outlet = w.outlet := by
  unfold readAgain
  split
  · rfl
  · rw [outlet_start (by simp)]
    split <;> rfl

theorem handleAck_drained (gen : ℕ) (now : Clock) (ack : Ack) (h : w.outlet.Drained) :
    (w.handleAck gen now ack).world.outlet.Drained := by
  unfold handleAck
  split
  · exact h
  · split
    · split
      · exact flushTopics_drained (w := w.setAuthenticated gen) h
      · exact handleError_drained (w := w.log (.authAck gen false)) gen h
    · split
      · unfold noteAnswer
        split <;> exact h
      · exact h

theorem onRead_drained (gen : ℕ) (ec : Bool) (json : Option Json) (now : Clock) (h : w.outlet.Drained) :
    (w.onRead gen ec json now).outlet.Drained := by
  have herr := handleError_drained gen h
  unfold onRead
  split
  · exact herr
  · split
    · exact herr
    · next json =>
      split
      · unfold afterControlMsg
        cases hread : readAck json with
        | error e =>
          rw [handleApiControlMsg_error hread]
          exact herr
        | ok ack =>
          rw [handleApiControlMsg_ok hread]
          have hack := handleAck_drained gen now ack h
          split
          · exact handleError_drained gen hack
          · rw [readAgain_outlet]
            exact hack
      · rw [readAgain_outlet]
        exact h

theorem onPingTimer_drained (gen : ℕ) (ec : Bool) (now : Clock) (h : w.outlet.Drained) :
    (w.onPingTimer gen ec now).outlet.Drained := by
  have herr := handleError_drained gen h
  unfold onPingTimer
  split
  · exact h
  · split
    · exact h
    · split
      · split
        · exact herr
        · split
          · exact herr
          · rw [outlet_arm (by simp)]
            exact pump_drained (sound_enqueueOp _ h.toSound)
      · rw [outlet_arm (by simp)]
        exact h

/-- The end of the connect chain. No write of this generation is outstanding, and nothing is queued. -/
theorem onHandshake_drained (gen : ℕ) (ec : Bool) (now : Clock) (h : w.outlet.Drained)
    (hclosed : w.userClosed = false) (hc : w.connected = false) (hw : w.writes w.generation = 0)
    (hq : w.outboundQueue = []) : (w.onHandshake gen ec now).world.outlet.Drained := by
  have hset : (w.setConnected now).outlet.Drained := by
    unfold setConnected
    rw [outlet_arm (by simp)]
    exact h.toSound.goUp hc hw hq _
  have hup : (w.goUp now).world.outlet.Drained := by
    unfold goUp
    split
    · unfold sendAuth
      exact pump_drained (sound_enqueueOp _ hset.toSound)
    · exact flushTopics_drained hset
  unfold onHandshake
  split
  · exact handleError_drained gen h
  · rw [if_neg (by simp [hclosed])]
    split
    · exact hup
    · rw [outlet_start (by simp)]
      exact hup

/-- The completion of a write. One that fails tears the connection down, if it is up. -/
theorem onWrite_drained (ec : Bool) (h : w.writeDone.outlet.Sound) (hclosed : w.userClosed = false)
    (hs : w.connected = true → w.reconnectScheduled = false) :
    (w.onWrite w.generation ec).outlet.Drained := by
  unfold onWrite
  split
  · by_cases hc : w.connected = true
    · have htear : w.writeDone.handleError w.generation = w.writeDone.teardown :=
        handleError_current (w := w.writeDone) (hs hc) hclosed
      rw [htear]
      exact teardown_drained h
    · exact handleError_drained _ (h.of_down ((Bool.not_eq_true _).mp hc))
  · exact pump_drained h

end Handlers

/-! ## The steps -/

section Steps

variable {w : World}

theorem complete_drained {p : Pending} {r : Result} (now : Clock) (h : w.outlet.Drained) (hl : w.Loop)
    (hsh : w.line.Shape) (hc : w.userClosed = false) (hp : p ∈ w.pending) :
    (completion p.kind p.gen r now (w.taken p)).outlet.Drained := by
  have hb := hl.begun hc hp
  by_cases hg : p.gen = w.generation
  swap
  · rw [completion_stale (show p.gen ≠ (w.taken p).generation from hg)]
    by_cases hk : p.kind = .write
    · rw [outlet_taken_write hp hk]
      exact h.writeStale hg
    · rw [outlet_taken hp hk]
      exact h
  by_cases hk : p.kind = .write
  · -- the write of the current generation
    have hdone : (w.taken p).writeDone.outlet.Sound := by
      have hout : (w.taken p).writeDone.outlet = { (w.taken p).outlet with inFlight := false } := rfl
      rw [hout, outlet_taken_write hp hk, hg]
      exact h.toSound.writeDone
    have hsched : (w.taken p).connected = true → (w.taken p).reconnectScheduled = false := fun hcon => by
      rcases hb.live_or_waiting hp hg (Or.inr (Or.inr hk)) with hs | hs
      · exact hs.scheduled
      · rw [show (w.taken p).connected = false from hs.connected] at hcon
        cases hcon
    rw [hk]
    change (if p.gen ≠ (w.taken p).generation then w.taken p
      else (w.taken p).onWrite p.gen r.ec).outlet.Drained
    have hg' : p.gen = (w.taken p).generation := hg
    rw [if_neg (by simp [hg']), hg']
    exact onWrite_drained r.ec hdone hc hsched
  have ht : (w.taken p).outlet.Drained := by rw [outlet_taken hp hk]; exact h
  have herr := handleError_drained p.gen ht
  unfold completion
  split
  case h_6 hk' => exact absurd hk' hk
  case h_7 => exact onPingTimer_drained _ _ _ ht
  case h_9 => exact ht
  all_goals split
  all_goals first | exact ht | skip
  · unfold onResolve
    split
    · exact herr
    · rw [outlet_start (by simp)]; exact ht
  · unfold onConnect
    split
    · exact herr
    · split
      · exact herr
      · rw [outlet_start (by simp)]; exact ht
  · unfold onSSLHandshake
    split
    · exact herr
    · rw [outlet_start (by simp)]; exact ht
  · next hkind _ =>
    obtain ⟨hs, hw⟩ := hb.connecting hp hg (by rw [hkind]; rfl)
    have hn : w.line.phase ≠ .up := fun hu => by
      have hcon : w.connected = false := hs.connected
      rw [phase_up_iff.1 hu] at hcon
      cases hcon
    refine onHandshake_drained _ _ _ ht hc hs.connected ?_ (hsh.empty hn).1
    rw [writes_taken hp]
    exact Nat.eq_zero_of_le_zero ((Nat.sub_le _ _).trans ((writes_current w).trans hw).le)
  · exact onRead_drained _ _ _ _ ht
  · unfold onReconnectTimer
    split
    · exact ht
    · exact startConnect_drained (w := (w.taken p).unschedule) ht

theorem task_drained {t : Task} (h : w.outlet.Drained) (hc : ((w.begin t).runTask t).world.userClosed = false) :
    ((w.begin t).runTask t).world.outlet.Drained := by
  cases t with
  | startConnect => exact startConnect_drained (w := w.begin .startConnect) h
  | flushTopics => exact flushTopics_drained (w := w.begin .flushTopics) h
  | sendUnsubscribe topic => exact sendUnsubscribe_drained (w := w.begin (.sendUnsubscribe topic)) topic h
  | closeByUser =>
    change (closeByUser (w.begin .closeByUser)).userClosed = false at hc
    change (closeByUser (w.begin .closeByUser)).outlet.Drained
    unfold closeByUser at hc ⊢
    split at hc
    · next hclosed =>
      rw [if_pos hclosed]
      exact h
    · rw [closed_closeStream] at hc
      cases hc

/-- A step of a session that is not closed leaves the outlet drained. -/
theorem step_drained {a : Action} {w' : World} (h : w.outlet.Drained) (hl : w.Loop) (hsh : w.line.Shape)
    (hc : w.userClosed = false) (hs : step w a = some w') (hc' : w'.userClosed = false) :
    w'.outlet.Drained := by
  cases a with
  | run f => obtain ⟨-, -, rfl⟩ := step_run hs; exact h
  | subscribe topic => obtain rfl := Option.some.inj hs; exact h
  | unsubscribe topic =>
    obtain rfl := Option.some.inj hs
    unfold unsubscribe
    split <;> exact h
  | close => obtain rfl := Option.some.inj hs; exact h
  | task t => obtain ⟨-, rfl⟩ := step_task hs; exact task_drained h hc'
  | complete p r now =>
    obtain ⟨hp, -, rfl⟩ := step_complete hs
    exact complete_drained now h hl hsh hc hp
  | control gen isPong now =>
    obtain ⟨-, rfl⟩ := step_control hs
    unfold controlCallback
    split <;> exact h
  | streamCloses =>
    obtain rfl := Option.some.inj hs
    refine ⟨h.toSound.reopened _, fun _ ho _ => ?_⟩
    change ((w.ws.map Stream.closed).any Stream.isOpen) = true at ho
    cases hws : w.ws <;> simp [hws, Stream.closed] at ho

end Steps

/-- Before a session is closed its outlet is drained. -/
theorem drained_of_reach {apiKey apiSecret : String} {C : World → Action → Prop} {w : World}
    (h : (session apiKey apiSecret).Reach C w) : w.userClosed = false → w.outlet.Drained := by
  refine h.invariant (I := fun w => w.userClosed = false → w.outlet.Drained) (fun _ => ?_)
    fun w a w' hr _ hs hI hc' => ?_
  · exact ⟨⟨fun _ => Nat.zero_le _, fun _ _ => rfl, fun _ => rfl, fun hcon => by cases hcon⟩, fun _ _ _ => rfl⟩
  · have hc : w.userClosed = false := open_of_step hs hc'
    exact step_drained (hI hc) (Loop.of_reach hr) (Line.shape_of_reach (line_of_reach_free hr)) hc hs hc'

end World

/-! ## What was written and what is queued -/

/-- The frame that was enqueued on connection `gen`. -/
def Event.enqueuedOn (gen : ℕ) : Event → Option Frame
  | enqueued frame => if frame.conn = gen then some frame else none
  | _ => none

/-- The frame that was handed to the stream of `gen`. -/
def Event.writtenOn (gen : ℕ) : Event → Option Frame
  | written conn frame => if conn = gen then some frame else none
  | _ => none

/-- The frames enqueued on a connection, in order. -/
def framesEnqueued (gen : ℕ) (trace : List Event) : List Frame :=
  (trace.filterMap (Event.enqueuedOn gen)).reverse

/-- The frames handed to the stream of a connection, in order. -/
def framesWritten (gen : ℕ) (trace : List Event) : List Frame :=
  (trace.filterMap (Event.writtenOn gen)).reverse

section Frames

variable {gen : ℕ} {e : Event} {past : List Event}

@[simp] theorem framesEnqueued_cons :
    framesEnqueued gen (e :: past) = framesEnqueued gen past ++ (e.enqueuedOn gen).toList := by
  unfold framesEnqueued
  cases h : e.enqueuedOn gen <;> simp [h]

@[simp] theorem framesWritten_cons :
    framesWritten gen (e :: past) = framesWritten gen past ++ (e.writtenOn gen).toList := by
  unfold framesWritten
  cases h : e.writtenOn gen <;> simp [h]

/-- No frame is of a connection without traffic. -/
theorem frames_fresh (h : ∀ e ∈ past, ∀ g, e.conn? = some g → g < gen) :
    framesEnqueued gen past = [] ∧ framesWritten gen past = [] := by
  induction past with
  | nil => exact ⟨rfl, rfl⟩
  | cons e past ih =>
    obtain ⟨he, hw⟩ := ih fun e' he' => h e' (List.mem_cons_of_mem _ he')
    have hlt := h e List.mem_cons_self
    rw [framesEnqueued_cons, framesWritten_cons, he, hw]
    cases e with
    | enqueued frame => simp [Event.enqueuedOn, Event.writtenOn, Nat.ne_of_lt (hlt frame.conn rfl)]
    | written conn frame => simp [Event.enqueuedOn, Event.writtenOn, Nat.ne_of_lt (hlt conn rfl)]
    | _ => exact ⟨rfl, rfl⟩

end Frames

namespace Line

/-- What was written, then what is queued: what was enqueued. -/
def Delivered (l : Line) : Prop :=
  l.phase = .up → framesWritten l.conn l.trace ++ l.queue = framesEnqueued l.conn l.trace

section Delivered

variable {l l' : Line}

theorem Delivered.keep (h : l.Delivered) (hp : l'.phase = l.phase) (hc : l'.conn = l.conn)
    (hq : l'.queue = l.queue) (ht : l'.trace = l.trace) : l'.Delivered := by
  intro hu
  rw [hc, hq, ht]
  exact h (hp ▸ hu)

/-- An event that is no frame. -/
theorem Delivered.log {e : Event} (h : l.Delivered) (he : e.enqueuedOn l.conn = none)
    (hw : e.writtenOn l.conn = none) : (l.log e).Delivered := by
  intro hu
  change framesWritten l.conn (e :: l.trace) ++ l.queue = framesEnqueued l.conn (e :: l.trace)
  rw [framesEnqueued_cons, framesWritten_cons, he, hw]
  simpa using h hu

theorem Delivered.enqueue (h : l.Delivered) (op : Op) : (l.enqueue op).Delivered := by
  intro hu
  change framesWritten l.conn (.enqueued ⟨l.conn, op⟩ :: l.trace) ++ (l.queue ++ [⟨l.conn, op⟩]) =
    framesEnqueued l.conn (.enqueued ⟨l.conn, op⟩ :: l.trace)
  rw [framesEnqueued_cons, framesWritten_cons, ← h hu]
  simp [Event.enqueuedOn, Event.writtenOn]

theorem Delivered.writeHead (h : l.Delivered) : l.writeHead.Delivered := by
  unfold Line.writeHead
  split
  · exact h
  · next frame rest hq =>
    intro hu
    have hall := h hu
    change framesWritten l.conn (.written l.conn frame :: l.trace) ++ rest =
      framesEnqueued l.conn (.written l.conn frame :: l.trace)
    rw [hq] at hall
    rw [framesEnqueued_cons, framesWritten_cons]
    simpa [Event.enqueuedOn, Event.writtenOn] using hall

theorem Delivered.noteAnswer (h : l.Delivered) (success : Bool) : (l.noteAnswer success).Delivered := by
  unfold Line.noteAnswer
  split
  · exact h
  · exact h.log rfl rfl

theorem Delivered.after {m : Move} (h : l.Delivered) (hsh : l.Shape) (he : l.Enabled m) :
    (l.after m).Delivered := by
  cases m with
  | request topic => exact Delivered.log (h.keep rfl rfl rfl rfl) rfl rfl
  | withdraw topic => exact Delivered.log (h.keep rfl rfl rfl rfl) rfl rfl
  | sendUnsubscribe topic =>
    rw [Line.after]
    split
    · exact Delivered.enqueue (l := { l with senders := l.senders.erase topic }) (h.keep rfl rfl rfl rfl) _
    · exact h
  | authAck success =>
    rw [Line.after]
    split
    · exact Delivered.log (h.keep rfl rfl rfl rfl) rfl rfl
    · exact h.log rfl rfl
  | subscribeAck success reqId =>
    exact Delivered.noteAnswer (l := { l with books := l.books.ackSubscribe success reqId })
      (h.keep rfl rfl rfl rfl) success
  | start => exact fun hu => by cases hu
  | abandon => exact fun hu => by cases hu
  | goUp apiKey expires sign =>
    have hn : l.phase ≠ .up := by rw [show l.phase = .opening from he]; simp
    have hup : ({ l with phase := .up } : Line).Delivered := fun _ => by
      obtain ⟨hen, hwr⟩ := frames_fresh (hsh.fresh he)
      change framesWritten l.conn l.trace ++ l.queue = framesEnqueued l.conn l.trace
      rw [hen, hwr, (hsh.empty hn).1]
      rfl
    rw [Line.after]
    split
    · exact hup.enqueue _
    · exact hup
  | flush => exact Delivered.enqueue (l := { l with books := l.books.flush }) (h.keep rfl rfl rfl rfl) _
  | flushThrows => exact h.keep rfl rfl rfl rfl
  | ping => exact h.enqueue _
  | write => exact h.writeHead
  | teardown delayS => exact fun hu => by cases hu

theorem delivered_of_reach {secured : Bool} {E : Line → Move → Prop} (h : (system secured).Reach E l) :
    l.Delivered :=
  invariant_of_moves (I := Delivered) (fun hu => by cases hu)
    (fun _ _ hr _ he hI => hI.after (shape_of_reach hr) he) h

end Delivered

end Line

namespace World

/-- **The write pump.** In every run, before the session is closed: the stream is that of the
generation, and on no stream is more than one write outstanding. While the session is connected, the
frames handed to its stream followed by those in the queue are those enqueued on the connection, in
order; and if the stream is open and no write is outstanding, the queue is empty. -/
theorem write_pump (apiKey apiSecret : String) (w : World)
    (h : (session apiKey apiSecret).Reach System.Free w) (hc : w.userClosed = false) :
    (∀ ws, w.ws = some ws → ws.gen = w.generation) ∧ (∀ gen, w.writes gen ≤ 1) ∧
    (w.connected = true →
      framesWritten w.generation w.trace ++ w.outboundQueue = framesEnqueued w.generation w.trace) ∧
    (w.connected = true → ∀ ws, w.ws = some ws → ws.isOpen = true → w.writes w.generation = 0 →
      w.outboundQueue = []) := by
  have hout := drained_of_reach h hc
  refine ⟨fun ws hws => ?_, hout.one, fun hcon => ?_, fun hcon ws hws hopen hnone => ?_⟩
  · exact (Loop.of_reach h).matched ws.gen (by simp [life, hws])
  · exact Line.delivered_of_reach (line_of_reach_free h) (phase_up hcon)
  · refine hout.drained hcon (by simp [outlet, hws, hopen]) ?_
    by_contra hf
    have hbusy := hout.busy hcon
    rw [show w.outlet.inFlight = true from (Bool.not_eq_false _).mp hf] at hbusy
    have hnone' : w.outlet.writes w.outlet.generation = 0 := hnone
    rw [hnone'] at hbusy
    cases hbusy

/-- A ping is queued while the subscribe is written. -/
theorem write_pump_busy :
    ∃ w : World, (session "" "").Reach System.Free w ∧ w.outboundQueue = [⟨1, .ping⟩] ∧ w.writes 1 = 1 ∧
      framesWritten 1 w.trace ++ w.outboundQueue = framesEnqueued 1 w.trace := by
  obtain ⟨w, hw, hc, hcon, hg, hq, hone⟩ := System.Reach.exists_of_exec (S := session "" "") (C := System.Free)
    (l := connectRun "tickers.A" ++ [.complete ⟨.pingTimer, 1, false⟩ .done ⟨0, 0⟩])
    (P := fun w => w.userClosed = false ∧ w.connected = true ∧ w.generation = 1 ∧
      w.outboundQueue = [⟨1, .ping⟩] ∧ w.writes 1 = 1) (by decide)
  have hsent := (write_pump "" "" w hw hc).2.2.1 hcon
  rw [hg] at hsent
  exact ⟨w, hw, hq, hone, hsent⟩

end World

end BybitApi.Session
