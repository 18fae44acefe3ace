import BybitApi.Session.Lifecycle

/-!
# A session that nobody closes

Handlers post no tasks, so only calls do, and a session on which `close` is not called stays open. Once it was
run it always has something left to do: the task that begins the first generation, an operation of the connect
chain, the wait for the ping timer, or the wait for the reconnect timer.
-/

namespace BybitApi.Session

namespace World

/-! ## What handlers leave alone -/

/-- What only calls change: whether the session was run, and the tasks. -/
def calls (w : World) : Bool × List Task := (w.ran, w.tasks)

section Calls

variable {w w' : World}

@[simp] theorem calls_enqueueOp (op : Op) (w : World) : (w.enqueueOp op).calls = w.calls := rfl

@[simp] theorem calls_pump (w : World) : w.pump.calls = w.calls := by
  unfold pump
  split
  · split <;> rfl
  · rfl

@[simp] theorem calls_sendOp (op : Op) (w : World) : (w.sendOp op).world.calls = w.calls := by
  unfold sendOp
  split
  · exact (calls_pump _).trans (calls_enqueueOp op w)
  · rfl

@[simp] theorem calls_flushTopics (w : World) : w.flushTopics.world.calls = w.calls := by
  unfold flushTopics
  split
  · rfl
  · split
    · rfl
    · rw [calls_sendOp]; rfl

@[simp] theorem calls_sendUnsubscribe (topic : Topic) (w : World) :
    (w.sendUnsubscribe topic).world.calls = w.calls := by
  unfold sendUnsubscribe
  split
  · rfl
  · rw [calls_sendOp]

@[simp] theorem calls_handleError (gen : ℕ) (w : World) : (w.handleError gen).calls = w.calls := by
  unfold handleError
  split
  · rfl
  · split <;> rfl

@[simp] theorem calls_startConnect (w : World) : w.startConnect.calls = w.calls := by
  unfold startConnect
  split <;> rfl

@[simp] theorem calls_readAgain (gen : ℕ) (w : World) : (w.readAgain gen).calls = w.calls := by
  unfold readAgain
  split
  · rfl
  · split <;> rfl

theorem calls_handleAck (gen : ℕ) (now : Clock) (ack : Ack) (w : World) :
    (w.handleAck gen now ack).world.calls = w.calls := by
  unfold handleAck
  split
  · rfl
  split
  · split
    · exact calls_flushTopics _
    · exact calls_handleError _ _
  split
  · unfold noteAnswer
    split <;> rfl
  · rfl

theorem calls_onRead (gen : ℕ) (ec : Bool) (json : Option Json) (now : Clock) (w : World) :
    (w.onRead gen ec json now).calls = w.calls := by
  unfold onRead
  split
  · exact calls_handleError gen w
  split
  · exact calls_handleError gen w
  split
  · unfold afterControlMsg
    cases hack : readAck ‹Json› with
    | error e =>
      rw [handleApiControlMsg_error hack]
      exact calls_handleError gen w
    | ok ack =>
      rw [handleApiControlMsg_ok hack]
      have hcalls := calls_handleAck gen now ack w
      split
      · exact (calls_handleError gen _).trans hcalls
      · exact (calls_readAgain gen _).trans hcalls
  · exact calls_readAgain gen w

theorem calls_onHandshake (gen : ℕ) (ec : Bool) (now : Clock) (w : World) :
    (w.onHandshake gen ec now).world.calls = w.calls := by
  unfold onHandshake
  split
  · exact calls_handleError gen w
  split
  · rfl
  · have hup : (w.goUp now).world.calls = w.calls := by
      unfold goUp
      split
      · exact (calls_pump _).trans rfl
      · exact (calls_flushTopics _).trans rfl
    split <;> exact hup

theorem calls_onPingTimer (gen : ℕ) (ec : Bool) (now : Clock) (w : World) :
    (w.onPingTimer gen ec now).calls = w.calls := by
  unfold onPingTimer
  split
  · rfl
  split
  · rfl
  split
  · split
    · exact calls_handleError gen w
    split
    · exact calls_handleError gen w
    · exact (calls_pump (w.enqueueOp .ping)).trans rfl
  · rfl

theorem calls_completion (kind : Kind) (gen : ℕ) (r : Result) (now : Clock) (w : World) :
    (completion kind gen r now w).calls = w.calls := by
  have herr := calls_handleError gen w
  unfold completion
  split
  case h_7 => exact calls_onPingTimer gen r.ec now w
  case h_9 => rfl
  all_goals split
  all_goals first | rfl | skip
  · unfold onResolve
    split
    · exact herr
    · rfl
  · unfold onConnect
    split
    · exact herr
    split
    · exact herr
    · rfl
  · unfold onSSLHandshake
    split
    · exact herr
    · rfl
  · exact calls_onHandshake gen r.ec now w
  · exact calls_onRead gen r.ec r.json now w
  · unfold onWrite
    split
    · exact calls_handleError gen w.writeDone
    · exact calls_pump w.writeDone
  · unfold onReconnectTimer
    split
    · rfl
    · exact calls_startConnect w.unschedule

theorem calls_controlCallback (isPong : Bool) (now : Clock) (w : World) :
    (w.controlCallback isPong now).calls = w.calls := by
  unfold controlCallback
  split <;> rfl

/-- The session is not closed, and nobody has asked for it. -/
structure Open (w : World) : Prop where
  loop : w.Loop
  closed : w.userClosed = false
  noClose : .closeByUser ∉ w.tasks

theorem Open.init (apiKey apiSecret : String) : (World.init apiKey apiSecret).Open :=
  ⟨Loop.init apiKey apiSecret, rfl, List.not_mem_nil⟩

theorem Open.of_calls (hloop : w'.Loop) (hclosed : w'.userClosed = false) (hno : .closeByUser ∉ w.tasks)
    (hcalls : w'.calls = w.calls) : w'.Open ∧ w'.ran = w.ran := by
  obtain ⟨hran, htasks⟩ := Prod.mk.inj hcalls
  exact ⟨⟨hloop, hclosed, htasks.symm ▸ hno⟩, hran⟩

/-- It stays open as long as nobody calls `close`. -/
theorem Open.step {a : Action} (h : w.Open) (hs : Session.step w a = some w') (ha : a ≠ .close) :
    w'.Open ∧ (w.ran = true → w'.ran = true) := by
  have hloop := h.loop.step hs
  cases a with
  | run f =>
    obtain ⟨-, -, rfl⟩ := step_run hs
    exact ⟨⟨hloop, h.closed, by simpa [World.run, addTopic, log, post] using h.noClose⟩, fun _ => rfl⟩
  | subscribe topic =>
    obtain rfl := Option.some.inj hs
    exact ⟨⟨hloop, h.closed, by simpa [World.subscribe, addTopic, log, post] using h.noClose⟩, id⟩
  | unsubscribe topic =>
    obtain rfl := Option.some.inj hs
    refine ⟨⟨hloop, ?_, ?_⟩, ?_⟩ <;> unfold World.unsubscribe <;> split
    · exact h.closed
    · exact h.closed
    · simpa [World.removeTopic, log, post] using h.noClose
    · exact h.noClose
    · exact id
    · exact id
  | close => exact absurd rfl ha
  | task t =>
    obtain ⟨ht, rfl⟩ := step_task hs
    have hno : .closeByUser ∉ (w.begin t).tasks := fun hmem => h.noClose (List.mem_of_mem_erase hmem)
    cases t with
    | startConnect =>
      have hclosed := (near_startConnect (w.begin .startConnect)).closed.trans h.closed
      exact (Open.of_calls hloop hclosed hno (calls_startConnect _)).imp_right fun hran => hran.trans
    | flushTopics =>
      have hlife := life_flushTopics (w.begin .flushTopics)
      have hclosed := (congrArg Life.closed hlife).trans h.closed
      exact (Open.of_calls hloop hclosed hno (calls_flushTopics _)).imp_right fun hran => hran.trans
    | sendUnsubscribe topic =>
      have hlife := life_sendUnsubscribe topic (w.begin (.sendUnsubscribe topic))
      have hclosed := (congrArg Life.closed hlife).trans h.closed
      exact (Open.of_calls hloop hclosed hno (calls_sendUnsubscribe topic _)).imp_right fun hran => hran.trans
    | closeByUser => exact absurd ht h.noClose
  | complete p r now =>
    obtain ⟨-, -, rfl⟩ := step_complete hs
    have hclosed := (near_completion p.kind p.gen r now (w.taken p)).closed.trans h.closed
    exact (Open.of_calls (w := w.taken p) hloop hclosed h.noClose (calls_completion ..)).imp_right
      fun hran => hran.trans
  | control gen isPong now =>
    obtain ⟨-, rfl⟩ := step_control hs
    have hclosed : (w.controlCallback isPong now).userClosed = false := by
      unfold controlCallback
      split <;> exact h.closed
    exact (Open.of_calls hloop hclosed h.noClose (calls_controlCallback isPong now w)).imp_right fun hran => hran.trans
  | streamCloses =>
    obtain rfl := Option.some.inj hs
    exact ⟨⟨hloop, h.closed, h.noClose⟩, id⟩

/-- A session that was run always has something left to do. -/
theorem Open.has_work (h : w.Open) (hran : w.ran = true) : w.tasks ≠ [] ∨ w.pending ≠ [] := by
  rcases h.loop.stage h.closed with hidle | hbegun
  · have hstarts := hidle.starts
    rw [if_pos hran] at hstarts
    left
    intro hnone
    simp [life, hnone] at hstarts
  · right
    intro hnone
    have hcurrent : ∀ q, w.current q = 0 := fun q => by simp [current, hnone]
    rcases hbegun.stage with ⟨hs, -⟩ | hs | hs
    · exact absurd (hs.chain.symm.trans (hcurrent _)) (by decide)
    · exact absurd (hs.pings.symm.trans (hcurrent _)) (by decide)
    · exact absurd (hs.waits.symm.trans (hcurrent _)) (by decide)

end Calls

end World

end BybitApi.Session
