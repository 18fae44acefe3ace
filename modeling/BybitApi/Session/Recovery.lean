import BybitApi.Lib.Within
import BybitApi.Session.Confirm
import BybitApi.Session.Pump
import BybitApi.Session.Stages

/-!
# Recovery

However a session came to the state it is in (operations that failed, acks out of order, a write that
never completed), nothing it lost is lost for good: where every topic asked for is UTF-8, from every
state before the session is closed a bounded number of completions leads to one in which it is
connected and authenticated, and every topic it was asked for is subscribed and confirmed.

`World.Recovering` says what the environment does on the way. The stages are taken one at a time:
the connection is lost, the reconnect timer fires, the connect chain runs, the auth ack comes, the
subscribe ack comes. `World.Toward` is what stays true from one to the next.
-/

namespace BybitApi.Session

open Lib

/-! ## The stream of a generation -/

/-- The stream and the generation are as they were, or the stream is there. -/
def Life.Attaches (l l' : Life) : Prop :=
  (l'.stream = l.stream ∧ l'.generation = l.generation) ∨ l'.stream.isSome = true

namespace Life.Attaches

variable {l l' l'' : Life}

theorem of_eq (h : l' = l) : l.Attaches l' := by
  subst h; exact Or.inl ⟨rfl, rfl⟩

theorem trans (h : l.Attaches l') (h' : l'.Attaches l'') : l.Attaches l'' := by
  rcases h' with ⟨hs', hg'⟩ | h'
  · rcases h with ⟨hs, hg⟩ | h
    · exact Or.inl ⟨hs'.trans hs, hg'.trans hg⟩
    · exact Or.inr (by rw [hs']; exact h)
  · exact Or.inr h'

end Life.Attaches

namespace World

section Attaches

variable {w : World}

theorem attaches_handleError (gen : ℕ) (w : World) : w.life.Attaches (w.handleError gen).life := by
  unfold handleError
  split
  · exact .of_eq rfl
  · split
    · exact .of_eq rfl
    · rw [life_teardown]; exact Or.inl ⟨rfl, rfl⟩

theorem attaches_startConnect (w : World) : w.life.Attaches w.startConnect.life := by
  unfold startConnect
  split
  · exact .of_eq rfl
  · exact Or.inr rfl

theorem attaches_readAgain (gen : ℕ) (w : World) : w.life.Attaches (w.readAgain gen).life := by
  unfold readAgain
  split
  · exact .of_eq rfl
  · rw [life_start]
    split <;> exact Or.inl ⟨rfl, rfl⟩

theorem attaches_onHandshake (gen : ℕ) (ec : Bool) (now : Clock) (w : World) :
    w.life.Attaches (w.onHandshake gen ec now).world.life := by
  unfold onHandshake
  split
  · exact attaches_handleError gen w
  · split
    · exact .of_eq (life_ws (gen_opened w.ws))
    · split
      · rw [life_goUp]; exact Or.inl ⟨rfl, rfl⟩
      · rw [life_start, life_goUp]; exact Or.inl ⟨rfl, rfl⟩

theorem attaches_onPingTimer (gen : ℕ) (ec : Bool) (now : Clock) (w : World) :
    w.life.Attaches (w.onPingTimer gen ec now).life := by
  unfold onPingTimer
  split
  · exact .of_eq rfl
  · split
    · exact .of_eq rfl
    · split
      · split
        · exact attaches_handleError gen w
        · split
          · exact attaches_handleError gen w
          · rw [life_arm, life_pump, life_enqueueOp]; exact Or.inl ⟨rfl, rfl⟩
      · rw [life_arm]; exact Or.inl ⟨rfl, rfl⟩

theorem attaches_onRead (gen : ℕ) (ec : Bool) (json : Option Json) (now : Clock) (w : World) :
    w.life.Attaches (w.onRead gen ec json now).life := by
  obtain ⟨w₁, hl, hcase⟩ := onRead_cases gen ec json now w
  rw [← hl]
  rcases hcase with he | he | he
  · rw [he]; exact attaches_handleError gen w₁
  · rw [he]; exact attaches_readAgain gen w₁
  · rw [he]; exact (attaches_handleError gen w₁).trans (attaches_readAgain gen _)

theorem attaches_completion (kind : Kind) (gen : ℕ) (r : Result) (now : Clock) (w : World) :
    w.life.Attaches (completion kind gen r now w).life := by
  have hstart : ∀ k (w' : World), w'.life = w.life → w.life.Attaches (w'.start k).life := by
    intro k w' h
    rw [life_start, h]
    exact Or.inl ⟨rfl, rfl⟩
  by_cases hg : gen = w.generation
  · unfold completion
    cases kind <;> simp only [hg, ne_eq, not_true_eq_false, if_false]
    case pingTimer => exact attaches_onPingTimer w.generation r.ec now w
    case close => exact .of_eq rfl
    case resolve =>
      unfold onResolve; split
      · exact attaches_handleError _ w
      · exact hstart _ _ rfl
    case connect =>
      unfold onConnect; split
      · exact attaches_handleError _ w
      · split
        · exact attaches_handleError _ w
        · exact hstart _ _ rfl
    case sslHandshake =>
      unfold onSSLHandshake; split
      · exact attaches_handleError _ w
      · exact hstart _ _ rfl
    case handshake => exact attaches_onHandshake _ r.ec now w
    case read => exact attaches_onRead _ r.ec r.json now w
    case write =>
      unfold onWrite; split
      · exact attaches_handleError _ w.writeDone
      · exact .of_eq (by rw [life_pump, life_writeDone])
    case reconnectTimer =>
      unfold onReconnectTimer; split
      · exact Or.inl ⟨rfl, rfl⟩
      · exact attaches_startConnect w.unschedule
  · rw [completion_stale hg]
    exact .of_eq rfl

theorem attaches_task (t : Task) (w : World) : w.life.Attaches ((w.begin t).runTask t).world.life := by
  have hbegin : w.life.Attaches (w.begin t).life := Or.inl ⟨rfl, rfl⟩
  refine hbegin.trans ?_
  cases t with
  | startConnect => exact attaches_startConnect _
  | flushTopics => exact .of_eq (life_flushTopics _)
  | sendUnsubscribe topic => exact .of_eq (life_sendUnsubscribe topic _)
  | closeByUser =>
    change (w.begin .closeByUser).life.Attaches (closeByUser _).life
    unfold closeByUser
    split
    · exact .of_eq rfl
    · have hset : (w.begin .closeByUser).life.Attaches (w.begin .closeByUser).setClosed.life := by
        unfold setClosed
        rw [life_cancel, life_cancel]; exact Or.inl ⟨rfl, rfl⟩
      refine hset.trans ?_
      rcases life_closeStream (w.begin .closeByUser).setClosed with hl | hl <;> rw [hl] <;> exact Or.inl ⟨rfl, rfl⟩

theorem attaches_step {a : Action} {w' : World} (hs : step w a = some w') : w.life.Attaches w'.life := by
  cases a with
  | run f => obtain ⟨-, -, rfl⟩ := step_run hs; exact Or.inl ⟨rfl, rfl⟩
  | subscribe topic => obtain rfl := Option.some.inj hs; exact Or.inl ⟨rfl, rfl⟩
  | unsubscribe topic =>
    obtain rfl := Option.some.inj hs
    unfold unsubscribe
    split <;> exact Or.inl ⟨rfl, rfl⟩
  | close => obtain rfl := Option.some.inj hs; exact Or.inl ⟨rfl, rfl⟩
  | task t => obtain ⟨-, rfl⟩ := step_task hs; exact attaches_task t w
  | complete p r now =>
    obtain ⟨-, -, rfl⟩ := step_complete hs
    have htaken : w.life.Attaches (w.taken p).life := Or.inl ⟨rfl, rfl⟩
    exact htaken.trans (attaches_completion p.kind p.gen r now (w.taken p))
  | control gen isPong now =>
    obtain ⟨-, rfl⟩ := step_control hs
    unfold controlCallback
    split <;> exact Or.inl ⟨rfl, rfl⟩
  | streamCloses =>
    obtain rfl := Option.some.inj hs
    exact .of_eq (life_ws (gen_closed w.ws))

/-- From the first generation on there is a stream. -/
theorem stream_of_reach {apiKey apiSecret : String} {C : World → Action → Prop} {w : World}
    (h : (session apiKey apiSecret).Reach C w) : w.generation = 0 ∨ ∃ ws, w.ws = some ws := by
  have hinv : w.life.generation = 0 ∨ w.life.stream.isSome = true := by
    refine h.invariant (I := fun w => w.life.generation = 0 ∨ w.life.stream.isSome = true) (Or.inl rfl)
      fun w a w' _ _ hs hI => ?_
    rcases attaches_step hs with ⟨hst, hg⟩ | hst
    · rw [hst, hg]; exact hI
    · exact Or.inr hst
  refine hinv.imp id fun hs => ?_
  rw [show w.life.stream = w.ws.map Stream.gen from rfl, Option.isSome_map] at hs
  exact Option.isSome_iff_exists.1 hs

end Attaches

/-! ## What the environment does -/

/-- Everything queued was written, and no write is outstanding. -/
def AllWritten (w : World) : Prop := w.outboundQueue = [] ∧ w.writeInFlight = false

/-- The environment on the way. The first `startConnect` runs, operations succeed, and once
everything queued was written the venue accepts the credentials or the oldest op in flight. -/
def Recovering (w : World) : Action → Prop
  | .task t => t = .startConnect
  | .complete _ .done _ => True
  | .complete _ (.frame json) _ =>
    w.AllWritten ∧ (json = some authSuccess ∨
      ∃ op, w.books.inflightSubscribes.head? = some op ∧ json = some (subscribeAnswer true op.1))
  | _ => False

/-- The topics that were asked for, in the order in which they will be sent. -/
def topics (w : World) : List Topic := w.books.subscriptions ++ w.books.pendingTopics

/-- What no step of the way changes. -/
structure Keeps (w w' : World) : Prop where
  closed : w'.userClosed = w.userClosed
  ran : w'.ran = w.ran
  secured : w'.authRequired = w.authRequired
  topics : w'.topics = w.topics

theorem Keeps.trans {w w₁ w₂ : World} (h : w.Keeps w₁) (h' : w₁.Keeps w₂) : w.Keeps w₂ :=
  ⟨h'.closed.trans h.closed, h'.ran.trans h.ran, h'.secured.trans h.secured, h'.topics.trans h.topics⟩

/-- On the way from `w₀`. -/
structure Toward (apiKey apiSecret : String) (w₀ w : World) : Prop where
  reached : (session apiKey apiSecret).Reach (fun _ a => a.AsksUtf8) w
  closed : w.userClosed = false
  ran : w.ran = true
  keeps : w₀.Keeps w

section Stages

variable {apiKey apiSecret : String} {w₀ w : World}

/-- A stretch of the way from `w₀`. -/
structure Leads (apiKey apiSecret : String) (w₀ : World) (n : ℕ) (w w' : World) : Prop where
  within : (session apiKey apiSecret).Within Recovering n w w'
  toward : Toward apiKey apiSecret w₀ w'

theorem Leads.trans {w₁ w₂ : World} {n m : ℕ} (h : Leads apiKey apiSecret w₀ n w w₁)
    (h' : Leads apiKey apiSecret w₀ m w₁ w₂) : Leads apiKey apiSecret w₀ (n + m) w w₂ :=
  ⟨h.within.trans h'.within, h'.toward⟩

theorem Toward.stay (h : Toward apiKey apiSecret w₀ w) (n : ℕ) : Leads apiKey apiSecret w₀ n w w :=
  ⟨.here n w, h⟩

theorem Recovering.asksUtf8 {a : Action} (h : w.Recovering a) : a.AsksUtf8 := by
  cases a with
  | run f => exact h.elim
  | subscribe topic => exact h.elim
  | unsubscribe topic => trivial
  | close => trivial
  | task t => trivial
  | complete p r now => trivial
  | control gen isPong now => trivial
  | streamCloses => trivial

theorem Toward.after (h : Toward apiKey apiSecret w₀ w) {a : Action} {w' : World} (ha : a.AsksUtf8)
    (hs : step w a = some w') (hk : w.Keeps w') : Toward apiKey apiSecret w₀ w' :=
  ⟨h.reached.step ha hs, hk.closed.trans h.closed, hk.ran.trans h.ran, h.keeps.trans hk⟩

/-- One step of the way. -/
theorem Toward.next (h : Toward apiKey apiSecret w₀ w) {a : Action} {w' : World} (hs : step w a = some w')
    (hC : w.Recovering a) (hk : w.Keeps w') : Leads apiKey apiSecret w₀ 1 w w' :=
  ⟨.one a hC hs, h.after hC.asksUtf8 hs hk⟩

theorem step_of_pending {p : Pending} {r : Result} (hp : p ∈ w.pending) (hf : r.fits p = true) (now : Clock) :
    step w (.complete p r now) = some (completion p.kind p.gen r now (w.taken p)) :=
  if_pos ⟨hp, hf⟩

theorem exists_pending {q : Pending → Bool} (h : 0 < w.current q) :
    ∃ p ∈ w.pending, p.gen = w.generation ∧ q p = true := by
  obtain ⟨p, hp, hq⟩ := List.countP_pos_iff.1 h
  simp only [Bool.and_eq_true, decide_eq_true_eq] at hq
  exact ⟨p, hp, hq⟩

theorem Toward.live (h : Toward apiKey apiSecret w₀ w) (hc : w.connected = true) : w.life.Live :=
  (Loop.of_reach h.reached).live h.closed hc

/-- A connection that is up has its read. -/
theorem Toward.reading (h : Toward apiKey apiSecret w₀ w) (hc : w.connected = true) :
    (w.current fun p => p.kind = .read) = 1 :=
  reads_of_reach (fun _ _ => id) h.reached h.closed hc

theorem Toward.utf8 (h : Toward apiKey apiSecret w₀ w) : ∀ t ∈ w.books.pendingTopics, t.isUtf8 = true :=
  (utf8_of_session (fun _ _ => id) h.reached).pending

/-! ## The connection is lost, the reconnect timer fires -/

theorem Toward.loses (h : Toward apiKey apiSecret w₀ w) (hc : w.connected = true) :
    ∃ p w₁, p.kind = .read ∧ step w (.complete p .failed ⟨0, 0⟩) = some w₁ ∧
      Toward apiKey apiSecret w₀ w₁ ∧ w₁.reconnectScheduled = true := by
  have hl := h.live hc
  obtain ⟨p, hp, hg, hk⟩ := exists_pending (by rw [h.reading hc]; exact Nat.one_pos)
  rw [decide_eq_true_eq] at hk
  have hs := step_of_pending (r := .failed) hp (by simp [Result.fits, hk, Kind.isTimer]) ⟨0, 0⟩
  have hdown : completion p.kind p.gen .failed ⟨0, 0⟩ (w.taken p) = (w.taken p).teardown := by
    have hg' : p.gen = (w.taken p).generation := hg
    simp only [completion, hk, hg', ne_eq, not_true_eq_false, if_false, onRead, Result.ec, if_true]
    exact handleError_current hl.scheduled h.closed
  rw [hdown] at hs
  exact ⟨p, _, hk, hs, h.after (a := .complete p .failed ⟨0, 0⟩) trivial hs ⟨rfl, rfl, rfl, rfl⟩, rfl⟩

/-- One operation of the connect chain, of kind `k`, is what the session waits for. -/
structure Chaining (k : Kind) (w : World) : Prop where
  connected : w.connected = false
  scheduled : w.reconnectScheduled = false
  pending : ∃ p ∈ w.pending, p.gen = w.generation ∧ p.kind = k

theorem Chaining.started (hsch : w.reconnectScheduled = false) :
    Chaining .resolve (w.nextGeneration.start .resolve) :=
  ⟨rfl, hsch, ⟨_, List.mem_append_right _ (List.mem_singleton.2 rfl), rfl, rfl⟩⟩

theorem Toward.reconnects (h : Toward apiKey apiSecret w₀ w) (hsch : w.reconnectScheduled = true) :
    ∃ w₁, Leads apiKey apiSecret w₀ 1 w w₁ ∧ Chaining .resolve w₁ := by
  have hw : w.life.Waiting := by
    rcases (Loop.of_reach h.reached).stage h.closed with hi | hb
    · exact absurd hi.scheduled (by simp [hsch])
    · rcases hb.stage with ⟨hs, -⟩ | hs | hs
      · exact absurd hs.scheduled (by simp [life, hsch])
      · exact absurd hs.scheduled (by simp [life, hsch])
      · exact hs
  have hpos : 0 < w.current fun p => p.kind = .reconnectTimer := by
    rw [show (w.current fun p => p.kind = .reconnectTimer) = 1 from hw.waits]; exact Nat.one_pos
  obtain ⟨p, hp, hg, hk⟩ := exists_pending hpos
  rw [decide_eq_true_eq] at hk
  have hs := step_of_pending (r := .done) hp (by simp [Result.fits, hk]) ⟨0, 0⟩
  have hstart : completion p.kind p.gen .done ⟨0, 0⟩ (w.taken p) =
      (w.taken p).unschedule.nextGeneration.start .resolve := by
    have hg' : p.gen = (w.taken p).generation := hg
    simp only [completion, hk, hg', ne_eq, not_true_eq_false, if_false, onReconnectTimer]
    rw [if_neg (by simp [Result.ec, taken, h.closed])]
    exact startConnect_open h.closed
  rw [hstart] at hs
  exact ⟨_, h.next hs trivial ⟨rfl, rfl, rfl, rfl⟩, .started rfl⟩

theorem Toward.begins (h : Toward apiKey apiSecret w₀ w) (hi : w.Idle) :
    ∃ w₁, Leads apiKey apiSecret w₀ 1 w w₁ ∧ Chaining .resolve w₁ := by
  have hone : w.tasks.count .startConnect = 1 := by
    have hstarts := hi.starts
    rwa [if_pos h.ran] at hstarts
  have ht : .startConnect ∈ w.tasks := List.count_pos_iff.1 (by rw [hone]; exact Nat.one_pos)
  have hs : step w (.task .startConnect) = some ((w.begin .startConnect).nextGeneration.start .resolve) := by
    simp only [step, if_pos ht, runTask]
    exact congrArg some (startConnect_open h.closed)
  exact ⟨_, h.next hs rfl ⟨rfl, rfl, rfl, rfl⟩, .started hi.scheduled⟩

/-! ## The connect chain -/

/-- An operation of the chain succeeds, and starts the next one. -/
theorem Chaining.next {k k' : Kind} (hch : Chaining k w) (h : Toward apiKey apiSecret w₀ w)
    (hk : (k, k') ∈ [(Kind.resolve, Kind.connect), (.connect, .sslHandshake), (.sslHandshake, .handshake)]) :
    ∃ w₁, Leads apiKey apiSecret w₀ 1 w w₁ ∧ Chaining k' w₁ := by
  obtain ⟨p, hp, hg, rfl⟩ := hch.pending
  have hfits : Result.done.fits p = true := by
    simp only [List.mem_cons, Prod.mk.injEq, List.not_mem_nil, or_false] at hk
    rcases hk with ⟨hk, -⟩ | ⟨hk, -⟩ | ⟨hk, -⟩ <;> simp [Result.fits, hk]
  have hs := step_of_pending hp hfits ⟨0, 0⟩
  have hg' : p.gen = (w.taken p).generation := hg
  have hlast : ∀ {v : World}, (⟨k', v.generation, false⟩ : Pending) ∈ (v.start k').pending :=
    List.mem_append_right _ (List.mem_singleton.2 rfl)
  have hmoves : ∃ v : World, completion p.kind p.gen .done ⟨0, 0⟩ (w.taken p) = v.start k' ∧
      (v = w.taken p ∨ v = (w.taken p).setControlCallback) := by
    simp only [List.mem_cons, Prod.mk.injEq, List.not_mem_nil, or_false] at hk
    rcases hk with ⟨hk, rfl⟩ | ⟨hk, rfl⟩ | ⟨hk, rfl⟩ <;>
      simp only [completion, hk, hg', ne_eq, not_true_eq_false, if_false]
    · exact ⟨_, rfl, Or.inl rfl⟩
    · exact ⟨_, rfl, Or.inl rfl⟩
    · exact ⟨_, rfl, Or.inr rfl⟩
  obtain ⟨v, hv, hcase⟩ := hmoves
  rw [hv] at hs
  rcases hcase with rfl | rfl
  all_goals
    exact ⟨_, h.next hs trivial ⟨rfl, rfl, rfl, rfl⟩, hch.connected, hch.scheduled, _, hlast, rfl, rfl⟩

/-- The chain runs up to its last operation. -/
theorem Chaining.handshake {k : Kind} (hch : Chaining k w) (h : Toward apiKey apiSecret w₀ w)
    (hk : k.isChain = true) : ∃ w₁, Leads apiKey apiSecret w₀ 3 w w₁ ∧ Chaining .handshake w₁ := by
  have last : ∀ {v : World}, Chaining .sslHandshake v → Toward apiKey apiSecret w₀ v →
      ∃ w₁, Leads apiKey apiSecret w₀ 1 v w₁ ∧ Chaining .handshake w₁ := fun hv ht => hv.next ht (by simp)
  have middle : ∀ {v : World}, Chaining .connect v → Toward apiKey apiSecret w₀ v →
      ∃ w₁, Leads apiKey apiSecret w₀ 2 v w₁ ∧ Chaining .handshake w₁ := by
    intro v hv ht
    have hnext : ∃ w₁, Leads apiKey apiSecret w₀ 1 v w₁ ∧ Chaining .sslHandshake w₁ := hv.next ht (by simp)
    obtain ⟨w₁, hl₁, h₁⟩ := hnext
    obtain ⟨w₂, hl₂, h₂⟩ := last h₁ hl₁.toward
    exact ⟨w₂, hl₁.trans hl₂, h₂⟩
  cases k <;> simp only [Kind.isChain, Bool.false_eq_true] at hk
  case resolve =>
    have hnext : ∃ w₁, Leads apiKey apiSecret w₀ 1 w w₁ ∧ Chaining .connect w₁ := hch.next h (by simp)
    obtain ⟨w₁, hl₁, h₁⟩ := hnext
    obtain ⟨w₂, hl₂, h₂⟩ := middle h₁ hl₁.toward
    exact ⟨w₂, hl₁.trans hl₂, h₂⟩
  case connect =>
    obtain ⟨w₁, hl₁, h₁⟩ := middle hch h
    exact ⟨w₁, ⟨hl₁.within.le (by omega), hl₁.toward⟩, h₁⟩
  case sslHandshake =>
    obtain ⟨w₁, hl₁, h₁⟩ := last hch h
    exact ⟨w₁, ⟨hl₁.within.le (by omega), hl₁.toward⟩, h₁⟩
  case handshake => exact ⟨w, h.stay 3, hch⟩

/-! ## The connection goes up -/

/-- The connection is up, and its stream is open and has everything that was queued. -/
structure Up (w : World) : Prop where
  connected : w.connected = true
  streamOpen : w.ws.any Stream.isOpen = true
  scheduled : w.reconnectScheduled = false
  queue : w.outboundQueue = []

/-- The topics were sent: none is pending, and at most the op that names them is in flight. -/
structure Joined (w : World) : Prop extends Up w where
  authed : w.authRequired = true → w.authenticated = true ∧ w.authenticatedFlag = true
  pending : w.books.pendingTopics = []
  inflight : w.books.inflightSubscribes = [] ∨ ∃ op, w.books.inflightSubscribes = [op]

/-- The credentials were sent, and no subscribe op. -/
structure Presented (w : World) : Prop extends Up w where
  secured : w.authRequired = true
  inflight : w.books.inflightSubscribes = []

theorem pump_nil (h : w.outboundQueue = []) : w.pump = w := by
  unfold pump
  rw [h]
  split
  · next heq => cases heq
  · rfl

/-- The pump hands the only frame there is to the stream. -/
theorem pump_singleton {f : Frame} (hc : w.connected = true) (ho : w.ws.any Stream.isOpen = true)
    (hf : w.writeInFlight = false) (hq : w.outboundQueue = [f]) :
    ∃ ws, w.ws = some ws ∧ w.pump =
      ({ w with outboundQueue := [], writeBuffer := some f, writeInFlight := true }.start .write).log
        (.written ws.gen f) := by
  obtain ⟨ws, hws, hopen⟩ := (Option.any_eq_true _ _).1 ho
  refine ⟨ws, hws, ?_⟩
  unfold pump
  rw [hws, hq]
  exact if_neg (by simp [hf, hc, hopen])

/-- An op enqueued on an empty queue is written at once. -/
theorem Up.enqueueOp_pump (h : w.Up) (hf : w.writeInFlight = false) (op : Op) :
    (w.enqueueOp op).pump.Up ∧ w.Keeps (w.enqueueOp op).pump ∧
      (w.enqueueOp op).pump.books = w.books ∧ (w.enqueueOp op).pump.authenticated = w.authenticated ∧
      (w.enqueueOp op).pump.authenticatedFlag = w.authenticatedFlag := by
  have hq : (w.enqueueOp op).outboundQueue = [⟨w.generation, op⟩] := by
    simp [enqueueOp, log, h.queue]
  obtain ⟨ws, -, hp⟩ := pump_singleton (w := w.enqueueOp op) h.connected h.streamOpen hf hq
  rw [hp]
  exact ⟨⟨h.connected, h.streamOpen, h.scheduled, rfl⟩, ⟨rfl, rfl, rfl, rfl⟩, rfl, rfl, rfl⟩

theorem Up.sendAuth (h : w.Up) (hf : w.writeInFlight = false) (now : Clock) :
    (w.sendAuth now).Up ∧ w.Keeps (w.sendAuth now) ∧ (w.sendAuth now).books = w.books := by
  unfold World.sendAuth
  have hset : ({ w with authDeadline := some (now.steady + authAckTimeoutInS * 1000) } : World).Up :=
    ⟨h.connected, h.streamOpen, h.scheduled, h.queue⟩
  obtain ⟨hup, hk, hb, -, -⟩ := hset.enqueueOp_pump hf
    (.auth w.apiKey (now.wall + authExpiresOffsetInMs)
      (w.apiSecret, s!"GET/realtime{now.wall + authExpiresOffsetInMs}"))
  exact ⟨hup, ⟨hk.closed, hk.ran, hk.secured, hk.topics⟩, hb⟩

/-- The topics that are pending are sent in one op. -/
theorem Up.flushTopics (h : w.Up) (hf : w.writeInFlight = false) (hin : w.books.inflightSubscribes = [])
    (hutf : ∀ t ∈ w.books.pendingTopics, t.isUtf8 = true)
    (ha : w.authRequired = true → w.authenticated = true ∧ w.authenticatedFlag = true) :
    w.flushTopics.world.Joined ∧ w.Keeps w.flushTopics.world := by
  have hop : w.subscribeOp.isUtf8 = true := List.all_eq_true.2 hutf
  unfold World.flushTopics
  have hauth : (w.authRequired && !w.authenticated) = false := by
    cases hr : w.authRequired with
    | false => rfl
    | true => rw [(ha hr).1]; rfl
  rw [if_neg (by simp [h.connected, hauth])]
  split
  · next hpend => exact ⟨⟨h, ha, hpend, Or.inl hin⟩, rfl, rfl, rfl, rfl⟩
  · have hflush : ({ w with books := w.books.flush } : World).Up := ⟨h.connected, h.streamOpen, h.scheduled, h.queue⟩
    obtain ⟨hup, hk, hb, hau, hfl⟩ := hflush.enqueueOp_pump hf w.subscribeOp
    rw [sendOp, if_pos hop]
    refine ⟨⟨hup, fun hr => ?_, ?_, ?_⟩, hk.closed, hk.ran, hk.secured, hk.topics.trans ?_⟩
    · have hr' := hk.secured.symm.trans hr
      exact ⟨hau.trans (ha hr').1, hfl.trans (ha hr').2⟩
    · exact congrArg Books.pendingTopics hb
    · right
      have hbooks := congrArg Books.inflightSubscribes hb
      rw [Books.inflight_flush, hin] at hbooks
      exact ⟨_, hbooks⟩
    · exact List.append_nil _

/-- The end of the connect chain. Without credentials the topics are sent at once. -/
theorem Toward.goesUp (h : Toward apiKey apiSecret w₀ w) (hch : Chaining .handshake w) :
    ∃ w₁, Leads apiKey apiSecret w₀ 1 w w₁ ∧ (w₁.Presented ∨ w₁.Joined) := by
  obtain ⟨p, hp, hg, hk⟩ := hch.pending
  have hs := step_of_pending (r := .done) hp (by simp [Result.fits, hk]) ⟨0, 0⟩
  have hup : completion p.kind p.gen .done ⟨0, 0⟩ (w.taken p) = ((w.taken p).goUp ⟨0, 0⟩).world.start .read := by
    have hg' : p.gen = (w.taken p).generation := hg
    simp only [completion, hk, hg', ne_eq, not_true_eq_false, if_false, onHandshake]
    rw [if_neg (by simp [Result.ec]), if_neg (by simp [taken, h.closed]),
      if_neg (by simp [goUp_returns (w := w.taken p) h.utf8])]
  rw [hup] at hs
  have hempty := (Line.shape_of_reach (line_of_reach_free h.reached)).empty
    (by rw [show w.line.phase = w.phase from rfl, ne_eq, phase_up_iff, hch.connected]; simp)
  have hidle : w.writeInFlight = false := (drained_of_reach h.reached h.closed).idle hch.connected
  have hopened : (w.ws.map Stream.opened).any Stream.isOpen = true := by
    rcases stream_of_reach h.reached with hzero | ⟨ws, hws⟩
    · have hpos := ((Loop.of_reach h.reached).begun h.closed hp).generation
      omega
    · rw [hws]; rfl
  have hset : ((w.taken p).setConnected ⟨0, 0⟩).Up := ⟨rfl, hopened, hch.scheduled, hempty.1⟩
  unfold goUp at hs
  split at hs
  · next hsec =>
    obtain ⟨hup, hk, hb⟩ := hset.sendAuth hidle ⟨0, 0⟩
    refine ⟨_, h.next hs trivial ⟨hk.closed, hk.ran, hk.secured, hk.topics⟩,
      Or.inl ⟨⟨hup.connected, hup.streamOpen, hup.scheduled, hup.queue⟩, hk.secured.trans hsec, ?_⟩⟩
    exact (congrArg Books.inflightSubscribes hb).trans hempty.2.2
  · next hsec =>
    have hplain : w.authRequired = true → False := fun hr => hsec hr
    obtain ⟨hj, hk⟩ := hset.flushTopics hidle hempty.2.2 h.utf8 fun hr => (hplain hr).elim
    exact ⟨_, h.next hs trivial ⟨hk.closed, hk.ran, hk.secured, hk.topics⟩,
      Or.inr ⟨⟨hj.connected, hj.streamOpen, hj.scheduled, hj.queue⟩, hj.authed, hj.pending, hj.inflight⟩⟩

/-- The write that is outstanding completes. -/
theorem Toward.drains (h : Toward apiKey apiSecret w₀ w) (hc : w.connected = true) (hq : w.outboundQueue = []) :
    ∃ pending, Leads apiKey apiSecret w₀ 1 w { w with pending := pending, writeInFlight := false } := by
  have hbusy := (drained_of_reach h.reached h.closed).busy hc
  cases hf : w.writeInFlight with
  | false =>
    refine ⟨w.pending, ?_⟩
    rw [← hf]
    exact h.stay 1
  | true =>
    have hone : (w.current fun p => p.kind = .write) = 1 := by
      rw [← writes_current]
      exact hbusy.trans (if_pos hf)
    obtain ⟨p, hp, hg, hk⟩ := exists_pending (by rw [hone]; exact Nat.one_pos)
    rw [decide_eq_true_eq] at hk
    have hs := step_of_pending (r := .done) hp (by simp [Result.fits, hk]) ⟨0, 0⟩
    have hdone : completion p.kind p.gen .done ⟨0, 0⟩ (w.taken p) = (w.taken p).writeDone := by
      have hg' : p.gen = (w.taken p).generation := hg
      simp only [completion, hk, hg', ne_eq, not_true_eq_false, if_false, onWrite]
      rw [if_neg (by simp [Result.ec])]
      exact pump_nil hq
    rw [hdone] at hs
    exact ⟨_, h.next hs trivial ⟨rfl, rfl, rfl, rfl⟩⟩

/-! ## The acks -/

/-- An ack is read, and the next read is started. -/
theorem Toward.reads (h : Toward apiKey apiSecret w₀ w) (hc : w.connected = true) (json : Json) {ack : Ack}
    (hmsg : (json.isObject && isApiControlMsg json) = true) (hack : readAck json = .ok ack) :
    ∃ p ∈ w.pending, step w (.complete p (.frame (some json)) ⟨0, 0⟩) =
      some (afterControlMsg w.generation ((w.taken p).handleAck w.generation ⟨0, 0⟩ ack)) := by
  obtain ⟨p, hp, hg, hk⟩ := exists_pending (by rw [h.reading hc]; exact Nat.one_pos)
  rw [decide_eq_true_eq] at hk
  refine ⟨p, hp, ?_⟩
  rw [step_of_pending (r := .frame (some json)) hp (by simp [Result.fits, hk])]
  have hg' : (w.taken p).generation = w.generation := rfl
  simp only [completion, hk, hg, hg', ne_eq, not_true_eq_false, if_false, onRead, Result.ec, Result.json,
    Bool.false_eq_true, hmsg, if_true, handleApiControlMsg_ok hack]

/-- The next read leaves what was sent as it is. -/
theorem Joined.readAgain (hj : w.Joined) (gen : ℕ) :
    (w.readAgain gen).Joined ∧ w.Keeps (w.readAgain gen) ∧ (w.readAgain gen).books = w.books ∧
      (w.readAgain gen).writeInFlight = w.writeInFlight := by
  unfold World.readAgain
  split
  · exact ⟨hj, ⟨rfl, rfl, rfl, rfl⟩, rfl, rfl⟩
  · split <;>
      exact ⟨⟨⟨hj.connected, hj.streamOpen, hj.scheduled, hj.queue⟩, hj.authed, hj.pending, hj.inflight⟩,
        ⟨rfl, rfl, rfl, rfl⟩, rfl, rfl⟩

theorem readAck_authSuccess : readAck authSuccess = .ok ⟨"auth", true, "", ""⟩ := by rfl

theorem readAck_subscribeAnswer (success : Bool) (reqId : ReqId) :
    readAck (subscribeAnswer success reqId) = .ok ⟨"subscribe", success, "", reqId⟩ := by rfl

/-- The venue accepts the credentials, and the topics are sent. -/
theorem Toward.authenticates (h : Toward apiKey apiSecret w₀ w) (hw : w.Presented) (hf : w.writeInFlight = false) :
    ∃ w₁, Leads apiKey apiSecret w₀ 1 w w₁ ∧ w₁.Joined := by
  obtain ⟨p, hp, hs⟩ := h.reads hw.connected authSuccess (by rfl) readAck_authSuccess
  have hset : ((w.taken p).setAuthenticated w.generation).Up := ⟨hw.connected, hw.streamOpen, hw.scheduled, hw.queue⟩
  have hreturns : ((w.taken p).authAccepted w.generation).threw = false :=
    flushTopics_returns (w := (w.taken p).setAuthenticated w.generation) h.utf8
  obtain ⟨hj, hk⟩ := hset.flushTopics hf hw.inflight h.utf8 fun _ => ⟨rfl, rfl⟩
  obtain ⟨hj', hk', -, -⟩ := hj.readAgain w.generation
  have hkeeps : w.Keeps _ := ⟨hk.closed, hk.ran, hk.secured, hk.topics⟩
  rw [show (w.taken p).handleAck w.generation ⟨0, 0⟩ ⟨"auth", true, "", ""⟩ =
    (w.taken p).authAccepted w.generation from rfl, afterControlMsg, if_neg (by simp [hreturns])] at hs
  exact ⟨_, h.next hs ⟨⟨hw.queue, hf⟩, Or.inl rfl⟩ (hkeeps.trans hk'), hj'⟩

theorem Joined.noteAnswer (hj : w.Joined) (gen : ℕ) (success : Bool) :
    (w.noteAnswer gen success).Joined ∧ w.Keeps (w.noteAnswer gen success) ∧
      (w.noteAnswer gen success).books = w.books ∧
      (w.noteAnswer gen success).writeInFlight = w.writeInFlight := by
  unfold World.noteAnswer
  split
  · exact ⟨hj, ⟨rfl, rfl, rfl, rfl⟩, rfl, rfl⟩
  · exact ⟨⟨⟨hj.connected, hj.streamOpen, hj.scheduled, hj.queue⟩, hj.authed, hj.pending, hj.inflight⟩,
      ⟨rfl, rfl, rfl, rfl⟩, rfl, rfl⟩

/-- The venue accepts the subscribe op that is in flight, if there is one. -/
theorem Toward.confirms (h : Toward apiKey apiSecret w₀ w) (hw : w.Joined) (hf : w.writeInFlight = false) :
    ∃ w₁, Leads apiKey apiSecret w₀ 1 w w₁ ∧ w₁.Joined ∧ w₁.writeInFlight = false ∧
      w₁.books.inflightSubscribes = [] := by
  rcases hw.inflight with hin | ⟨op, hin⟩
  · exact ⟨w, h.stay 1, hw, hf, hin⟩
  obtain ⟨p, hp, hs⟩ := h.reads hw.connected (subscribeAnswer true op.1) (by rfl)
    (readAck_subscribeAnswer true op.1)
  have hacked : (w.books.ackSubscribe true op.1).inflightSubscribes = [] :=
    Books.inflight_ackSubscribe_head hin (Or.inl rfl) true
  have hv : ({ w.taken p with books := w.books.ackSubscribe true op.1 } : World).Joined :=
    ⟨⟨hw.connected, hw.streamOpen, hw.scheduled, hw.queue⟩, hw.authed, by simp [hw.pending], Or.inl hacked⟩
  have hkv : w.Keeps { w.taken p with books := w.books.ackSubscribe true op.1 } :=
    ⟨rfl, rfl, rfl, by simp [World.topics]⟩
  obtain ⟨hn, hkn, hbn, hfn⟩ := hv.noteAnswer w.generation true
  obtain ⟨hr, hkr, hbr, hfr⟩ := hn.readAgain w.generation
  have hC : w.Recovering (.complete p (.frame (some (subscribeAnswer true op.1))) ⟨0, 0⟩) :=
    ⟨⟨hw.queue, hf⟩, Or.inr ⟨op, by rw [hin]; rfl, rfl⟩⟩
  refine ⟨_, h.next hs hC (hkv.trans (hkn.trans hkr)), hr, hfr.trans (hfn.trans hf), ?_⟩
  exact (congrArg Books.inflightSubscribes (hbr.trans hbn)).trans hacked

end Stages

/-! ## The whole way -/

/-- The session serves again what it was asked for in `w₀`. -/
structure Restored (w₀ w : World) : Prop where
  connected : w.connected = true
  authenticated : w₀.authRequired = true → w.isAuthenticated = true
  written : w.AllWritten
  nothingPending : w.books.pendingTopics = []
  subscriptions : w.books.subscriptions = w₀.topics
  confirmed : ∀ topic, w.isSubscriptionConfirmed topic = w₀.isSubscribed topic

section Whole

variable {apiKey apiSecret : String} {w₀ w : World}

theorem Joined.restored (hj : w.Joined) (h : Toward apiKey apiSecret w₀ w) (hf : w.writeInFlight = false)
    (hin : w.books.inflightSubscribes = []) : w₀.Restored w := by
  have hsub : w.books.subscriptions = w₀.topics := by
    rw [← h.keeps.topics, World.topics, hj.pending, List.append_nil]
  refine ⟨hj.connected, fun hr => (hj.authed (h.keeps.secured.trans hr)).2, ⟨hj.queue, hf⟩, hj.pending, hsub,
    fun topic => ?_⟩
  simp [isSubscriptionConfirmed, Books.isSubscriptionConfirmed, hin, hsub, World.topics, isSubscribed,
    Books.isSubscribed]

/-- From the first operation of a connect chain on. -/
theorem Chaining.restores {k : Kind} (hch : Chaining k w) (h : Toward apiKey apiSecret w₀ w)
    (hk : k.isChain = true) : ∃ w', (session apiKey apiSecret).Within Recovering 8 w w' ∧ w₀.Restored w' := by
  obtain ⟨w₁, hl₁, hh⟩ := hch.handshake h hk
  obtain ⟨w₂, hl₂, hup⟩ := hl₁.toward.goesUp hh
  have joined : ∃ w₃, Leads apiKey apiSecret w₀ 2 w₂ w₃ ∧ w₃.Joined := by
    rcases hup with hp | hj
    · obtain ⟨pending, hl⟩ := hl₂.toward.drains hp.connected hp.queue
      obtain ⟨w₃, hl₃, hj⟩ := hl.toward.authenticates
        ⟨⟨hp.connected, hp.streamOpen, hp.scheduled, hp.queue⟩, hp.secured, hp.inflight⟩ rfl
      exact ⟨w₃, hl.trans hl₃, hj⟩
    · exact ⟨w₂, hl₂.toward.stay 2, hj⟩
  obtain ⟨w₃, hl₃, hj⟩ := joined
  obtain ⟨pending, hl₄⟩ := hl₃.toward.drains hj.connected hj.queue
  obtain ⟨w₅, hl₅, hj₅, hf, hin⟩ := hl₄.toward.confirms
    ⟨⟨hj.connected, hj.streamOpen, hj.scheduled, hj.queue⟩, hj.authed, hj.pending, hj.inflight⟩ rfl
  exact ⟨w₅, (((hl₁.trans hl₂).trans hl₃).trans (hl₄.trans hl₅)).within, hj₅.restored hl₅.toward hf hin⟩

/-- From a session that is not connected. -/
theorem Toward.restores (h : Toward apiKey apiSecret w₀ w) (hc : w.connected = false) :
    ∃ w', (session apiKey apiSecret).Within Recovering 9 w w' ∧ w₀.Restored w' := by
  have first : ∃ k w₁, Kind.isChain k = true ∧ Leads apiKey apiSecret w₀ 1 w w₁ ∧ Chaining k w₁ := by
    rcases (Loop.of_reach h.reached).stage h.closed with hi | hb
    · obtain ⟨w₁, hl, hch⟩ := h.begins hi
      exact ⟨.resolve, w₁, rfl, hl, hch⟩
    · rcases hb.stage with ⟨hs, -⟩ | hs | hs
      · have hone : (w.current fun p => p.kind.isChain) = 1 := hs.chain
        obtain ⟨p, hp, hg, hk⟩ := exists_pending (by rw [hone]; exact Nat.one_pos)
        exact ⟨p.kind, w, hk, h.stay 1, hc, hs.scheduled, p, hp, hg, rfl⟩
      · exact absurd hs.connected (by simp [life, hc])
      · obtain ⟨w₁, hl, hch⟩ := h.reconnects hs.scheduled
        exact ⟨.resolve, w₁, rfl, hl, hch⟩
  obtain ⟨k, w₁, hk, hl, hch⟩ := first
  obtain ⟨w', hw', hr⟩ := hch.restores hl.toward hk
  exact ⟨w', hl.within.trans hw', hr⟩

end Whole

end World

end BybitApi.Session
