import Mathlib.Data.List.Count
import BybitApi.Session.Step

/-!
# The life of a connection

`Life` is what the connect/reconnect loop of a session can be in, without books, queue and clocks:
the flags, and how many operations of the current generation are outstanding. The handlers act on it
through three moves (an operation is started, a timer is cancelled, a completion is taken), and
every frame lemma below says that the rest of a handler does not move it at all.

`Life.Near` is what every handler but `closeByUser` keeps. A session that is closed stays shut.
-/

namespace BybitApi.Session

open Lib

structure Life where
  generation : ℕ
  connected : Bool
  scheduled : Bool
  closed : Bool
  ran : Bool
  /-- The generation that made the stream. -/
  stream : Option ℕ
  /-- `startConnect` tasks that have not run. -/
  starts : ℕ
  /-- Outstanding operations of the current generation: of the connect chain, reads, ping waits and
  those of them that were cancelled, reconnect waits and those of them that were cancelled. -/
  chain : ℕ
  reads : ℕ
  pings : ℕ
  deadPings : ℕ
  waits : ℕ
  deadWaits : ℕ
  /-- Outstanding operations of a later generation. -/
  ahead : ℕ

namespace Life

/-- An operation of the current generation is started. -/
def start (k : Kind) (l : Life) : Life :=
  { l with
    chain := l.chain + if k.isChain then 1 else 0
    reads := l.reads + if k = .read then 1 else 0
    pings := l.pings + if k = .pingTimer then 1 else 0
    waits := l.waits + if k = .reconnectTimer then 1 else 0 }

/-- The waits on a timer are cancelled. -/
def cancel (k : Kind) (l : Life) : Life :=
  { l with
    deadPings := if k = .pingTimer then l.pings else l.deadPings
    deadWaits := if k = .reconnectTimer then l.waits else l.deadWaits }

/-- A completion of the current generation is taken from those outstanding. -/
def take (p : Pending) (l : Life) : Life :=
  { l with
    chain := l.chain - if p.kind.isChain then 1 else 0
    reads := l.reads - if p.kind = .read then 1 else 0
    pings := l.pings - if p.kind = .pingTimer then 1 else 0
    deadPings := l.deadPings - if p.kind = .pingTimer && p.cancelled then 1 else 0
    waits := l.waits - if p.kind = .reconnectTimer then 1 else 0
    deadWaits := l.deadWaits - if p.kind = .reconnectTimer && p.cancelled then 1 else 0 }

/-- The stream is that of the current generation. -/
def Matched (l : Life) : Prop := ∀ g, l.stream = some g → g = l.generation

end Life

namespace World

/-- How many outstanding operations of the current generation pass the test `q`. -/
def current (w : World) (q : Pending → Bool) : ℕ := w.pending.countP fun p => p.gen = w.generation && q p

def life (w : World) : Life where
  generation := w.generation
  connected := w.connected
  scheduled := w.reconnectScheduled
  closed := w.userClosed
  ran := w.ran
  stream := w.ws.map Stream.gen
  starts := w.tasks.count .startConnect
  chain := w.current fun p => p.kind.isChain
  reads := w.current fun p => p.kind = .read
  pings := w.current fun p => p.kind = .pingTimer
  deadPings := w.current fun p => p.kind = .pingTimer && p.cancelled
  waits := w.current fun p => p.kind = .reconnectTimer
  deadWaits := w.current fun p => p.kind = .reconnectTimer && p.cancelled
  ahead := w.pending.countP fun p => w.generation < p.gen

/-! ## The moves -/

theorem current_start (k : Kind) (w : World) (q : Pending → Bool) :
    (w.start k).current q = w.current q + if q ⟨k, w.generation, false⟩ then 1 else 0 := by
  simp only [current, start, List.countP_append, List.countP_singleton, decide_true, Bool.true_and]
  rfl

@[simp] theorem life_start (k : Kind) (w : World) : (w.start k).life = w.life.start k := by
  have ahead : (w.start k).life.ahead = w.life.ahead := by
    simp only [life, World.start, List.countP_append, List.countP_singleton, Nat.lt_irrefl, decide_false]
    rfl
  have rest := fun q => current_start k w q
  simp only [life, Life.start, Life.mk.injEq, rest] at ahead ⊢
  refine ⟨rfl, rfl, rfl, rfl, rfl, rfl, rfl, ?_, ?_, ?_, ?_, ?_, ?_, ahead⟩ <;> simp

theorem current_cancel (k : Kind) (w : World) (q : Pending → Bool) :
    (w.cancel k).current q = w.current fun p => q (if p.kind = k then { p with cancelled := true } else p) := by
  simp only [current, cancel, List.countP_map]
  refine List.countP_congr fun p _ => ?_
  by_cases h : p.kind = k <;> simp [h]

@[simp] theorem life_cancel (k : Kind) (w : World) : (w.cancel k).life = w.life.cancel k := by
  have ahead : (w.cancel k).life.ahead = w.life.ahead := by
    simp only [life, World.cancel, List.countP_map]
    refine List.countP_congr fun p _ => ?_
    by_cases h : p.kind = k <;> simp [h]
  have kinds : ∀ t : Kind → Bool, ((w.cancel k).current fun p => t p.kind) = w.current fun p => t p.kind := by
    intro t
    rw [current_cancel]
    congr 1
    funext p
    by_cases h : p.kind = k <;> simp [h]
  have dead : ∀ t : Kind, ((w.cancel k).current fun p => decide (p.kind = t) && p.cancelled) =
      if k = t then w.current fun p => decide (p.kind = t)
      else w.current fun p => decide (p.kind = t) && p.cancelled := by
    intro t
    rw [current_cancel]
    by_cases ht : k = t
    · subst ht
      rw [if_pos rfl]
      congr 1
      funext p
      by_cases h : p.kind = k <;> simp [h]
    · rw [if_neg ht]
      congr 1
      funext p
      by_cases h : p.kind = k <;> simp [h, ht]
  simp only [life, Life.cancel, Life.mk.injEq] at ahead ⊢
  exact ⟨rfl, rfl, rfl, rfl, rfl, rfl, rfl, kinds _, kinds fun j => decide (j = .read),
    kinds fun j => decide (j = .pingTimer), dead _, kinds fun j => decide (j = .reconnectTimer), dead _, ahead⟩

@[simp] theorem life_arm (k : Kind) (w : World) : (w.arm k).life = (w.life.cancel k).start k := by
  simp [arm]

theorem current_taken {p : Pending} {w : World} (hp : p ∈ w.pending) (q : Pending → Bool) :
    (w.taken p).current q = w.current q - if p.gen = w.generation && q p then 1 else 0 := by
  simp only [current, taken, List.countP_erase, hp, true_and]
  rfl

theorem ahead_taken {w : World} (p : Pending) (h : w.life.ahead = 0) : (w.taken p).life.ahead = 0 := by
  have : (w.taken p).life.ahead ≤ w.life.ahead := List.Sublist.countP_le List.erase_sublist
  omega

theorem life_taken {p : Pending} {w : World} (hp : p ∈ w.pending) (hg : p.gen = w.generation) :
    (w.taken p).life = w.life.take p := by
  have h := fun q => current_taken hp q
  have ha : (w.taken p).life.ahead = w.life.ahead := by
    simp only [life, taken, List.countP_erase, hg, Nat.lt_irrefl, decide_false]
    simp
    rfl
  simp only [life, Life.take, Life.mk.injEq] at ha ⊢
  simp only [h, ha, hg]
  exact ⟨rfl, rfl, rfl, rfl, rfl, rfl, rfl, by simp, by simp, by simp, by simp, by simp, by simp, trivial⟩

/-- A stale completion is not one of those counted. -/
theorem life_taken_stale {p : Pending} {w : World} (hp : p ∈ w.pending) (hg : p.gen ≠ w.generation)
    (h : w.life.ahead = 0) : (w.taken p).life = w.life := by
  have hc : ∀ q, (w.taken p).current q = w.current q := fun q => by simp [current_taken hp, hg]
  have ha : (w.taken p).life.ahead = w.life.ahead := by rw [ahead_taken p h, h]
  simp only [life, Life.mk.injEq] at ha ⊢
  exact ⟨rfl, rfl, rfl, rfl, rfl, rfl, rfl, hc _, hc _, hc _, hc _, hc _, hc _, ha⟩

/-! ## What does not move it -/

@[simp] theorem life_log (e : Event) (w : World) : (w.log e).life = w.life := rfl

theorem life_post {t : Task} (ht : t ≠ .startConnect) (w : World) : (w.post t).life = w.life := by
  have h : (w.tasks ++ [t]).count .startConnect = w.tasks.count .startConnect := by simp [ht]
  exact congrArg (fun n => { w.life with starts := n }) h

/-- A task other than `startConnect` is taken without a trace in the life. -/
theorem life_begin {t : Task} (ht : t ≠ .startConnect) (w : World) : (w.begin t).life = w.life := by
  have h : (w.tasks.erase t).count .startConnect = w.tasks.count .startConnect :=
    List.count_erase_of_ne ht.symm
  exact congrArg (fun n => { w.life with starts := n }) h

@[simp] theorem life_writeDone (w : World) : w.writeDone.life = w.life := rfl

@[simp] theorem life_enqueueOp (op : Op) (w : World) : (w.enqueueOp op).life = w.life := rfl

theorem life_start_write (w : World) : (w.start .write).life = w.life := by
  rw [life_start]; rfl

@[simp] theorem life_pump (w : World) : w.pump.life = w.life := by
  unfold pump
  split
  · split
    · rfl
    · rw [life_log, life_start_write]; rfl
  · rfl

@[simp] theorem life_sendOp (op : Op) (w : World) : (w.sendOp op).world.life = w.life := by
  unfold sendOp
  split
  · exact (life_pump _).trans (life_enqueueOp op w)
  · rfl

@[simp] theorem life_flushTopics (w : World) : w.flushTopics.world.life = w.life := by
  unfold flushTopics
  split
  · rfl
  · split
    · rfl
    · rw [life_sendOp]; rfl

@[simp] theorem life_sendAuth (now : Clock) (w : World) : (w.sendAuth now).life = w.life := by
  unfold sendAuth
  rw [life_pump]; rfl

@[simp] theorem life_sendUnsubscribe (topic : Topic) (w : World) :
    (w.sendUnsubscribe topic).world.life = w.life := by
  unfold sendUnsubscribe
  split
  · rfl
  · rw [life_sendOp]

@[simp] theorem life_authAccepted (gen : ℕ) (w : World) : (w.authAccepted gen).world.life = w.life := by
  unfold authAccepted
  rw [life_flushTopics]; rfl

@[simp] theorem life_noteAnswer (gen : ℕ) (success : Bool) (w : World) :
    (w.noteAnswer gen success).life = w.life := by
  unfold noteAnswer; split <;> rfl

/-- The stream changes its state, and stays the stream of its generation. -/
theorem gen_opened (ws : Option Stream) : (ws.map Stream.opened).map Stream.gen = ws.map Stream.gen := by
  cases ws <;> rfl

theorem gen_closed (ws : Option Stream) : (ws.map Stream.closed).map Stream.gen = ws.map Stream.gen := by
  cases ws <;> rfl

theorem life_ws {ws : Option Stream} {w : World} (h : ws.map Stream.gen = w.ws.map Stream.gen) :
    ({ w with ws := ws } : World).life = w.life :=
  congrArg (fun s => { w.life with stream := s }) h

theorem life_setConnected (now : Clock) (w : World) :
    (w.setConnected now).life =
      ((({ w.life with connected := true } : Life).cancel .pingTimer).start .pingTimer) := by
  unfold setConnected
  rw [life_arm]
  exact congrArg (fun s => (Life.cancel .pingTimer { w.life with connected := true, stream := s }).start .pingTimer)
    (gen_opened w.ws)

theorem life_goUp (now : Clock) (w : World) :
    (w.goUp now).world.life = ((({ w.life with connected := true } : Life).cancel .pingTimer).start .pingTimer) := by
  unfold goUp
  split <;> simp [life_setConnected]

theorem life_teardown (w : World) :
    w.teardown.life = ((({ w.life with scheduled := true, connected := false } : Life).cancel .pingTimer).cancel
      .reconnectTimer).start .reconnectTimer := by
  unfold teardown
  rw [life_arm, life_cancel]
  rfl

theorem life_closeStream (w : World) :
    w.closeStream.life = w.life ∨ w.closeStream.life = w.life.start .close := by
  unfold closeStream
  split
  · exact Or.inl rfl
  · next ws hws =>
    split
    · right
      rw [life_start, life_ws (by rw [hws]; rfl)]
    · exact Or.inl rfl

theorem closed_closeStream (w : World) : w.setClosed.closeStream.userClosed = true := by
  rcases life_closeStream w.setClosed with h | h <;> exact congrArg Life.closed h

theorem matched_closeStream {w : World} (h : w.life.Matched) : w.setClosed.closeStream.life.Matched := by
  have hs : w.setClosed.life.Matched := by
    unfold setClosed
    rw [life_cancel, life_cancel]; exact h
  rcases life_closeStream w.setClosed with hl | hl <;> rw [hl] <;> exact hs

theorem ahead_closeStream {w : World} (h : w.life.ahead = 0) : w.setClosed.closeStream.life.ahead = 0 := by
  have hs : w.setClosed.life.ahead = w.life.ahead := by
    unfold setClosed
    rw [life_cancel, life_cancel]; rfl
  rcases life_closeStream w.setClosed with hl | hl <;> rw [hl] <;> exact hs.trans h

/-! ## A new generation -/

theorem gen_le_of_ahead {w : World} (h : w.life.ahead = 0) : ∀ p ∈ w.pending, p.gen ≤ w.generation := by
  simpa [life, List.countP_eq_zero] using h

theorem ahead_eq_zero {w : World} (h : ∀ p ∈ w.pending, p.gen ≤ w.generation) : w.life.ahead = 0 := by
  simpa [life, List.countP_eq_zero] using h

/-- No operation of a generation that has just begun is outstanding. -/
theorem current_nextGeneration {w : World} (h : w.life.ahead = 0) (q : Pending → Bool) :
    w.nextGeneration.current q = 0 := by
  have hle := gen_le_of_ahead h
  simp only [current, List.countP_eq_zero, Bool.and_eq_true, decide_eq_true_eq, not_and]
  intro p hp hg
  have hp' : p.gen ≤ w.generation := hle p hp
  have hg' : p.gen = w.generation + 1 := hg
  omega

theorem ahead_nextGeneration {w : World} (h : w.life.ahead = 0) : w.nextGeneration.life.ahead = 0 := by
  refine ahead_eq_zero fun p hp => ?_
  have hp' : p.gen ≤ w.generation := gen_le_of_ahead h p hp
  change p.gen ≤ w.generation + 1
  omega

/-! ## While the connection is down -/

theorem pump_of_down {w : World} (h : w.connected = false) : w.pump = w := by
  unfold pump
  split
  · rw [if_pos (by simp [h])]
  · rfl

theorem flushTopics_of_down {w : World} (h : w.connected = false) : w.flushTopics = ⟨w, false⟩ := by
  unfold flushTopics
  rw [if_pos (by simp [h])]

/-- A flush that throws has found the session connected. -/
theorem connected_of_threw {w : World} (h : w.flushTopics.threw = true) : w.connected = true := by
  by_contra hd
  rw [flushTopics_of_down ((Bool.not_eq_true _).mp hd)] at h
  cases h

theorem sendUnsubscribe_of_down {w : World} (topic : Topic) (h : w.connected = false) :
    w.sendUnsubscribe topic = ⟨w, false⟩ := by
  unfold sendUnsubscribe
  rw [if_pos (by simp [h])]

/-! ## `handleError` -/

theorem handleError_of_scheduled {w : World} (gen : ℕ) (h : w.reconnectScheduled = true) :
    w.handleError gen = w := by
  unfold handleError
  rw [if_pos (by simp [h])]

theorem handleError_of_closed {w : World} (gen : ℕ) (h : w.userClosed = true) : w.handleError gen = w := by
  unfold handleError
  split <;> simp_all

theorem handleError_current {w : World} (hs : w.reconnectScheduled = false) (hc : w.userClosed = false) :
    w.handleError w.generation = w.teardown := by
  unfold handleError
  rw [if_neg (by simp [hs]), if_neg (by simp [hc])]

theorem ahead_teardown {w : World} (h : w.life.ahead = 0) : w.teardown.life.ahead = 0 := by
  rw [life_teardown]; exact h

theorem startConnect_open {w : World} (hc : w.userClosed = false) :
    w.startConnect = w.nextGeneration.start .resolve := by
  unfold startConnect
  rw [if_neg (by simp [hc])]

/-! ## What every handler keeps -/

end World

/-- What every handler but `closeByUser` keeps. A session that is closed does not begin a generation
and does not go up. -/
structure Life.Near (l l' : Life) : Prop where
  closed : l'.closed = l.closed
  ahead : l.ahead = 0 → l'.ahead = 0
  matched : l.Matched → l'.Matched
  shut : l.closed = true → l'.generation = l.generation ∧ l'.connected = l.connected

namespace Life.Near

variable {l l' l'' : Life}

theorem of_eq (h : l' = l) : l.Near l' := by
  subst h; exact ⟨rfl, id, id, fun _ => ⟨rfl, rfl⟩⟩

theorem trans (h : l.Near l') (h' : l'.Near l'') : l.Near l'' where
  closed := h'.closed.trans h.closed
  ahead := fun ha => h'.ahead (h.ahead ha)
  matched := fun hm => h'.matched (h.matched hm)
  shut := fun hc => by
    obtain ⟨h₁, h₂⟩ := h.shut hc
    obtain ⟨h₃, h₄⟩ := h'.shut (h.closed.trans hc)
    exact ⟨h₃.trans h₁, h₄.trans h₂⟩

theorem start (k : Kind) (l : Life) : l.Near (l.start k) := ⟨rfl, id, id, fun _ => ⟨rfl, rfl⟩⟩

theorem cancel (k : Kind) (l : Life) : l.Near (l.cancel k) := ⟨rfl, id, id, fun _ => ⟨rfl, rfl⟩⟩

end Life.Near

namespace World

theorem near_handleError (gen : ℕ) (w : World) : w.life.Near (w.handleError gen).life := by
  by_cases hc : w.userClosed = true
  · rw [handleError_of_closed gen hc]; exact .of_eq rfl
  · unfold handleError
    split
    · exact .of_eq rfl
    · exact ⟨by rw [life_teardown]; rfl, ahead_teardown, by rw [life_teardown]; exact id, fun h => absurd h hc⟩

theorem near_startConnect (w : World) : w.life.Near w.startConnect.life := by
  unfold startConnect
  split
  · exact .of_eq rfl
  · next hc =>
    rw [life_start]
    exact ⟨rfl, ahead_nextGeneration, fun _ _ hg => (Option.some.inj hg).symm, fun h => absurd h hc⟩

theorem near_readAgain (gen : ℕ) (w : World) : w.life.Near (w.readAgain gen).life := by
  unfold readAgain
  split
  · exact .of_eq rfl
  · rw [life_start]
    split <;> exact .start _ _

theorem near_onHandshake (gen : ℕ) (ec : Bool) (now : Clock) (w : World) :
    w.life.Near (w.onHandshake gen ec now).world.life := by
  unfold onHandshake
  split
  · exact near_handleError gen w
  · split
    · exact .of_eq (life_ws (gen_opened w.ws))
    · next hc =>
      have hup : w.life.Near (w.goUp now).world.life := by
        rw [life_goUp]
        exact ⟨rfl, id, id, fun h => absurd h hc⟩
      split
      · exact hup
      · rw [life_start]
        exact hup.trans (.start _ _)

theorem near_onPingTimer (gen : ℕ) (ec : Bool) (now : Clock) (w : World) :
    w.life.Near (w.onPingTimer gen ec now).life := by
  have harm : ∀ w' : World, w'.life = w.life → w.life.Near (w'.arm .pingTimer).life := by
    intro w' h
    rw [life_arm, h]
    exact (Life.Near.cancel _ _).trans (.start _ _)
  unfold onPingTimer
  split
  · exact .of_eq rfl
  · split
    · exact .of_eq rfl
    · split
      · split
        · exact near_handleError gen w
        · split
          · exact near_handleError gen w
          · exact harm _ (by rw [life_pump, life_enqueueOp])
      · exact harm _ rfl

/-! ## The completions -/

/-- A completion of the current generation is one of those counted. -/
theorem current_pos {w : World} {p : Pending} (hp : p ∈ w.pending) (hg : p.gen = w.generation)
    {q : Pending → Bool} (hq : q p = true) : 0 < w.current q :=
  List.countP_pos_iff.2 ⟨p, hp, by simp [hg, hq]⟩

/-- The two things an ack can lead to, as far as the loop is concerned. -/
theorem handleAck_cases (gen : ℕ) (now : Clock) (ack : Ack) (w : World) :
    (w.handleAck gen now ack).world.life = w.life ∨
      ∃ w₁ : World, w₁.life = w.life ∧ w.handleAck gen now ack = ⟨w₁.handleError gen, false⟩ := by
  unfold handleAck
  split
  · exact Or.inl rfl
  · split
    · split
      · exact Or.inl (life_authAccepted gen w)
      · exact Or.inr ⟨_, life_log _ _, rfl⟩
    · split
      · exact Or.inl (by rw [life_noteAnswer]; rfl)
      · exact Or.inl rfl

theorem life_handleAck_threw {gen : ℕ} {now : Clock} {ack : Ack} {w : World}
    (h : (w.handleAck gen now ack).threw = true) : (w.handleAck gen now ack).world.life = w.life := by
  rcases handleAck_cases gen now ack w with hl | ⟨w₁, -, he⟩
  · exact hl
  · rw [he] at h
    cases h

/-- What a read can lead to: the next read, a teardown, or (an auth failure) a teardown at which the
read loop ends. -/
theorem onRead_cases (gen : ℕ) (ec : Bool) (json : Option Json) (now : Clock) (w : World) :
    ∃ w₁ : World, w₁.life = w.life ∧
      (w.onRead gen ec json now = w₁.handleError gen ∨ w.onRead gen ec json now = w₁.readAgain gen ∨
        w.onRead gen ec json now = (w₁.handleError gen).readAgain gen) := by
  unfold onRead
  split
  · exact ⟨w, rfl, Or.inl rfl⟩
  · split
    · exact ⟨w, rfl, Or.inl rfl⟩
    · split
      · cases hack : readAck ‹Json› with
        | error e =>
          rw [handleApiControlMsg_error hack]
          exact ⟨w, rfl, Or.inl rfl⟩
        | ok ack =>
          rw [handleApiControlMsg_ok hack]
          rcases handleAck_cases gen now ack w with h | ⟨w₁, h, h'⟩
          · refine ⟨_, h, ?_⟩
            unfold afterControlMsg
            split
            · exact Or.inl rfl
            · exact Or.inr (Or.inl rfl)
          · exact ⟨w₁, h, Or.inr (Or.inr (by rw [h']; rfl))⟩
      · exact ⟨w, rfl, Or.inr (Or.inl rfl)⟩

theorem near_onRead (gen : ℕ) (ec : Bool) (json : Option Json) (now : Clock) (w : World) :
    w.life.Near (w.onRead gen ec json now).life := by
  obtain ⟨w₁, hl, hcase⟩ := onRead_cases gen ec json now w
  rw [← hl]
  rcases hcase with he | he | he
  · rw [he]; exact near_handleError gen w₁
  · rw [he]; exact near_readAgain gen w₁
  · rw [he]; exact (near_handleError gen w₁).trans (near_readAgain gen _)

theorem near_completion (kind : Kind) (gen : ℕ) (r : Result) (now : Clock) (w : World) :
    w.life.Near (completion kind gen r now w).life := by
  have hstart : ∀ k (w' : World), w'.life = w.life → w.life.Near (w'.start k).life := by
    intro k w' h
    rw [life_start, h]
    exact .start _ _
  have herr := near_handleError gen w
  unfold completion
  split
  case h_7 => exact near_onPingTimer gen r.ec now w
  case h_9 => exact .of_eq rfl
  all_goals split
  all_goals first | exact .of_eq rfl | skip
  · unfold onResolve; split
    · exact herr
    · exact hstart _ _ rfl
  · unfold onConnect; split
    · exact herr
    · split
      · exact herr
      · exact hstart _ _ rfl
  · unfold onSSLHandshake; split
    · exact herr
    · exact hstart _ _ rfl
  · exact near_onHandshake gen r.ec now w
  · exact near_onRead gen r.ec r.json now w
  · unfold onWrite; split
    · exact near_handleError gen w.writeDone
    · exact .of_eq (by rw [life_pump, life_writeDone])
  · unfold onReconnectTimer; split
    · exact ⟨rfl, id, id, fun _ => ⟨rfl, rfl⟩⟩
    · have hun : w.life.Near w.unschedule.life := ⟨rfl, id, id, fun _ => ⟨rfl, rfl⟩⟩
      exact hun.trans (near_startConnect w.unschedule)

/-- The guard `gen != generation`: the completion handler of an earlier generation returns at once. -/
theorem completion_stale {kind : Kind} {gen : ℕ} {w : World} (h : gen ≠ w.generation) (r : Result)
    (now : Clock) : completion kind gen r now w = w := by
  unfold completion onPingTimer
  cases kind <;> simp [h]

theorem readAgain_of_scheduled {w : World} (gen : ℕ) (h : w.reconnectScheduled = true) :
    w.readAgain gen = w := by
  unfold readAgain
  rw [if_pos (by simp [h])]

/-- The next read of a connection that is up. -/
theorem life_readAgain {w : World} (hc : w.connected = true) (hs : w.reconnectScheduled = false) :
    (w.readAgain w.generation).life = w.life.start .read := by
  unfold readAgain
  rw [if_neg (by simp [hc, hs]), life_start]
  split <;> rfl

/-! ## A closed session -/

/-- A step from a closed session begins no generation and does not bring the connection up. -/
theorem near_of_closed {a : Action} {w' : World} (hs : step w a = some w') (hc : w.userClosed = true) :
    w'.userClosed = true ∧ w'.generation = w.generation ∧ w'.connected = w.connected := by
  cases a with
  | run f => obtain ⟨-, -, rfl⟩ := step_run hs; exact ⟨hc, rfl, rfl⟩
  | subscribe topic => obtain rfl := Option.some.inj hs; exact ⟨hc, rfl, rfl⟩
  | unsubscribe topic =>
    obtain rfl := Option.some.inj hs
    unfold unsubscribe
    split <;> exact ⟨hc, rfl, rfl⟩
  | close => obtain rfl := Option.some.inj hs; exact ⟨hc, rfl, rfl⟩
  | task t =>
    obtain ⟨-, rfl⟩ := step_task hs
    have hc' : (w.begin t).userClosed = true := hc
    cases t with
    | startConnect =>
      have h := near_startConnect (w.begin .startConnect)
      exact ⟨h.closed.trans hc', h.shut hc'⟩
    | flushTopics =>
      have h := life_flushTopics (w.begin .flushTopics)
      exact ⟨(congrArg Life.closed h).trans hc, congrArg Life.generation h, congrArg Life.connected h⟩
    | sendUnsubscribe topic =>
      have h := life_sendUnsubscribe topic (w.begin (.sendUnsubscribe topic))
      exact ⟨(congrArg Life.closed h).trans hc, congrArg Life.generation h, congrArg Life.connected h⟩
    | closeByUser =>
      have h : closeByUser (w.begin .closeByUser) = w.begin .closeByUser := if_pos hc
      change (closeByUser _).userClosed = true ∧ _
      rw [runTask, h]
      exact ⟨hc, rfl, rfl⟩
  | complete p r now =>
    obtain ⟨-, -, rfl⟩ := step_complete hs
    have h := near_completion p.kind p.gen r now (w.taken p)
    exact ⟨h.closed.trans hc, h.shut hc⟩
  | control gen isPong now =>
    obtain ⟨-, rfl⟩ := step_control hs
    unfold controlCallback
    split <;> exact ⟨hc, rfl, rfl⟩
  | streamCloses => obtain rfl := Option.some.inj hs; exact ⟨hc, rfl, rfl⟩

/-- A session that is not closed was not closed before. -/
theorem open_of_step {a : Action} {w' : World} (hs : step w a = some w') (hc' : w'.userClosed = false) :
    w.userClosed = false := by
  by_contra hclosed
  have hstill := (near_of_closed hs ((Bool.not_eq_false _).mp hclosed)).1
  rw [hstill] at hc'
  cases hc'

/-- After `closeByUser`, along any continuation of the run. -/
theorem shut_of_closed {apiKey apiSecret : String} {w w' : World} (hc : w.userClosed = true)
    (h : Relation.ReflTransGen ((session apiKey apiSecret).Next System.Free) w w') :
    w'.userClosed = true ∧ w'.generation = w.generation ∧ w'.connected = w.connected := by
  induction h with
  | refl => exact ⟨hc, rfl, rfl⟩
  | tail _ hn ih =>
    obtain ⟨a, -, hs⟩ := hn
    obtain ⟨h₁, h₂, h₃⟩ := near_of_closed hs ih.1
    exact ⟨h₁, h₂.trans ih.2.1, h₃.trans ih.2.2⟩

end World

end BybitApi.Session
