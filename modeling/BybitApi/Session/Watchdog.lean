import BybitApi.Lib.Observer
import BybitApi.Session.Lifecycle

/-!
# The ping watchdog

A connection whose peer is gone, or that never gets its auth ack, is torn down by `onPingTimer`. How
soon is a matter of time, so the runs here are timed: an observer notes the latest reading of the
clock, when the ping wait was last armed and when the connection went up (`Timing`), and the
environment is one whose clock does not go back and that does not leave a ping wait that has expired
for longer than `late` (`World.Timely`).

`Beat` is what the watchdog looks at. A step leaves it calm, brings the connection up, or is a ping
wait that has passed both checks (`World.Beats`).

A pong that comes on the stream of an earlier generation counts as one of this connection: what is
bounded here is the age of the last pong on any stream.
-/

namespace BybitApi.Session

open Lib

/-- What an observer notes of the times of a session, in ms of the steady clock. -/
structure Timing where
  /-- The latest reading of the clock. -/
  time : ℕ
  /-- When the ping wait was last armed. -/
  armed : ℕ
  /-- When the connection last went up. -/
  up : ℕ
  deriving DecidableEq

/-- What the watchdog looks at. -/
structure Beat where
  connected : Bool
  /-- The auth ack is awaited. -/
  awaiting : Bool
  lastPong : ℕ
  deadline : Option ℕ
  deriving DecidableEq

/-- The reading of the clock that a step is given. -/
def Action.clock : Action → Option ℕ
  | .complete _ _ now => some now.steady
  | .control _ _ now => some now.steady
  | _ => none

/-- The connection was up before, its last pong is the one of before or comes now, and the deadline is
that of before while the auth ack is awaited. -/
structure Beat.Calm (now : Option ℕ) (b b' : Beat) : Prop where
  connected : b'.connected = true → b.connected = true
  lastPong : b'.connected = true → b'.lastPong = b.lastPong ∨ now = some b'.lastPong
  awaiting : b'.connected = true → b'.awaiting = true → b.awaiting = true ∧ b'.deadline = b.deadline

namespace Beat.Calm

variable {now : Option ℕ} {b b' b'' : Beat}

theorem of_eq (h : b' = b) : Beat.Calm now b b' := by
  subst h; exact ⟨id, fun _ => Or.inl rfl, fun _ ha => ⟨ha, rfl⟩⟩

/-- A connection that is down is none of the watchdog's business. -/
theorem of_down (h : b'.connected = false) : Beat.Calm now b b' := by
  refine ⟨?_, ?_, ?_⟩ <;> intro hc <;> rw [h] at hc <;> cases hc

theorem trans (h : Beat.Calm now b b') (h' : Beat.Calm now b' b'') : Beat.Calm now b b'' where
  connected := fun hc => h.connected (h'.connected hc)
  lastPong := fun hc => by
    rcases h'.lastPong hc with hl | hl
    · rw [hl]; exact h.lastPong (h'.connected hc)
    · exact Or.inr hl
  awaiting := fun hc ha => by
    obtain ⟨ha', hd'⟩ := h'.awaiting hc ha
    obtain ⟨ha'', hd⟩ := h.awaiting (h'.connected hc) ha'
    exact ⟨ha'', hd'.trans hd⟩

end Beat.Calm

namespace World

def beat (w : World) : Beat := ⟨w.connected, w.authRequired && !w.authenticated, w.lastPongTime, w.authDeadline⟩

/-! ## What does not move it -/

section Beat

variable {w v : World} {now : Option ℕ}

@[simp] theorem beat_pump (w : World) : w.pump.beat = w.beat := by
  unfold pump
  split
  · split <;> rfl
  · rfl

@[simp] theorem beat_sendOp (op : Op) (w : World) : (w.sendOp op).world.beat = w.beat := by
  unfold sendOp
  split
  · rw [beat_pump]; rfl
  · rfl

@[simp] theorem beat_flushTopics (w : World) : w.flushTopics.world.beat = w.beat := by
  unfold flushTopics
  split
  · rfl
  · split
    · rfl
    · rw [beat_sendOp]; rfl

@[simp] theorem beat_sendUnsubscribe (topic : Topic) (w : World) :
    (w.sendUnsubscribe topic).world.beat = w.beat := by
  unfold sendUnsubscribe
  split
  · rfl
  · rw [beat_sendOp]

@[simp] theorem beat_readAgain (gen : ℕ) (w : World) : (w.readAgain gen).beat = w.beat := by
  unfold readAgain
  split
  · rfl
  · split <;> rfl

@[simp] theorem beat_noteAnswer (gen : ℕ) (success : Bool) (w : World) :
    (w.noteAnswer gen success).beat = w.beat := by
  unfold noteAnswer; split <;> rfl

@[simp] theorem beat_closeByUser (w : World) : w.closeByUser.beat = w.beat := by
  unfold closeByUser
  split
  · rfl
  · unfold closeStream
    split
    · rfl
    · split <;> rfl

/-! ## The handlers -/

theorem calm_handleError (gen : ℕ) (w : World) : Beat.Calm now w.beat (w.handleError gen).beat := by
  unfold handleError
  split
  · exact .of_eq rfl
  · split
    · exact .of_eq rfl
    · exact .of_down rfl

theorem calm_startConnect (w : World) : Beat.Calm now w.beat w.startConnect.beat := by
  unfold startConnect
  split
  · exact .of_eq rfl
  · exact .of_down rfl

theorem calm_authAccepted (gen : ℕ) (w : World) : Beat.Calm now w.beat (w.authAccepted gen).world.beat := by
  unfold authAccepted
  rw [beat_flushTopics]
  refine ⟨id, fun _ => Or.inl rfl, fun _ ha => ?_⟩
  rw [show (w.setAuthenticated gen).beat.awaiting = (w.authRequired && !true) from rfl, Bool.not_true,
    Bool.and_false] at ha
  cases ha

theorem calm_handleAck (gen : ℕ) (now : Clock) (ack : Ack) (w : World) :
    Beat.Calm (some now.steady) w.beat (w.handleAck gen now ack).world.beat := by
  unfold handleAck
  split
  · exact ⟨id, fun _ => Or.inr rfl, fun _ ha => ⟨ha, rfl⟩⟩
  · split
    · split
      · exact calm_authAccepted gen w
      · exact calm_handleError gen (w.log (.authAck gen false))
    · split
      · rw [beat_noteAnswer]; exact .of_eq rfl
      · exact .of_eq rfl

theorem calm_afterControlMsg {ended : Ended} (h : Beat.Calm now w.beat ended.world.beat) (gen : ℕ) :
    Beat.Calm now w.beat (afterControlMsg gen ended).beat := by
  unfold afterControlMsg
  split
  · exact h.trans (calm_handleError gen ended.world)
  · rw [beat_readAgain]; exact h

theorem calm_onRead (gen : ℕ) (ec : Bool) (json : Option Json) (now : Clock) (w : World) :
    Beat.Calm (some now.steady) w.beat (w.onRead gen ec json now).beat := by
  unfold onRead
  split
  · exact calm_handleError gen w
  · split
    · exact calm_handleError gen w
    · split
      · next json' _ =>
        refine calm_afterControlMsg ?_ gen
        cases hack : readAck json' with
        | error e => rw [handleApiControlMsg_error hack]; exact .of_eq rfl
        | ok ack => rw [handleApiControlMsg_ok hack]; exact calm_handleAck gen now ack w
      · rw [beat_readAgain]; exact .of_eq rfl

theorem calm_onWrite (gen : ℕ) (ec : Bool) (w : World) : Beat.Calm now w.beat (w.onWrite gen ec).beat := by
  unfold onWrite
  split
  · exact calm_handleError gen w.writeDone
  · rw [beat_pump]; exact .of_eq rfl

/-- The operations that neither bring the connection up nor wait for the ping timer. -/
theorem calm_completion {kind : Kind} (hk : kind ≠ .handshake ∧ kind ≠ .pingTimer) (gen : ℕ) (r : Result)
    (now : Clock) (w : World) : Beat.Calm (some now.steady) w.beat (completion kind gen r now w).beat := by
  by_cases hg : gen = w.generation
  · unfold completion
    cases kind <;> simp only [hg, ne_eq, not_true_eq_false, if_false]
    case handshake => exact absurd rfl hk.1
    case pingTimer => exact absurd rfl hk.2
    case close => exact .of_eq rfl
    case resolve =>
      unfold onResolve; split
      · exact calm_handleError _ w
      · exact .of_eq rfl
    case connect =>
      unfold onConnect; split
      · exact calm_handleError _ w
      · split
        · exact calm_handleError _ w
        · exact .of_eq rfl
    case sslHandshake =>
      unfold onSSLHandshake; split
      · exact calm_handleError _ w
      · exact .of_eq rfl
    case read => exact calm_onRead _ r.ec r.json now w
    case write => exact calm_onWrite _ r.ec w
    case reconnectTimer =>
      unfold onReconnectTimer; split
      · exact .of_eq rfl
      · exact calm_startConnect w.unschedule
  · rw [completion_stale hg]
    exact .of_eq rfl

theorem calm_task (t : Task) (w : World) : Beat.Calm now w.beat ((w.begin t).runTask t).world.beat := by
  cases t with
  | startConnect => exact calm_startConnect (w.begin .startConnect)
  | flushTopics => exact .of_eq (beat_flushTopics (w.begin .flushTopics))
  | sendUnsubscribe topic => exact .of_eq (beat_sendUnsubscribe topic (w.begin (.sendUnsubscribe topic)))
  | closeByUser => exact .of_eq (beat_closeByUser (w.begin .closeByUser))

end Beat

/-! ## What a step does -/

/-- The completion of a handshake of this generation. -/
def goesUp (w : World) : Action → Bool
  | .complete p _ _ => p.gen = w.generation && p.kind = .handshake
  | _ => false

/-- A completion of this generation that leaves a ping wait armed if it leaves the connection up. -/
def arms (w : World) : Action → Bool
  | .complete p _ _ => p.gen = w.generation && (p.kind = .handshake || p.kind = .pingTimer)
  | _ => false

theorem arms_of_goesUp {w : World} {a : Action} (h : w.goesUp a = true) : w.arms a = true := by
  cases a <;> simp only [goesUp, Bool.and_eq_true, decide_eq_true_eq, Bool.false_eq_true] at h
  simp [arms, h.1, h.2]

/-- What a step of a session that is not closed means to the watchdog. -/
inductive Beats (w : World) (a : Action) (w' : World) : Prop
  | calm (h : Beat.Calm a.clock w.beat w'.beat) (ha : w'.connected = true → w.arms a = false)
  | up (now : ℕ) (hnow : a.clock = some now) (hup : w.goesUp a = true) (hl : w'.lastPongTime = now)
      (hd : w'.beat.awaiting = true → w'.authDeadline = some (now + authAckTimeoutInS * 1000))
  | pinged (now : ℕ) (hnow : a.clock = some now) (ha : w.arms a = true) (hup : w.goesUp a = false)
      (hc : w.connected = true) (hb : w'.beat = w.beat) (hage : (now - w.lastPongTime) / 1000 ≤ pongTimeoutInS)
      (hd : w.beat.awaiting = true → ∀ deadline, w.authDeadline = some deadline → now ≤ deadline)

section Step

variable {w w' : World} {p : Pending} {r : Result}

theorem handleError_down (hs : w.reconnectScheduled = false) (hc : w.userClosed = false) :
    (w.handleError w.generation).connected = false := by
  rw [handleError_current hs hc]; rfl

theorem lastPong_goUp (now : Clock) (w : World) : (w.goUp now).world.beat.lastPong = now.steady := by
  unfold goUp
  split
  · change (pump _).beat.lastPong = _
    rw [beat_pump]; rfl
  · rw [beat_flushTopics]; rfl

theorem deadline_goUp (now : Clock) (w : World) (ha : (w.goUp now).world.beat.awaiting = true) :
    (w.goUp now).world.beat.deadline = some (now.steady + authAckTimeoutInS * 1000) := by
  unfold goUp at ha ⊢
  split
  · change (pump _).beat.deadline = _
    rw [beat_pump]; rfl
  · next hreq =>
    rw [if_neg hreq, beat_flushTopics] at ha
    have hno : w.authRequired = false := (Bool.not_eq_true _).mp hreq
    have ha' : (w.authRequired && !w.authenticated) = true := ha
    rw [hno] at ha'
    cases ha'

/-- The handshake. -/
theorem beats_handshake (h : w.Loop) (hclosed : w.userClosed = false) (hp : p ∈ w.pending)
    (hg : p.gen = w.generation) (hk : p.kind = .handshake) (now : Clock) :
    w.Beats (.complete p r now) (completion p.kind p.gen r now (w.taken p)) := by
  obtain ⟨hs, -⟩ := (h.begun hclosed hp).connecting hp hg (by rw [hk]; rfl)
  have hg' : p.gen = (w.taken p).generation := hg
  simp only [completion, hk, hg', ne_eq, not_true_eq_false, if_false, onHandshake]
  split
  · have hdown := handleError_down (w := w.taken p) hs.scheduled hclosed
    exact .calm (.of_down hdown) fun hc => by rw [hdown] at hc; cases hc
  · rw [if_neg (by simp [taken, hclosed])]
    have hup : w.goesUp (.complete p r now) = true := by simp [goesUp, hg, hk]
    split <;> exact .up now.steady rfl hup (lastPong_goUp now (w.taken p)) (deadline_goUp now (w.taken p))

/-- The ping wait. -/
theorem beats_pingTimer (h : w.Loop) (hclosed : w.userClosed = false) (hp : p ∈ w.pending) (hf : r.fits p = true)
    (hg : p.gen = w.generation) (hk : p.kind = .pingTimer) (now : Clock) :
    w.Beats (.complete p r now) (completion p.kind p.gen r now (w.taken p)) := by
  have hg' : p.gen = (w.taken p).generation := hg
  have down : ∀ {v : World}, v.connected = false → w.Beats (.complete p r now) v := fun hv =>
    .calm (.of_down hv) fun hc => by rw [hv] at hc; cases hc
  simp only [completion, hk, hg', onPingTimer, ne_eq, not_true_eq_false, decide_false, Bool.or_false]
  by_cases hcon : w.connected = true
  swap
  · -- a wait of a connection that is down leaves it down
    have hdown : (w.taken p).connected = false := (Bool.not_eq_true _).mp hcon
    split
    · exact down hdown
    · split
      · exact down hdown
      · rw [if_neg (by simp [hdown])]
        exact down hdown
  have hl := h.live hclosed hcon
  -- a live ping wait was not cancelled, so it has expired
  have hec : r.ec = false := by
    have hcan : p.cancelled = false := by
      by_contra hcan
      have hpos := current_pos hp hg (q := fun p => p.kind = .pingTimer && p.cancelled)
        (by simp [hk, Bool.eq_true_of_not_eq_false hcan])
      exact absurd hl.deadPings (by simp only [life]; omega)
    cases r <;> simp_all [Result.fits, Result.ec, Kind.isTimer]
  have herr := handleError_down (w := w.taken p) hl.scheduled hclosed
  rw [if_neg (by simp [hec]), if_neg (by simp [taken, hclosed]), if_pos (by exact hcon)]
  split
  · exact down herr
  · next hage =>
    split
    · exact down herr
    · next hdead =>
      refine .pinged now.steady rfl (by simp [arms, hg, hk]) (by simp [goesUp, hk]) hcon ?_ ?_ ?_
      · change (pump _).beat = _
        rw [beat_pump]; rfl
      · exact Nat.not_lt.1 hage
      · intro ha deadline hd
        have hlate : ((w.taken p).authDeadline.any fun d => decide (d < now.steady)) = false := by
          have ha' : ((w.taken p).authRequired && !(w.taken p).authenticated) = true := ha
          rw [ha', Bool.true_and] at hdead
          exact (Bool.not_eq_true _).mp hdead
        rw [show (w.taken p).authDeadline = some deadline from hd] at hlate
        simpa using hlate

/-- **Every step** of a session that is not closed. -/
theorem beats_step {a : Action} (h : w.Loop) (hclosed : w.userClosed = false) (hs : step w a = some w') :
    w.Beats a w' := by
  cases a with
  | run f => obtain ⟨-, -, rfl⟩ := step_run hs; exact .calm (.of_eq rfl) fun _ => rfl
  | subscribe topic => obtain rfl := Option.some.inj hs; exact .calm (.of_eq rfl) fun _ => rfl
  | unsubscribe topic =>
    obtain rfl := Option.some.inj hs
    refine .calm (.of_eq ?_) fun _ => rfl
    unfold unsubscribe
    split <;> rfl
  | close => obtain rfl := Option.some.inj hs; exact .calm (.of_eq rfl) fun _ => rfl
  | task t =>
    obtain ⟨-, rfl⟩ := step_task hs
    exact .calm (calm_task t w) fun _ => rfl
  | complete p r now =>
    obtain ⟨hp, hf, rfl⟩ := step_complete hs
    by_cases hk : p.kind ≠ .handshake ∧ p.kind ≠ .pingTimer
    · exact .calm (calm_completion hk p.gen r now (w.taken p)) fun _ => by simp [arms, hk.1, hk.2]
    by_cases hg : p.gen = w.generation
    · by_cases hh : p.kind = .handshake
      · exact beats_handshake h hclosed hp hg hh now
      · exact beats_pingTimer h hclosed hp hf hg (by simpa [hh] using hk) now
    · rw [completion_stale (show p.gen ≠ (w.taken p).generation from hg)]
      exact .calm (.of_eq rfl) fun _ => by simp [arms, hg]
  | control gen isPong now =>
    obtain ⟨-, rfl⟩ := step_control hs
    refine .calm ?_ fun _ => rfl
    unfold controlCallback
    split
    · exact ⟨id, fun _ => Or.inr rfl, fun _ ha => ⟨ha, rfl⟩⟩
    · exact .of_eq rfl
  | streamCloses => obtain rfl := Option.some.inj hs; exact .calm (.of_eq rfl) fun _ => rfl

end Step

/-! ## Timed runs -/

/-- What the observer notes of a step. -/
def note (t : Timing) (w : World) (a : Action) (_ : World) : Timing :=
  match a.clock with
  | none => t
  | some now =>
    { time := now, armed := if w.arms a then now else t.armed, up := if w.goesUp a then now else t.up }

/-- A ping wait of this generation is outstanding. -/
def PingWaiting (w : World) : Prop :=
  ∃ p ∈ w.pending, p.gen = w.generation ∧ p.kind = .pingTimer ∧ p.cancelled = false

instance (w : World) : Decidable w.PingWaiting := by unfold PingWaiting; infer_instance

/-- The clock does not go back, and a ping wait that has expired is not left for longer than `late`. -/
def Timely (late : ℕ) (s : World × Timing) (a : Action) : Prop :=
  ∀ now, a.clock = some now →
    s.2.time ≤ now ∧ (s.1.PingWaiting → now ≤ s.2.armed + pingIntervalInS * 1000 + late)

instance (late : ℕ) (s : World × Timing) (a : Action) : Decidable (Timely late s a) := by
  unfold Timely
  cases h : a.clock with
  | none => exact isTrue fun now hnow => by cases hnow
  | some t =>
    exact decidable_of_iff
      (s.2.time ≤ t ∧ (s.1.PingWaiting → t ≤ s.2.armed + pingIntervalInS * 1000 + late))
      ⟨fun h' now hnow => by cases hnow; exact h', fun h' => h' t rfl⟩

end World

/-- The session, with its times noted. -/
def timed (apiKey apiSecret : String) : System (World × Timing) Action :=
  (session apiKey apiSecret).observe ⟨0, 0, 0⟩ World.note

namespace World

section Timed

variable {late : ℕ} {w w' : World} {t : Timing} {a : Action}

/-- The times of a connection that is up. -/
structure OnTime (late : ℕ) (w : World) (t : Timing) : Prop where
  armed : t.armed ≤ t.time
  time : t.time ≤ t.armed + pingIntervalInS * 1000 + late
  pong : w.lastPongTime ≤ t.time
  fresh : t.armed < w.lastPongTime + (pongTimeoutInS + 1) * 1000
  deadline : w.beat.awaiting = true →
    w.authDeadline = some (t.up + authAckTimeoutInS * 1000) ∧ t.armed ≤ t.up + authAckTimeoutInS * 1000

theorem pingWaiting_of_live (h : w.life.Live) : w.PingWaiting := by
  have hpos : 0 < w.current fun p => p.kind = .pingTimer := by
    rw [show (w.current fun p => p.kind = .pingTimer) = 1 from h.pings]; exact Nat.one_pos
  obtain ⟨p, hp, hq⟩ := List.countP_pos_iff.1 hpos
  simp only [Bool.and_eq_true, decide_eq_true_eq] at hq
  refine ⟨p, hp, hq.1, hq.2, ?_⟩
  by_contra hcan
  have hdead := current_pos hp hq.1 (q := fun p => p.kind = .pingTimer && p.cancelled)
    (by simp [hq.2, Bool.eq_true_of_not_eq_false hcan])
  exact absurd h.deadPings (by simp only [life]; omega)

/-- A calm step keeps the times. -/
theorem OnTime.calm (h : OnTime late w t) (hb : Beat.Calm a.clock w.beat w'.beat) (hc : w'.connected = true)
    (ha : w.arms a = false) (hC : Timely late (w, t) a) (hp : w.PingWaiting) :
    OnTime late w' (World.note t w a w') := by
  have hgo : w.goesUp a = false := by
    by_contra hgo
    rw [arms_of_goesUp ((Bool.not_eq_false _).mp hgo)] at ha
    cases ha
  have hlast := hb.lastPong hc
  have hwait : w'.beat.awaiting = true → w.beat.awaiting = true ∧ w'.authDeadline = w.authDeadline :=
    hb.awaiting hc
  have hdeadline : w'.beat.awaiting = true → w'.authDeadline = some (t.up + authAckTimeoutInS * 1000) ∧
      t.armed ≤ t.up + authAckTimeoutInS * 1000 := by
    intro haw
    obtain ⟨haw', hd⟩ := hwait haw
    rw [hd]
    exact h.deadline haw'
  have hbefore := h.armed
  cases hclock : a.clock with
  | none =>
    have hl : w'.lastPongTime = w.lastPongTime := by
      rcases hlast with hl | hl
      · exact hl
      · rw [hclock] at hl; cases hl
    simp only [World.note, hclock]
    exact ⟨h.armed, h.time, hl.trans_le h.pong, by rw [hl]; exact h.fresh, hdeadline⟩
  | some now =>
    obtain ⟨hmono, hlate⟩ := hC now hclock
    have hl : w'.lastPongTime = w.lastPongTime ∨ w'.lastPongTime = now := by
      rcases hlast with hl | hl
      · exact Or.inl hl
      · exact Or.inr (Option.some.inj (hl.symm.trans hclock))
    have hpong := h.pong
    have hfresh := h.fresh
    simp only at hmono
    simp only [World.note, hclock, ha, hgo, Bool.false_eq_true, if_false]
    have hgrows : w.lastPongTime ≤ w'.lastPongTime := by
      rcases hl with hl | hl <;> omega
    refine ⟨?_, hlate hp, ?_, hfresh.trans_le (Nat.add_le_add_right hgrows _), hdeadline⟩ <;> dsimp only
    · omega
    · rcases hl with hl | hl <;> omega

/-- **A step keeps the times.** -/
theorem OnTime.step (h : w.connected = true → OnTime late w t) (hl : w.Loop) (hclosed : w.userClosed = false)
    (hC : Timely late (w, t) a) (hs : step w a = some w') (hc : w'.connected = true) :
    OnTime late w' (World.note t w a w') := by
  rcases beats_step hl hclosed hs with ⟨hb, ha⟩ | ⟨now, hnow, hup, hlast, hd⟩ |
    ⟨now, hnow, ha, hup, hcon, hb, hage, hd⟩
  · have hcon : w.connected = true := hb.connected hc
    exact (h hcon).calm hb hc (ha hc) hC (pingWaiting_of_live (hl.live hclosed hcon))
  · simp only [World.note, hnow, arms_of_goesUp hup, hup, if_true]
    exact ⟨le_rfl, by dsimp only; omega, hlast.le, by rw [hlast]; exact Nat.lt_add_of_pos_right (by decide),
      fun haw => ⟨hd haw, Nat.le_add_right _ _⟩⟩
  · obtain ⟨hmono, -⟩ := hC now hnow
    have hpong := (h hcon).pong
    have hl' : w'.lastPongTime = w.lastPongTime := congrArg Beat.lastPong hb
    simp only at hmono
    simp only [World.note, hnow, ha, hup, if_true, Bool.false_eq_true, if_false]
    refine ⟨le_rfl, by dsimp only; omega, ?_, ?_, fun haw => ?_⟩ <;> dsimp only
    · omega
    · omega
    · have haw' : w.beat.awaiting = true := by rw [← hb]; exact haw
      obtain ⟨hdeadline, -⟩ := (h hcon).deadline haw'
      exact ⟨(congrArg Beat.deadline hb).trans hdeadline, hd haw' _ hdeadline⟩

end Timed

end World

end BybitApi.Session
