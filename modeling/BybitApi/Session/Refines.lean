import BybitApi.Session.Lifecycle
import BybitApi.Session.Line

/-!
# A session refines its line

`World.line` forgets what the line does not have. A step of the session is then a sequence of moves:
at most one that answers to what set the step off (`World.cause`), which comes first, and internal
ones after it. The guards of the line's moves are where the loop invariant is used.
-/

namespace BybitApi.Session

open Lib Relation

/-- The topic of an unsubscribe sender. -/
def Task.sender : Task → Option Topic
  | .sendUnsubscribe topic => some topic
  | _ => none

/-- The move an ack stands for. -/
def Ack.move (ack : Ack) : Option Move :=
  if ack.operation = "pong" || ack.retMsg = "pong" then none
  else if ack.operation = "auth" then some (.authAck ack.success)
  else if ack.operation = "subscribe" then some (.subscribeAck ack.success ack.reqId)
  else none

namespace World

def phase (w : World) : Phase :=
  if w.connected then .up
  else if w.reconnectScheduled || w.userClosed || w.generation = 0 then .down
  else .opening

def line (w : World) : Line where
  secured := w.authRequired
  conn := w.generation
  phase := w.phase
  authed := w.authenticated
  flag := w.authenticatedFlag
  books := w.books
  queue := w.outboundQueue
  senders := w.tasks.filterMap Task.sender
  trace := w.trace

/-- The op ack that an action brings: a read of the current generation completes with one. -/
def ackOf (w : World) : Action → Option Ack
  | .complete ⟨.read, gen, _⟩ (.frame (some json)) _ =>
    if gen = w.generation && json.isObject && isApiControlMsg json then (readAck json).toOption else none
  | _ => none

/-- The move that an action is the cause of. -/
def cause (w : World) : Action → Option Move
  | .run topic | .subscribe topic => some (.request topic)
  | .unsubscribe topic => some (.withdraw topic)
  | .task t => t.sender.map .sendUnsubscribe
  | a => (w.ackOf a).bind Ack.move

/-- An ack stands for no move of a caller's or of a task. -/
theorem isAck_move {ack : Ack} {m : Move} (h : ack.move = some m) :
    (∃ success, m = .authAck success) ∨ ∃ success reqId, m = .subscribeAck success reqId := by
  unfold Ack.move at h
  split at h
  · cases h
  · split at h
    · exact Or.inl ⟨_, (Option.some.inj h).symm⟩
    · split at h
      · exact Or.inr ⟨_, _, (Option.some.inj h).symm⟩
      · cases h

theorem cause_sendUnsubscribe {w : World} {a : Action} {topic : Topic}
    (h : w.cause a = some (.sendUnsubscribe topic)) : a = .task (.sendUnsubscribe topic) := by
  cases a with
  | task t => cases t <;> simp_all [cause, Task.sender]
  | complete p r now =>
    obtain ⟨ack, -, hmove⟩ := Option.bind_eq_some_iff.1 h
    rcases isAck_move hmove with ⟨_, hm⟩ | ⟨_, _, hm⟩ <;> cases hm
  | _ => cases h

theorem cause_withdraw {w : World} {a : Action} {topic : Topic} (h : w.cause a = some (.withdraw topic)) :
    a = .unsubscribe topic := by
  cases a with
  | unsubscribe t => simp_all [cause]
  | task t => cases t <;> simp_all [cause, Task.sender]
  | complete p r now =>
    obtain ⟨ack, -, hmove⟩ := Option.bind_eq_some_iff.1 h
    rcases isAck_move hmove with ⟨_, hm⟩ | ⟨_, _, hm⟩ <;> cases hm
  | _ => cases h

/-! ## Phases -/

theorem phase_up {w : World} (h : w.connected = true) : w.phase = .up := by
  unfold phase
  rw [if_pos h]

theorem phase_down {w : World} (h : w.connected = false)
    (hd : w.reconnectScheduled = true ∨ w.userClosed = true ∨ w.generation = 0) : w.phase = .down := by
  unfold phase
  rw [if_neg (by simp [h]), if_pos (by simpa [or_assoc] using hd)]

theorem phase_opening {w : World} (h : w.connected = false) (hs : w.reconnectScheduled = false)
    (hc : w.userClosed = false) (hg : 0 < w.generation) : w.phase = .opening := by
  unfold phase
  rw [if_neg (by simp [h]), if_neg (by simp [hs, hc]; omega)]

theorem phase_up_iff {w : World} : w.phase = .up ↔ w.connected = true := by
  constructor
  · intro h
    by_contra hc
    unfold phase at h
    rw [if_neg hc] at h
    split at h <;> cases h
  · exact phase_up

theorem phase_not_up {w : World} (h : w.connected = false) : w.phase = .down ∨ w.phase = .opening := by
  unfold phase
  rw [if_neg (by simp [h])]
  split
  · exact Or.inl rfl
  · exact Or.inr rfl

theorem phase_closed {w : World} (hc : w.userClosed = true) : w.phase ≠ .opening := by
  by_cases h : w.connected = true
  · rw [phase_up h]; simp
  · rw [phase_down (by simpa using h) (Or.inr (Or.inl hc))]; simp

/-- A read of the current generation completes when the connection has gone up. -/
theorem Loop.phase_of_read {w : World} {p : Pending} (h : w.Loop) (hp : p ∈ w.pending)
    (hg : p.gen = w.generation) (hk : p.kind = .read) : w.phase ≠ .opening := by
  by_cases hc : w.userClosed = true
  · exact phase_closed hc
  · have hb := h.begun ((Bool.not_eq_true _).mp hc) hp
    rcases hb.live_or_waiting hp hg (Or.inl hk) with hs | hs
    · rw [phase_up hs.connected]; simp
    · rw [phase_down hs.connected (Or.inl hs.scheduled)]; simp

/-- A closed session has no reconnect to come. -/
theorem line_unschedule {w : World} (hc : w.userClosed = true) : w.unschedule.line = w.line := by
  have h : w.unschedule.phase = w.phase := by
    by_cases hcon : w.connected = true
    · exact (phase_up (w := w.unschedule) hcon).trans (phase_up hcon).symm
    · have hcon' : w.connected = false := by simpa using hcon
      have hd : w.unschedule.phase = .down := phase_down hcon' (Or.inr (Or.inl hc))
      rw [hd, phase_down hcon' (Or.inr (Or.inl hc))]
  rw [line, h]
  rfl

theorem line_noteAnswer (success : Bool) (w : World) :
    (w.noteAnswer w.generation success).line = w.line.noteAnswer success := by
  have hsame : unanswered w.line.conn w.line.trace = unanswered w.generation w.trace := rfl
  unfold noteAnswer Line.noteAnswer
  rw [hsame]
  cases unanswered w.generation w.trace <;> rfl

@[simp] theorem line_readAgain (gen : ℕ) (w : World) : (w.readAgain gen).line = w.line := by
  unfold readAgain
  split
  · rfl
  · split <;> rfl

/-! ## The tasks -/

theorem senders_erase (t : Task) (tasks : List Task) :
    (tasks.erase t).filterMap Task.sender =
      match t.sender with
      | none => tasks.filterMap Task.sender
      | some topic => (tasks.filterMap Task.sender).erase topic := by
  induction tasks with
  | nil => cases t <;> rfl
  | cons u tasks ih =>
    by_cases hu : u = t
    · subst hu
      rw [List.erase_cons_head, List.filterMap_cons]
      cases u <;> simp [Task.sender]
    · rw [List.erase_cons_tail (by simpa using hu), List.filterMap_cons, List.filterMap_cons, ih]
      cases t <;> cases u <;> simp_all [Task.sender]

theorem line_begin {t : Task} {w : World} (ht : t.sender = none) : (w.begin t).line = w.line := by
  have h := senders_erase t w.tasks
  rw [ht] at h
  exact congrArg (fun s => { w.line with senders := s }) h

theorem line_begin_sender (topic : Topic) (w : World) :
    (w.begin (.sendUnsubscribe topic)).line = { w.line with senders := w.line.senders.erase topic } :=
  congrArg (fun s => { w.line with senders := s }) (senders_erase (.sendUnsubscribe topic) w.tasks)

theorem line_post_plain {t : Task} (ht : t.sender = none) (w : World) : (w.post t).line = w.line := by
  have h : (w.tasks ++ [t]).filterMap Task.sender = w.tasks.filterMap Task.sender := by simp [ht]
  exact congrArg (fun s => { w.line with senders := s }) h

theorem line_unsubscribe (topic : Topic) (w : World) :
    (w.unsubscribe topic).line = w.line.after (.withdraw topic) := by
  unfold unsubscribe
  split
  · next hr =>
    have h : (w.tasks ++ [Task.sendUnsubscribe topic]).filterMap Task.sender =
        w.tasks.filterMap Task.sender ++ [topic] := by
      rw [List.filterMap_append]; rfl
    rw [Line.after, if_pos (show (w.line.books.removeTopic topic).1 = true from hr)]
    exact congrArg (fun s => { (w.removeTopic topic).line with senders := s }) h
  · next hr =>
    rw [Line.after, if_neg (show ¬ (w.line.books.removeTopic topic).1 = true from hr)]
    rfl

theorem unschedule_eq_self {w : World} (h : w.reconnectScheduled = false) : w.unschedule = w := by
  unfold unschedule
  rw [← h]

/-! ## Paths -/

section Paths

variable {secured : Bool} {E : Line → Move → Prop}

/-- A sequence of moves that meet `E`. -/
abbrev Path (secured : Bool) (E : Line → Move → Prop) : Line → Line → Prop :=
  ReflTransGen ((Line.system secured).Next E)

theorem Path.of_eq {l l' : Line} (h : l' = l) : Path secured E l l' := by
  subst h; exact ReflTransGen.refl

theorem Path.move {l l' : Line} {m : Move} (hE : E l m) (he : l.Enabled m) (h : l' = l.after m) :
    Path secured E l l' :=
  ReflTransGen.single ⟨m, hE, by rw [h]; exact if_pos he⟩

/-- A move, and a path from where it leads. -/
theorem Path.cons {l l' l'' : Line} {m : Move} (hE : E l m) (he : l.Enabled m) (h : l' = l.after m)
    (hp : Path secured E l' l'') : Path secured E l l'' :=
  ReflTransGen.trans (Path.move hE he h) hp

variable (hE : ∀ l m, m.isInternal = true → E l m)
include hE

theorem path_pump {w : World} (hm : w.life.Matched) : Path secured E w.line w.pump.line := by
  unfold pump
  split
  · next ws frame rest hws hq =>
    split
    · exact .of_eq rfl
    · next hg =>
      have hgen : ws.gen = w.generation := hm ws.gen (by simp [life, hws])
      simp only [Bool.or_eq_true, Bool.not_eq_true', not_or, Bool.not_eq_false] at hg
      refine .move (m := .write) (hE _ _ rfl) (phase_up hg.1.2) ?_
      have hq' : w.line.queue = frame :: rest := hq
      simp only [Line.after, Line.writeHead, hq', hgen]
      rfl
  · exact .of_eq rfl

theorem path_flushTopics {w : World} (hm : w.life.Matched) : Path secured E w.line w.flushTopics.world.line := by
  unfold flushTopics
  split
  · exact .of_eq rfl
  · next hg =>
    simp only [Bool.or_eq_true, Bool.not_eq_true', Bool.and_eq_true, not_or, Bool.not_eq_false, not_and] at hg
    split
    · exact .of_eq rfl
    · next hp =>
      unfold sendOp
      split
      · exact .cons (m := .flush) (hE _ _ rfl) ⟨phase_up hg.1, hg.2, hp⟩ rfl
          (path_pump hE (w := w.flushBooks.enqueueOp w.subscribeOp) hm)
      · next hu =>
        exact .move (m := .flushThrows) (hE _ _ rfl) ⟨phase_up hg.1, hg.2, (Bool.not_eq_true _).mp hu⟩ rfl

/-- `handleError` of the current generation. Where it tears down, the line has been opened. -/
theorem path_handleError {w : World} (gen : ℕ) (hg : w.userClosed = false → 0 < w.generation) :
    Path secured E w.line (w.handleError gen).line := by
  unfold handleError
  split
  · exact .of_eq rfl
  · next hs =>
    split
    · exact .of_eq rfl
    · next hc =>
      simp only [Bool.or_eq_true, not_or, Bool.not_eq_true] at hs hc
      refine .move (m := .teardown w.reconnectDelayS) (hE _ _ rfl) ?_ rfl
      change w.phase ≠ .down
      by_cases hcon : w.connected = true
      · rw [phase_up hcon]; simp
      · rw [phase_opening (by simpa using hcon) hs.2 hc (hg hc)]; simp

/-- `startConnect`, at the reconnect or as the task that `run()` posted: no reconnect is scheduled
then. -/
theorem path_startConnect {w : World} (hd : w.userClosed = false → w.phase = .down) :
    Path secured E w.line w.unschedule.startConnect.line := by
  unfold startConnect
  split
  · next hc => exact .of_eq (line_unschedule hc)
  · next hc =>
    have hc' : w.userClosed = false := (Bool.not_eq_true _).mp hc
    have hopen : (w.unschedule.nextGeneration.start .resolve).phase = .opening :=
      phase_opening rfl rfl hc' (Nat.succ_pos w.generation)
    refine .move (m := .start) (hE _ _ rfl) (hd hc') ?_
    rw [line, hopen]
    rfl

theorem path_goUp {w : World} (now : Clock) (hm : w.life.Matched) (ho : w.phase = .opening) :
    Path secured E w.line (w.goUp now).world.line := by
  have hm' : (w.setConnected now).life.Matched := by rw [life_setConnected]; exact hm
  unfold goUp
  split
  · next hr =>
    refine .cons (m := .goUp w.apiKey (now.wall + authExpiresOffsetInMs)
      (w.apiSecret, s!"GET/realtime{now.wall + authExpiresOffsetInMs}")) (hE _ _ rfl) ho ?_ (path_pump hE hm')
    exact (if_pos hr : w.line.after (.goUp _ _ _) = _).symm
  · next hr =>
    refine .cons (m := .goUp "" 0 ("", "")) (hE _ _ rfl) ho ?_ (path_flushTopics hE hm')
    exact (if_neg hr : w.line.after (.goUp _ _ _) = _).symm

/-! ### The handlers -/

theorem path_handleAck {w : World} {ack : Ack} (now : Clock) (hm : w.life.Matched)
    (hg : w.userClosed = false → 0 < w.generation) (ho : w.phase ≠ .opening)
    (hcause : ∀ m, ack.move = some m → E w.line m) :
    Path secured E w.line (w.handleAck w.generation now ack).world.line := by
  unfold handleAck
  unfold Ack.move at hcause
  split
  · exact .of_eq rfl
  · next hp =>
    rw [if_neg hp] at hcause
    split
    · next ha =>
      rw [if_pos ha] at hcause
      have hE' := hcause _ rfl
      split
      · next hs =>
        rw [hs] at hE'
        exact .cons (m := .authAck true) hE' ho rfl (path_flushTopics hE (w := w.setAuthenticated w.generation) hm)
      · next hs =>
        rw [Bool.not_eq_true] at hs
        rw [hs] at hE'
        exact .cons (m := .authAck false) hE' ho rfl
          (path_handleError hE (w := w.log (.authAck w.generation false)) w.generation hg)
    · next ha =>
      rw [if_neg ha] at hcause
      split
      · next hs =>
        rw [if_pos hs] at hcause
        refine .move (m := .subscribeAck ack.success ack.reqId) (hcause _ rfl) ho ?_
        exact line_noteAnswer ack.success { w with books := w.books.ackSubscribe ack.success ack.reqId }
      · exact .of_eq rfl

theorem path_onRead {w : World} (ec : Bool) (json : Option Json) (now : Clock) (hm : w.life.Matched)
    (hg : w.userClosed = false → 0 < w.generation) (ho : w.phase ≠ .opening)
    (hcause : ∀ j ack m, ec = false → json = some j → (j.isObject && isApiControlMsg j) = true →
      readAck j = .ok ack → ack.move = some m → E w.line m) :
    Path secured E w.line (w.onRead w.generation ec json now).line := by
  have herr : Path secured E w.line (w.handleError w.generation).line := path_handleError hE w.generation hg
  unfold onRead
  split
  · exact herr
  · next hec =>
    split
    · exact herr
    · next j =>
      split
      · next hj =>
        cases ha : readAck j with
        | error e =>
          rw [handleApiControlMsg_error ha]
          exact herr
        | ok ack =>
          rw [handleApiControlMsg_ok ha]
          have hpath : Path secured E w.line (w.handleAck w.generation now ack).world.line :=
            path_handleAck hE now hm hg ho fun m hmove =>
              hcause j ack m ((Bool.not_eq_true _).mp hec) rfl hj ha hmove
          unfold afterControlMsg
          split
          · next hthrew =>
            -- the flush after a success auth ack threw, and `onRead` tears the connection down
            have hl := life_handleAck_threw hthrew
            refine hpath.trans (path_handleError hE _ fun hc => ?_)
            exact (hg ((congrArg Life.closed hl).symm.trans hc)).trans_eq (congrArg Life.generation hl).symm
          · rw [line_readAgain]
            exact hpath
      · exact .of_eq (line_readAgain _ w)

theorem path_onPingTimer {w : World} (ec : Bool) (now : Clock) (hm : w.life.Matched)
    (hg : w.userClosed = false → 0 < w.generation) :
    Path secured E w.line (w.onPingTimer w.generation ec now).line := by
  unfold onPingTimer
  split
  · exact .of_eq rfl
  · split
    · exact .of_eq rfl
    · split
      · next hc =>
        split
        · exact path_handleError hE w.generation hg
        · split
          · exact path_handleError hE w.generation hg
          · exact .cons (m := .ping) (hE _ _ rfl) (phase_up hc) rfl (path_pump hE (w := w.enqueueOp .ping) hm)
      · exact .of_eq rfl

theorem path_closeByUser (w : World) : Path secured E w.line w.closeByUser.line := by
  unfold closeByUser
  split
  · exact .of_eq rfl
  · have hline : w.setClosed.closeStream.line = { w.line with phase := w.setClosed.phase } := by
      unfold closeStream
      split
      · rfl
      · split <;> rfl
    rw [hline]
    by_cases hcon : w.connected = true
    · rw [phase_up (w := w.setClosed) hcon, ← phase_up hcon]
      exact .of_eq rfl
    · have hcon' : w.connected = false := (Bool.not_eq_true _).mp hcon
      rw [phase_down (w := w.setClosed) hcon' (Or.inr (Or.inl rfl))]
      rcases phase_not_up hcon' with hd | ho
      · rw [← hd]; exact .of_eq rfl
      · exact .move (m := .abandon) (hE _ _ rfl) ho rfl

/-! ### The steps -/

theorem path_complete {w : World} {p : Pending} {r : Result} (now : Clock) (h : w.Loop) (hp : p ∈ w.pending)
    (hf : r.fits p) (hcause : ∀ m, w.cause (.complete p r now) = some m → E w.line m) :
    Path secured E w.line (completion p.kind p.gen r now (w.taken p)).line := by
  by_cases hgen : p.gen = w.generation
  swap
  · rw [completion_stale (show p.gen ≠ (w.taken p).generation from hgen)]
    exact .of_eq rfl
  have hg : (w.taken p).userClosed = false → 0 < (w.taken p).generation := fun hc => (h.begun hc hp).generation
  have hm : (w.taken p).life.Matched := h.matched
  have herr : Path secured E (w.taken p).line ((w.taken p).handleError (w.taken p).generation).line :=
    path_handleError hE _ hg
  have hgen' : p.gen = (w.taken p).generation := hgen
  unfold completion
  cases hk : p.kind <;> simp only [hgen', ne_eq, not_true_eq_false, if_false]
  case resolve =>
    unfold onResolve
    split
    · exact herr
    · exact .of_eq rfl
  case connect =>
    unfold onConnect
    split
    · exact herr
    · split
      · exact herr
      · exact .of_eq rfl
  case sslHandshake =>
    unfold onSSLHandshake
    split
    · exact herr
    · exact .of_eq rfl
  case handshake =>
    unfold onHandshake
    split
    · exact herr
    · split
      · exact .of_eq rfl
      · next hc =>
        have hc' : w.userClosed = false := (Bool.not_eq_true _).mp hc
        have hb := h.begun hc' hp
        obtain ⟨hs, -⟩ := hb.connecting hp hgen (by rw [hk]; rfl)
        have hpath : Path secured E (w.taken p).line ((w.taken p).goUp now).world.line :=
          path_goUp hE now hm (phase_opening hs.connected hs.scheduled hc' hb.generation)
        split <;> exact hpath
  case read =>
    refine path_onRead hE (w := w.taken p) r.ec r.json now hm hg (h.phase_of_read hp hgen hk)
      fun j ack m hec hj hapi hack hmove => hcause m ?_
    obtain ⟨kind, gen, cancelled⟩ := p
    cases r with
    | frame json =>
      obtain rfl : json = some j := hj
      obtain rfl : kind = .read := hk
      have hapi' : (gen = w.generation && j.isObject && isApiControlMsg j) = true := by
        rw [Bool.and_assoc, hapi]
        simpa using hgen
      simp only [cause, ackOf, hapi', if_true, hack]
      exact hmove
    | failed => cases hj
    | done => cases hj
    | sniRefused => cases hj
  case write =>
    unfold onWrite
    split
    · exact path_handleError hE (w := (w.taken p).writeDone) _ hg
    · exact path_pump hE (w := (w.taken p).writeDone) hm
  case pingTimer => exact path_onPingTimer hE (w := w.taken p) r.ec now hm hg
  case reconnectTimer =>
    have hdown : (w.taken p).userClosed = false → (w.taken p).phase = .down := fun hc => by
      have hs := (h.begun hc hp).waiting hp hgen hk
      exact phase_down hs.connected (Or.inl hs.scheduled)
    unfold onReconnectTimer
    split
    · next hr =>
      -- a wait that fails belongs to a closed session
      have hc : (w.taken p).userClosed = true := by
        by_contra hc
        have hc' : w.userClosed = false := (Bool.not_eq_true _).mp hc
        have hec := (h.begun hc' hp).reconnect_done hp hf hgen hk
        simp [hec, taken, hc'] at hr
      exact .of_eq (line_unschedule hc)
    · exact path_startConnect hE (w := w.taken p) hdown
  case close => exact .of_eq rfl

theorem path_task {w : World} {t : Task} (h : w.Loop) (ht : t ∈ w.tasks)
    (hcause : ∀ m, w.cause (.task t) = some m → E w.line m) :
    Path secured E w.line ((w.begin t).runTask t).world.line := by
  cases t with
  | startConnect =>
    have hline : (w.begin .startConnect).line = w.line := line_begin rfl
    by_cases hc : w.userClosed = true
    · refine .of_eq (Eq.trans ?_ hline)
      exact congrArg line (if_pos hc : (w.begin .startConnect).startConnect = w.begin .startConnect)
    · have hc' : w.userClosed = false := (Bool.not_eq_true _).mp hc
      rcases h.stage hc' with hi | hb
      · have hun : (w.begin .startConnect).unschedule = w.begin .startConnect :=
          unschedule_eq_self hi.scheduled
        have hpath : Path secured E (w.begin .startConnect).line
            (w.begin .startConnect).unschedule.startConnect.line :=
          path_startConnect hE fun _ => phase_down hi.connected (Or.inr (Or.inr hi.generation))
        rw [hun, hline] at hpath
        exact hpath
      · exact absurd hb.starts (Nat.ne_of_gt (List.count_pos_iff.2 ht))
  | flushTopics =>
    have hpath : Path secured E (w.begin .flushTopics).line (w.begin .flushTopics).flushTopics.world.line :=
      path_flushTopics hE h.matched
    rwa [line_begin rfl] at hpath
  | sendUnsubscribe topic =>
    have hmem : topic ∈ w.line.senders := List.mem_filterMap.2 ⟨_, ht, rfl⟩
    have hE' := hcause _ rfl
    have hbegin := line_begin_sender topic w
    change Path secured E w.line (sendUnsubscribe topic _).world.line
    unfold sendUnsubscribe
    split
    · next hd =>
      refine .move hE' hmem ?_
      have hph : w.line.phase ≠ .up := fun hup => by simp [phase_up_iff.1 hup, begin] at hd
      rw [Line.after, if_neg fun h => hph h.1]
      exact hbegin
    · next hu =>
      rw [Bool.not_eq_true', Bool.not_eq_false] at hu
      have hph : w.line.phase = .up := phase_up hu
      have hop : (Op.unsubscribe [topic]).isUtf8 = topic.isUtf8 := by simp [Op.isUtf8]
      unfold sendOp
      rw [hop]
      split
      · next hutf =>
        refine .cons hE' hmem ?_ (path_pump hE (w := (w.begin (.sendUnsubscribe topic)).enqueueOp _) h.matched)
        rw [Line.after, if_pos ⟨hph, hutf⟩, ← hbegin]
        rfl
      · next hutf =>
        refine .move hE' hmem ?_
        rw [Line.after, if_neg fun h => hutf h.2]
        exact hbegin
  | closeByUser =>
    have hpath : Path secured E (w.begin .closeByUser).line (w.begin .closeByUser).closeByUser.line :=
      path_closeByUser hE _
    rwa [line_begin rfl] at hpath

/-- **Refinement.** A step of the session is the move it is the cause of, if any, and internal moves. -/
theorem refines {w w' : World} {a : Action} (h : w.Loop) (hs : step w a = some w')
    (hcause : ∀ m, w.cause a = some m → E w.line m) : Path secured E w.line w'.line := by
  cases a with
  | run f =>
    obtain ⟨-, -, rfl⟩ := step_run hs
    refine .move (m := .request f) (hcause _ rfl) trivial ?_
    exact line_post_plain rfl (w.addTopic f)
  | subscribe topic =>
    obtain rfl := Option.some.inj hs
    refine .move (m := .request topic) (hcause _ rfl) trivial ?_
    exact line_post_plain rfl (w.addTopic topic)
  | unsubscribe topic =>
    obtain rfl := Option.some.inj hs
    refine .move (m := .withdraw topic) (hcause _ rfl) trivial ?_
    exact line_unsubscribe topic w
  | close =>
    obtain rfl := Option.some.inj hs
    exact .of_eq (line_post_plain rfl w)
  | task t =>
    obtain ⟨ht, rfl⟩ := step_task hs
    exact path_task hE h ht hcause
  | complete p r now =>
    obtain ⟨hp, hf, rfl⟩ := step_complete hs
    exact path_complete hE now h hp hf hcause
  | control gen isPong now =>
    obtain ⟨-, rfl⟩ := step_control hs
    unfold controlCallback
    split <;> exact .of_eq rfl
  | streamCloses =>
    obtain rfl := Option.some.inj hs
    exact .of_eq rfl

end Paths

/-- The lines of the sessions that runs meeting `C` reach are reached by moves meeting `E`, if `C`
makes `E` hold of the moves that actions are the cause of. -/
theorem line_of_reach {apiKey apiSecret : String} {C : World → Action → Prop} {E : Line → Move → Prop}
    (hE : ∀ l m, m.isInternal = true → E l m)
    (hC : ∀ w a m, (session apiKey apiSecret).Reach C w → C w a → w.cause a = some m → E w.line m) {w : World}
    (h : (session apiKey apiSecret).Reach C w) :
    (Line.system (World.init apiKey apiSecret).authRequired).Reach E w.line :=
  h.simulate line rfl fun w a _ hr hc hs => refines hE (Loop.of_reach hr) hs fun m => hC w a m hr hc

/-- A request comes of a call. -/
theorem asksUtf8_cause {w : World} {a : Action} {m : Move} (h : a.AsksUtf8) (hm : w.cause a = some m) :
    w.line.AsksUtf8 m := by
  cases a with
  | run topic | subscribe topic =>
    obtain rfl := Option.some.inj hm
    exact h
  | unsubscribe topic =>
    obtain rfl := Option.some.inj hm
    trivial
  | task t =>
    obtain ⟨topic, -, rfl⟩ := Option.map_eq_some_iff.1 hm
    trivial
  | complete p r now =>
    obtain ⟨ack, -, hmove⟩ := Option.bind_eq_some_iff.1 hm
    rcases isAck_move hmove with ⟨_, rfl⟩ | ⟨_, _, rfl⟩ <;> trivial
  | _ => cases hm

/-- The line of any session that is reached. -/
theorem line_of_reach_free {apiKey apiSecret : String} {C : World → Action → Prop} {w : World}
    (h : (session apiKey apiSecret).Reach C w) :
    (Line.system (World.init apiKey apiSecret).authRequired).Reach System.Free w.line :=
  line_of_reach (fun _ _ _ => trivial) (fun _ _ _ _ _ _ => trivial) h

end World

end BybitApi.Session
