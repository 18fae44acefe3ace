import BybitApi.Lib.Observer
import BybitApi.Session.Refines

/-!
# Runs with their acks

The history of a session tells what the session did and not which acks made it do so: the req_id an
ack carried, and the op it was booked to. A *watched* session is the session with an observer that
writes these down between the events of the history, as marks. The line of a watched session is a
watched line (`World.watched_line`), so what its marks say is proved over the moves of the line.
-/

namespace BybitApi.Session

open Lib Relation

/-- An event, or a subscribe ack that was processed on connection `gen` and booked to `op`. -/
inductive Mark where
  | event (e : Event)
  | ack (gen : ℕ) (success : Bool) (reqId : ReqId) (op : Option (ReqId × List Topic))
  deriving DecidableEq

/-- The events of a history that were not there before, latest first. -/
def news (before after : List Event) : List Event := after.take (after.length - before.length)

@[simp] theorem news_append (new past : List Event) : news past (new ++ past) = new := by
  simp [news]

@[simp] theorem news_self (past : List Event) : news past past = [] := news_append [] past

@[simp] theorem news_cons (e : Event) (past : List Event) : news past (e :: past) = [e] :=
  news_append [e] past

/-- A subscribe op is enqueued. -/
def Event.isSubscribe : Event → Bool
  | enqueued frame => frame.op.isSubscribe
  | _ => false

def Move.isSubscribeAck : Move → Bool
  | subscribeAck _ _ => true
  | _ => false

namespace Line

/-- The mark of the ack that a move is. -/
def ackMarks (l : Line) : Move → List Mark
  | .subscribeAck success reqId => [.ack l.conn success reqId (l.books.ackedOp reqId)]
  | _ => []

/-- What the observer of a line writes down: the ack, then the events it led to. -/
def mark (marks : List Mark) (l : Line) (m : Move) (l' : Line) : List Mark :=
  (news l.trace l'.trace).map .event ++ (l.ackMarks m ++ marks)

def watched (secured : Bool) : System (Line × List Mark) Move := (system secured).observe [] mark

section Moves

variable {l l' l₁ : Line} {m : Move} {marks : List Mark}

theorem ackMarks_of_not_ack (hm : m.isSubscribeAck = false) : l.ackMarks m = [] := by
  cases m <;> first | rfl | cases hm

theorem marked_same {I : Line → List Mark → Prop} (hm : m.isSubscribeAck = false) (ht : l'.trace = l.trace)
    (h : I l' marks) : I l' (mark marks l m l') := by
  have hmark : mark marks l m l' = marks := by simp [mark, ackMarks_of_not_ack hm, ht]
  rw [hmark]
  exact h

theorem marked_log {I : Line → List Mark → Prop} {e : Event} (hm : m.isSubscribeAck = false)
    (ht : l₁.trace = l.trace) (h : I (l₁.log e) (.event e :: marks)) :
    I (l₁.log e) (mark marks l m (l₁.log e)) := by
  have hmark : mark marks l m (l₁.log e) = .event e :: marks := by
    simp [mark, ackMarks_of_not_ack hm, log, ht]
  rw [hmark]
  exact h

theorem trace_after (l : Line) (m : Move) : ∃ new, (l.after m).trace = new ++ l.trace := by
  cases m with
  | sendUnsubscribe topic =>
    rw [after]
    split
    · exact ⟨[_], rfl⟩
    · exact ⟨[], rfl⟩
  | authAck success =>
    rw [after]
    split <;> exact ⟨[_], rfl⟩
  | subscribeAck success reqId =>
    change ∃ new, (noteAnswer success _).trace = new ++ l.trace
    unfold noteAnswer
    split
    · exact ⟨[], rfl⟩
    · exact ⟨[_], rfl⟩
  | abandon | flushThrows => exact ⟨[], rfl⟩
  | goUp apiKey expires sign =>
    rw [after]
    split
    · exact ⟨[_], rfl⟩
    · exact ⟨[], rfl⟩
  | write =>
    change ∃ new, l.writeHead.trace = new ++ l.trace
    unfold writeHead
    split
    · exact ⟨[], rfl⟩
    · exact ⟨[_], rfl⟩
  | _ => exact ⟨[_], rfl⟩

theorem trace_path {secured : Bool} {E : Line → Move → Prop} (h : World.Path secured E l l') :
    ∃ new, l'.trace = new ++ l.trace := by
  induction h with
  | refl => exact ⟨[], rfl⟩
  | @tail l₁ l₂ _ hn ih =>
    obtain ⟨new, htr⟩ := ih
    obtain ⟨m, -, hs⟩ := hn
    obtain ⟨-, rfl⟩ := step_eq_some hs
    obtain ⟨new', htr'⟩ := trace_after l₁ m
    exact ⟨new' ++ new, by rw [htr', htr, List.append_assoc]⟩

/-- The marks of a move, with the events it adds spelled out. -/
theorem mark_of_trace {new : List Event} (ht : l'.trace = new ++ l.trace) :
    mark marks l m l' = new.map .event ++ (l.ackMarks m ++ marks) := by
  rw [mark, ht, news_append]

/-- A path without acks, watched: its events are marked, and nothing else. -/
theorem watch_path {secured : Bool} {E : Line × List Mark → Move → Prop} {F : Line → Move → Prop}
    (hE : ∀ s m, m.isSubscribeAck = false → F s.1 m → E s m) (marks : List Mark)
    (h : ReflTransGen ((system secured).Next fun l m => m.isSubscribeAck = false ∧ F l m) l l') :
    ∃ new, l'.trace = new ++ l.trace ∧
      ReflTransGen ((watched secured).Next E) (l, marks) (l', new.map .event ++ marks) := by
  induction h with
  | refl => exact ⟨[], rfl, ReflTransGen.refl⟩
  | @tail l₁ l₂ _ hn ih =>
    obtain ⟨new, htr, hpath⟩ := ih
    obtain ⟨m, hm, hs⟩ := hn
    obtain ⟨new', htr'⟩ : ∃ new', l₂.trace = new' ++ l₁.trace := by
      obtain ⟨-, rfl⟩ := step_eq_some hs
      exact trace_after l₁ m
    refine ⟨new' ++ new, by rw [htr', htr, List.append_assoc], hpath.tail ⟨m, hE _ m hm.1 hm.2, ?_⟩⟩
    refine System.observe_step.2 ⟨hs, ?_⟩
    rw [mark_of_trace htr', ackMarks_of_not_ack hm.1, List.map_append, List.append_assoc]
    rfl

end Moves

/-- An invariant of the watched line: it is enough to look at the moves that are enabled. -/
theorem watched_invariant {secured : Bool} {E : Line × List Mark → Move → Prop} {I : Line → List Mark → Prop}
    (h₀ : I (init secured) [])
    (hstep : ∀ l marks m, l.Shape → E (l, marks) m → l.Enabled m → I l marks →
      I (l.after m) (mark marks l m (l.after m)))
    {l : Line} {marks : List Mark} (h : (watched secured).Reach E (l, marks)) : I l marks := by
  refine h.invariant (I := fun s => I s.1 s.2) h₀ fun s m s' hr hE hs hI => ?_
  obtain ⟨hs, hnotes⟩ := System.observe_step.1 hs
  obtain ⟨he, hl⟩ := step_eq_some hs
  have hsh : s.1.Shape := shape_of_reach hr.unobserved
  rw [hnotes, hl]
  exact hstep s.1 s.2 m hsh hE he hI

end Line

namespace World

/-- What the observer of a session writes down in a step. -/
def mark (marks : List Mark) (w : World) (a : Action) (w' : World) : List Mark :=
  (news w.trace w'.trace).map .event ++ ((w.cause a).toList.flatMap w.line.ackMarks ++ marks)

theorem trace_step {w w' : World} {a : Action} (h : w.Loop) (hs : step w a = some w') :
    ∃ new, w'.trace = new ++ w.trace := by
  have hpath : Path false System.Free w.line w'.line := refines (fun _ _ _ => trivial) h hs fun _ _ => trivial
  exact Line.trace_path hpath

/-! ## Acks -/

/-- An ack comes with the completion of a read of the current generation. -/
theorem ackOf_eq_some {w : World} {a : Action} {ack : Ack} (h : w.ackOf a = some ack) :
    ∃ cancelled json now, a = .complete ⟨.read, w.generation, cancelled⟩ (.frame (some json)) now ∧
      (json.isObject && isApiControlMsg json) = true ∧ readAck json = .ok ack := by
  unfold ackOf at h
  split at h
  · next gen cancelled json now =>
    split at h
    · next hc =>
      simp only [Bool.and_eq_true, decide_eq_true_eq] at hc
      obtain ⟨⟨rfl, hobj⟩, hapi⟩ := hc
      refine ⟨cancelled, json, now, rfl, by rw [hobj, hapi]; rfl, ?_⟩
      cases ha : readAck json with
      | error e => rw [ha] at h; cases h
      | ok ack' =>
        rw [ha] at h
        exact congrArg _ (Option.some.inj h)
    · cases h
  · cases h

/-- The cause of a step that is an ack is the ack that the step brings. -/
theorem ackOf_of_cause {w : World} {a : Action} {m : Move} (h : w.cause a = some m)
    (hm : m.isSubscribeAck = true ∨ ∃ success, m = .authAck success) :
    ∃ ack, w.ackOf a = some ack ∧ ack.move = some m := by
  cases a with
  | run f => cases h; rcases hm with hm | ⟨_, hm⟩ <;> cases hm
  | subscribe topic => cases h; rcases hm with hm | ⟨_, hm⟩ <;> cases hm
  | unsubscribe topic => cases h; rcases hm with hm | ⟨_, hm⟩ <;> cases hm
  | task t =>
    cases t <;> cases h
    rcases hm with hm | ⟨_, hm⟩ <;> cases hm
  | close => cases h
  | control gen isPong now => cases h
  | streamCloses => cases h
  | complete p r now => exact Option.bind_eq_some_iff.1 h

theorem onRead_ack {json : Json} {ack : Ack} (w : World) (now : Clock)
    (hj : (json.isObject && isApiControlMsg json) = true) (ha : readAck json = .ok ack) :
    w.onRead w.generation false (some json) now =
      afterControlMsg w.generation (w.handleAck w.generation now ack) := by
  simp only [onRead, hj, if_true, Bool.false_eq_true, if_false, handleApiControlMsg_ok ha]

theorem handleAck_subscribe {ack : Ack} {success : Bool} {reqId : ReqId} (w : World) (gen : ℕ) (now : Clock)
    (h : ack.move = some (.subscribeAck success reqId)) :
    w.handleAck gen now ack =
      ⟨({ w with books := w.books.ackSubscribe success reqId } : World).noteAnswer gen success, false⟩ := by
  unfold Ack.move at h
  unfold handleAck
  split at h
  · cases h
  · next hp =>
    rw [if_neg hp]
    split at h
    · cases h
    · next ha =>
      rw [if_neg ha]
      split at h
      · next hs =>
        rw [if_pos hs]
        cases h
        rfl
      · cases h

theorem line_subscribeAck {w w' : World} {a : Action} {success : Bool} {reqId : ReqId} (h : w.Loop)
    (hs : step w a = some w') (hcause : w.cause a = some (.subscribeAck success reqId)) :
    w.line.Enabled (.subscribeAck success reqId) ∧ w'.line = w.line.after (.subscribeAck success reqId) := by
  obtain ⟨ack, hack, hmove⟩ := ackOf_of_cause hcause (Or.inl rfl)
  obtain ⟨cancelled, json, now, rfl, hj, hread⟩ := ackOf_eq_some hack
  obtain ⟨hp, -, rfl⟩ := step_complete hs
  refine ⟨h.phase_of_read hp rfl rfl, ?_⟩
  have hrun : completion .read w.generation (.frame (some json)) now
      (w.taken ⟨.read, w.generation, cancelled⟩) =
      afterControlMsg w.generation ((w.taken ⟨.read, w.generation, cancelled⟩).handleAck w.generation now ack) :=
    (if_neg (by simp [taken])).trans (onRead_ack (w.taken ⟨.read, w.generation, cancelled⟩) now hj hread)
  rw [hrun, handleAck_subscribe _ _ _ hmove, afterControlMsg, if_neg (by simp), line_readAgain]
  exact line_noteAnswer success
    { w.taken ⟨.read, w.generation, cancelled⟩ with books := w.books.ackSubscribe success reqId }

end World

/-! ## The watched session -/

def watched (apiKey apiSecret : String) : System (World × List Mark) Action :=
  (session apiKey apiSecret).observe [] World.mark

namespace World

variable {apiKey apiSecret : String} {C : World × List Mark → Action → Prop}

theorem session_of_watched {s : World × List Mark} (h : (watched apiKey apiSecret).Reach C s) :
    (session apiKey apiSecret).Reach System.Free s.1 :=
  h.unobserved

/-- **Refinement, watched.** The line of a watched session is a watched line with the same marks. A
condition on its moves may look at the marks where the move is an ack; `F` is what it asks of the others. -/
theorem watched_line {E : Line × List Mark → Move → Prop} {F : Line → Move → Prop}
    (hE : ∀ s m, m.isSubscribeAck = false → F s.1 m → E s m) (hF : ∀ l m, m.isInternal = true → F l m)
    (hcall : ∀ s a m, C s a → s.1.cause a = some m → F s.1.line m)
    (hC : ∀ s a success reqId, C s a → s.1.cause a = some (.subscribeAck success reqId) →
      E (s.1.line, s.2) (.subscribeAck success reqId)) {w : World} {marks : List Mark}
    (h : (watched apiKey apiSecret).Reach C (w, marks)) :
    (Line.watched (World.init apiKey apiSecret).authRequired).Reach E (w.line, marks) := by
  refine h.simulate (T := Line.watched (World.init apiKey apiSecret).authRequired)
    (fun s => (s.1.line, s.2)) rfl fun s a s' hr hCa hs => ?_
  obtain ⟨hstep, hnotes⟩ := System.observe_step.1 hs
  have hloop : s.1.Loop := Loop.of_reach (session_of_watched hr)
  by_cases hack : ∃ success reqId, s.1.cause a = some (.subscribeAck success reqId)
  · obtain ⟨success, reqId, hcause⟩ := hack
    obtain ⟨he, hl⟩ := line_subscribeAck hloop hstep hcause
    refine ReflTransGen.single ⟨.subscribeAck success reqId, hC s a success reqId hCa hcause, ?_⟩
    refine System.observe_step.2 ⟨?_, ?_⟩
    · rw [hl]
      exact if_pos he
    · rw [hnotes, mark, hcause]
      rfl
  · have hpath : Path (World.init apiKey apiSecret).authRequired
        (fun l m => m.isSubscribeAck = false ∧ F l m) s.1.line s'.1.line := by
      have hint : ∀ m : Move, m.isInternal = true → m.isSubscribeAck = false := fun m hm => by
        cases m <;> first | rfl | cases hm
      refine refines (fun l m hm => ⟨hint m hm, hF l m hm⟩) hloop hstep fun m hm => ⟨?_, hcall s a m hCa hm⟩
      cases m with
      | subscribeAck success reqId => exact absurd ⟨success, reqId, hm⟩ hack
      | _ => rfl
    obtain ⟨new, htr, hpath⟩ := Line.watch_path hE s.2 hpath
    have hmarks : s'.2 = new.map .event ++ s.2 := by
      have htr' : s'.1.trace = new ++ s.1.trace := htr
      have hno : (s.1.cause a).toList.flatMap s.1.line.ackMarks = [] := by
        cases hcause : s.1.cause a with
        | none => rfl
        | some m =>
          cases m with
          | subscribeAck success reqId => exact absurd ⟨success, reqId, hcause⟩ hack
          | _ => rfl
      rw [hnotes, mark, htr', news_append, hno]
      rfl
    rw [hmarks]
    exact hpath

end World

end BybitApi.Session
