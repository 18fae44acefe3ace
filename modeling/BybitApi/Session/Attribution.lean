import BybitApi.Session.Confirm
import BybitApi.Session.Marks

/-!
# Which op an ack is booked to

An ack of the venue carries the req_id of the op it answers, or none; an ack without one is booked to
the op with the smallest number in flight. That is the right op for one reason: the ops in flight are
the ops the venue owes an answer to, in the same order (`Line.Booked`). Acks that carry a req_id the
venue owes nothing to may come in between, and leave everything as it is.
-/

namespace BybitApi.Session

open Lib

/-! ## What the venue owes -/

/-- The ops that are left after an ack: the oldest is answered, if the ack has its req_id or none. -/
def answer (reqId : ReqId) : List (ReqId × List Topic) → List (ReqId × List Topic)
  | [] => []
  | op :: rest => if reqId = op.1 ∨ reqId = "" then rest else op :: rest

/-- The subscribe ops of connection `gen` the venue owes an answer to, in request order. -/
def owed (gen : ℕ) : List Mark → List (ReqId × List Topic)
  | [] => []
  | .event (.enqueued ⟨conn, .subscribe args reqId⟩) :: past =>
    if conn = gen then owed gen past ++ [(reqId, args)] else owed gen past
  | .ack conn _ reqId _ :: past => if conn = gen then answer reqId (owed gen past) else owed gen past
  | .event _ :: past => owed gen past

/-- The ack of the op that the venue owes an answer for longest. -/
def AnswersOldest (reqId : ReqId) (ops : List (ReqId × List Topic)) : Prop :=
  ∃ op ∈ ops.head?, reqId = op.1 ∨ reqId = ""

/-- An ack of none of the ops. -/
def Stray (reqId : ReqId) (ops : List (ReqId × List Topic)) : Prop := reqId ≠ "" ∧ ∀ op ∈ ops, op.1 ≠ reqId

instance (reqId : ReqId) (ops : List (ReqId × List Topic)) : Decidable (AnswersOldest reqId ops) := by
  unfold AnswersOldest; infer_instance

instance (reqId : ReqId) (ops : List (ReqId × List Topic)) : Decidable (Stray reqId ops) := by
  unfold Stray; infer_instance

section Owed

variable {gen : ℕ} {past : List Mark} {reqId : ReqId} {ops : List (ReqId × List Topic)}

theorem owed_plain {e : Event} (gen : ℕ) (he : e.isSubscribe = false) :
    owed gen (.event e :: past) = owed gen past := by
  cases e with
  | enqueued frame =>
    obtain ⟨conn, op⟩ := frame
    cases op <;> first | rfl | cases he
  | _ => rfl

@[simp] theorem owed_subscribe (args : List Topic) :
    owed gen (.event (.enqueued ⟨gen, .subscribe args reqId⟩) :: past) = owed gen past ++ [(reqId, args)] := by
  simp [owed]

@[simp] theorem owed_ack (success : Bool) (op : Option (ReqId × List Topic)) :
    owed gen (.ack gen success reqId op :: past) = answer reqId (owed gen past) := by
  simp [owed]

theorem answer_oldest {op : ReqId × List Topic} {rest : List (ReqId × List Topic)}
    (h : reqId = op.1 ∨ reqId = "") : answer reqId (op :: rest) = rest := by
  rw [answer, if_pos h]

theorem answer_stray (h : Stray reqId ops) : answer reqId ops = ops := by
  cases ops with
  | nil => rfl
  | cons op rest =>
    rw [answer, if_neg]
    rintro (heq | heq)
    · exact h.2 op List.mem_cons_self heq.symm
    · exact h.1 heq

/-- The oldest op, where an ack answers it. -/
theorem AnswersOldest.cases (h : AnswersOldest reqId ops) :
    ∃ op rest, ops = op :: rest ∧ (reqId = op.1 ∨ reqId = "") := by
  obtain ⟨op, hop, hid⟩ := h
  obtain ⟨rest, hrest⟩ := List.head?_eq_some_iff.1 hop
  exact ⟨op, rest, hrest, hid⟩

end Owed

namespace Books

/-- An ack with a req_id that is not in flight is booked to nothing. -/
theorem ackSubscribe_stray {b : Books} {reqId : ReqId} (success : Bool)
    (h : Stray reqId b.inflightSubscribes) : b.ackSubscribe success reqId = b := by
  have hfind : b.inflightSubscribes.find? (fun op => op.1 = reqId) = none :=
    List.find?_eq_none.2 fun op hop => by simpa using h.2 op hop
  have hop : b.ackedOp reqId = none := by
    unfold ackedOp
    rw [hfind]
    exact if_neg h.1
  unfold ackSubscribe
  rw [hop]

/-- The books before and after an ack that is booked to `op`: the op leaves the flight and no other
does, and only a rejection touches the subscriptions, where it takes out the topics of the op. -/
structure Attributed (op : ReqId × List Topic) (success : Bool) (b b' : Books) : Prop where
  inflight : b.inflightSubscribes = op :: b'.inflightSubscribes
  subscriptions : b'.subscriptions =
    if success then b.subscriptions else b.subscriptions.filter fun topic => topic ∉ op.2
  pending : b'.pendingTopics = b.pendingTopics

theorem attributed_oldest {b : Books} {op : ReqId × List Topic} {rest : List (ReqId × List Topic)}
    {reqId : ReqId} (success : Bool) (h : b.inflightSubscribes = op :: rest)
    (hid : reqId = op.1 ∨ reqId = "") : Attributed op success b (b.ackSubscribe success reqId) where
  inflight := by rw [inflight_ackSubscribe_head h hid, h]
  subscriptions := by
    unfold ackSubscribe
    rw [ackedOp_head h hid]
    cases success with
    | true => rfl
    | false =>
      change prune op.2 b.subscriptions = b.subscriptions.filter fun topic => topic ∉ op.2
      rw [prune_eq_diff, b.nodup_subscriptions.sdiff_eq_filter]
  pending := pending_ackSubscribe success reqId b

end Books

namespace Line

/-- The venue answers the ops of a connection in request order; what else it acks is none of them. -/
def InOrder (s : Line × List Mark) : Move → Prop
  | .subscribeAck _ reqId =>
    AnswersOldest reqId (owed s.1.conn s.2) ∨ Stray reqId (owed s.1.conn s.2)
  | _ => True

instance (s : Line × List Mark) : DecidablePred (InOrder s)
  | .subscribeAck _ reqId =>
    inferInstanceAs (Decidable (AnswersOldest reqId (owed s.1.conn s.2) ∨ Stray reqId (owed s.1.conn s.2)))
  | .request _ | .withdraw _ | .sendUnsubscribe _ | .authAck _ | .start | .abandon | .goUp .. | .flush
  | .flushThrows | .ping | .write | .teardown _ => isTrue trivial

/-- While the line is up, what is in flight is what the venue owes. -/
structure Booked (l : Line) (marks : List Mark) : Prop where
  up : l.phase = .up → l.books.inflightSubscribes = owed l.conn marks
  opening : l.phase = .opening → owed l.conn marks = []
  later : ∀ g, l.conn < g → owed g marks = []

section Booked

variable {l l' : Line} {marks : List Mark}

theorem Booked.keep (h : l.Booked marks) (hp : l'.phase = l.phase) (hc : l'.conn = l.conn)
    (hb : l'.books.inflightSubscribes = l.books.inflightSubscribes) : l'.Booked marks where
  up := fun hu => by rw [hb, hc]; exact h.up (hp ▸ hu)
  opening := fun ho => by rw [hc]; exact h.opening (hp ▸ ho)
  later := fun g hg => h.later g (hc ▸ hg)

theorem Booked.log {e : Event} (h : l.Booked marks) (he : e.isSubscribe = false) :
    (l.log e).Booked (.event e :: marks) where
  up := fun hu => by rw [owed_plain _ he]; exact h.up hu
  opening := fun ho => by rw [owed_plain _ he]; exact h.opening ho
  later := fun g hg => by rw [owed_plain _ he]; exact h.later g hg

theorem Booked.enqueue {op : Op} (h : l.Booked marks) (hop : op.isSubscribe = false) :
    (l.enqueue op).Booked (.event (.enqueued (l.frame op)) :: marks) :=
  Booked.log (h.keep rfl rfl rfl) hop

/-- A subscribe op joins the ops in flight and the ops that are owed. -/
theorem Booked.flush (h : l.Booked marks) (hu : l.phase = .up) :
    (l.after .flush).Booked
      (.event (.enqueued (l.frame (.subscribe l.books.pendingTopics l.books.nextReqId))) :: marks) where
  up := fun _ => by
    change l.books.flush.inflightSubscribes = owed l.conn (.event (.enqueued ⟨l.conn, _⟩) :: marks)
    rw [Books.inflight_flush, owed_subscribe, h.up hu]
  opening := fun ho => by
    change l.phase = .opening at ho
    rw [hu] at ho
    cases ho
  later := fun g hg => by
    change l.conn < g at hg
    change (if l.conn = g then _ else owed g marks) = []
    rw [if_neg (Nat.ne_of_lt hg)]
    exact h.later g hg

/-- An ack in order takes the same op out of both; any other takes none. -/
theorem Booked.subscribeAck (h : l.Booked marks) (success : Bool) {reqId : ReqId}
    (hE : AnswersOldest reqId (owed l.conn marks) ∨ Stray reqId (owed l.conn marks))
    (ho : l.phase ≠ .opening) :
    ({ l with books := l.books.ackSubscribe success reqId } : Line).Booked
      (.ack l.conn success reqId (l.books.ackedOp reqId) :: marks) where
  up := fun hu => by
    have hin : l.books.inflightSubscribes = owed l.conn marks := h.up hu
    change (l.books.ackSubscribe success reqId).inflightSubscribes = owed l.conn (.ack l.conn _ _ _ :: marks)
    rw [owed_ack]
    rcases hE with hold | hstray
    · obtain ⟨op, rest, hop, hid⟩ := hold.cases
      rw [hop] at hin ⊢
      rw [Books.inflight_ackSubscribe_head hin hid, answer_oldest hid]
    · rw [answer_stray hstray, ← hin]
      rw [← hin] at hstray
      rw [Books.ackSubscribe_stray success hstray]
  opening := fun ho' => absurd ho' ho
  later := fun g hg => by
    change l.conn < g at hg
    change (if l.conn = g then _ else owed g marks) = []
    rw [if_neg (Nat.ne_of_lt hg)]
    exact h.later g hg

/-- The answer that is noted in the history is no op. -/
theorem Booked.noteAnswer (h : l.Booked marks) (success : Bool) :
    ∃ new, (l.noteAnswer success).trace = new ++ l.trace ∧
      (l.noteAnswer success).Booked (new.map .event ++ marks) := by
  unfold Line.noteAnswer
  split
  · exact ⟨[], rfl, h⟩
  · exact ⟨[_], rfl, h.log rfl⟩

theorem Booked.after {m : Move} (h : l.Booked marks) (hsh : l.Shape) (hutf : l.Utf8) (hE : InOrder (l, marks) m)
    (he : l.Enabled m) : (l.after m).Booked (mark marks l m (l.after m)) := by
  cases m with
  | request topic =>
    refine marked_log (I := Booked) rfl rfl ?_
    exact Booked.log (h.keep rfl rfl (by simp)) rfl
  | withdraw topic =>
    refine marked_log (I := Booked) rfl rfl ?_
    exact Booked.log (h.keep rfl rfl rfl) rfl
  | sendUnsubscribe topic =>
    rw [Line.after]
    split
    · refine marked_log (I := Booked) rfl rfl ?_
      exact Booked.enqueue (l := { l with senders := l.senders.erase topic }) (h.keep rfl rfl rfl) rfl
    · exact marked_same (I := Booked) rfl rfl (h.keep rfl rfl rfl)
  | authAck success =>
    rw [Line.after]
    split
    · refine marked_log (I := Booked) rfl rfl ?_
      exact Booked.log (h.keep rfl rfl rfl) rfl
    · refine marked_log (I := Booked) rfl rfl ?_
      exact h.log rfl
  | subscribeAck success reqId =>
    obtain ⟨new, htr, hb⟩ := (h.subscribeAck success hE he).noteAnswer success
    rw [mark_of_trace (show (l.after (.subscribeAck success reqId)).trace = new ++ l.trace from htr)]
    exact hb
  | start =>
    refine marked_log (I := Booked) rfl rfl ?_
    refine Booked.log ⟨fun hu => (by cases hu), fun _ => h.later _ (Nat.lt_succ_self _), fun g hg => ?_⟩ rfl
    exact h.later g (Nat.lt_of_succ_lt hg)
  | abandon =>
    refine marked_same (I := Booked) rfl rfl ?_
    exact ⟨fun hu => (by cases hu), fun ho => (by cases ho), h.later⟩
  | goUp apiKey expires sign =>
    have hn : l.phase ≠ .up := by rw [show l.phase = .opening from he]; simp
    have hup : ({ l with phase := .up } : Line).Booked marks :=
      ⟨fun _ => (hsh.empty hn).2.2.trans (h.opening he).symm, fun ho => (by cases ho), h.later⟩
    rw [Line.after]
    split
    · exact marked_log (I := Booked) rfl rfl (hup.enqueue rfl)
    · exact marked_same (I := Booked) rfl rfl hup
  | flush => exact marked_log (I := Booked) rfl rfl (h.flush he.1)
  | flushThrows => exact absurd he hutf.not_throws
  | ping => exact marked_log (I := Booked) rfl rfl (h.enqueue rfl)
  | write =>
    change l.writeHead.Booked (mark marks l .write l.writeHead)
    unfold writeHead
    split
    · exact marked_same (I := Booked) rfl rfl h
    · refine marked_log (I := Booked) rfl rfl ?_
      exact Booked.log (h.keep rfl rfl rfl) rfl
  | teardown delayS =>
    refine marked_log (I := Booked) rfl rfl ?_
    exact Booked.log ⟨fun hu => (by cases hu), fun ho => (by cases ho), h.later⟩ rfl

theorem booked_of_reach {secured : Bool}
    (h : (watched secured).Reach (fun s m => InOrder s m ∧ s.1.AsksUtf8 m) (l, marks)) : l.Booked marks :=
  (watched_invariant (I := fun l marks => l.Utf8 ∧ l.Booked marks)
    ⟨Utf8.init secured, fun hu => (by cases hu), fun _ => rfl, fun _ _ => rfl⟩
    (fun _ _ _ hsh hE he hI => ⟨hI.1.after hE.2, hI.2.after hsh hI.1 hE.1 he⟩) h).2

end Booked

end Line

namespace World

/-- In every step the venue keeps to `Line.InOrder`. -/
def AcksInOrder (s : World × List Mark) (a : Action) : Prop :=
  ∀ m ∈ s.1.cause a, Line.InOrder (s.1.line, s.2) m

instance (s : World × List Mark) (a : Action) : Decidable (AcksInOrder s a) := by
  unfold AcksInOrder; infer_instance

/-- An ack moves the books, and the history. -/
theorem line_of_subscribeAck {w w' : World} {a : Action} {success : Bool} {reqId : ReqId} (h : w.Loop)
    (hs : step w a = some w') (hcause : w.cause a = some (.subscribeAck success reqId)) :
    w'.line = { w.line with books := w.books.ackSubscribe success reqId, trace := w'.trace } := by
  have hl := (line_subscribeAck h hs hcause).2
  have htr : w'.trace = (w.line.after (.subscribeAck success reqId)).trace := congrArg Line.trace hl
  rw [hl, htr]
  simp only [Line.after, Line.noteAnswer]
  split <;> rfl

/-- The acks are in order, and every topic asked for is UTF-8. -/
def OrderlyAcks (s : World × List Mark) (a : Action) : Prop := AcksInOrder s a ∧ a.AsksUtf8

instance (s : World × List Mark) (a : Action) : Decidable (OrderlyAcks s a) := by
  unfold OrderlyAcks; infer_instance

/-- What the books should be after an ack on a session that is connected: the ack is booked to the op
it answers, or it answers none and moves nothing but the history. -/
def BookedRight (w w' : World) (marks : List Mark) (success : Bool) (reqId : ReqId) : Prop :=
  (∃ op rest, owed w.generation marks = op :: rest ∧ (reqId = op.1 ∨ reqId = "") ∧
    Books.Attributed op success w.books w'.books) ∨
  (Stray reqId w.books.inflightSubscribes ∧ w'.line = { w.line with trace := w'.trace })

/-- **Ack attribution.** In every run in which the venue answers the subscribe ops of a connection in
request order, with their req_id or none, and every topic asked for is UTF-8, an ack that is processed
on a session that is connected is booked right; an ack that is processed after the teardown of its
connection moves no book, and one whose req_id is not in flight moves nothing. -/
theorem acks_attributed (apiKey apiSecret : String) (w w' : World) (marks : List Mark) (a : Action)
    (success : Bool) (reqId : ReqId) (h : (watched apiKey apiSecret).Reach OrderlyAcks (w, marks))
    (hC : AcksInOrder (w, marks) a) (hs : step w a = some w')
    (hcause : w.cause a = some (.subscribeAck success reqId)) :
    (w.connected = true → BookedRight w w' marks success reqId) ∧
    (w.connected = false → w'.books = w.books) ∧
    (Stray reqId w.books.inflightSubscribes → w'.line = { w.line with trace := w'.trace }) := by
  have hline := watched_line (E := fun s m => Line.InOrder s m ∧ s.1.AsksUtf8 m) (F := Line.AsksUtf8)
    (fun s m hm hutf => ⟨by cases m <;> trivial, hutf⟩) Line.asksUtf8_internal
    (fun s a m hCa hcause => asksUtf8_cause hCa.2 hcause)
    (fun s a success reqId hCa hcause => ⟨hCa.1 _ hcause, trivial⟩) h
  have hloop : w.Loop := Loop.of_reach (session_of_watched h)
  have hmove := line_of_subscribeAck hloop hs hcause
  have hstray : Stray reqId w.books.inflightSubscribes → w'.line = { w.line with trace := w'.trace } :=
    fun hst => by rw [hmove, Books.ackSubscribe_stray success hst]; rfl
  have hbooks : w'.books = w.books.ackSubscribe success reqId := congrArg Line.books hmove
  refine ⟨fun hup => ?_, fun hdown => ?_, hstray⟩
  · have hin : w.books.inflightSubscribes = owed w.generation marks :=
      (Line.booked_of_reach hline).up (phase_up hup)
    rcases hC _ hcause with hold | hst
    · obtain ⟨op, rest, hop, hid⟩ := hold.cases
      refine Or.inl ⟨op, rest, hop, hid, ?_⟩
      rw [hbooks]
      exact Books.attributed_oldest success (hin.trans hop) hid
    · have hst' : Stray reqId w.books.inflightSubscribes := by rw [hin]; exact hst
      exact Or.inr ⟨hst', hstray hst'⟩
  · have hn : w.line.phase ≠ .up := fun hu => by rw [phase_up_iff.1 hu] at hdown; cases hdown
    have hnil := ((Line.shape_of_reach (line_of_reach_free (session_of_watched h))).empty hn).2.2
    rw [hbooks]
    exact Books.ackSubscribe_of_nil hnil success reqId

/-- The rejection of a subscribe op by an ack without a req_id. -/
def unnamedRejection : Json :=
  .obj [("op", .str "subscribe"), ("success", .bool false), ("ret_msg", .str "internal server error")]

/-- Two ops are in flight, and an ack without a req_id rejects the first. -/
theorem acks_attributed_unnamed :
    ∃ w w' : World, w.books.inflightSubscribes = [("1", [.utf8 "tickers.A"]), ("2", [.utf8 "tickers.B"])] ∧
      w.books.subscriptions = ["tickers.A", "tickers.B"] ∧
      w'.books.inflightSubscribes = [("2", [.utf8 "tickers.B"])] ∧ w'.books.subscriptions = ["tickers.B"] := by
  obtain ⟨⟨w, marks⟩, hw, hC, hcause, hstep, hcon, howed, hin, hsub⟩ :=
    System.Reach.exists_of_exec (S := watched "" "") (C := OrderlyAcks)
      (l := connectRun "tickers.A" ++ [.subscribe "tickers.B", .task .flushTopics])
      (P := fun s =>
        AcksInOrder s (.complete ⟨.read, 1, false⟩ (.frame (some unnamedRejection)) ⟨0, 0⟩) ∧
          s.1.cause (.complete ⟨.read, 1, false⟩ (.frame (some unnamedRejection)) ⟨0, 0⟩) =
            some (.subscribeAck false "") ∧
          (step s.1 (.complete ⟨.read, 1, false⟩ (.frame (some unnamedRejection)) ⟨0, 0⟩)).isSome ∧
          s.1.connected = true ∧ owed s.1.generation s.2 = [("1", [.utf8 "tickers.A"]), ("2", [.utf8 "tickers.B"])] ∧
          s.1.books.inflightSubscribes = [("1", [.utf8 "tickers.A"]), ("2", [.utf8 "tickers.B"])] ∧
          s.1.books.subscriptions = ["tickers.A", "tickers.B"]) (by decide)
  obtain ⟨w', hs⟩ := Option.isSome_iff_exists.1 hstep
  refine ⟨w, w', hin, hsub, ?_⟩
  rcases (acks_attributed "" "" w w' marks _ false "" hw hC hs hcause).1 hcon with
    ⟨op, rest, hop, -, hat⟩ | hst
  · rw [howed] at hop
    obtain ⟨rfl, rfl⟩ := List.cons.inj hop
    refine ⟨(List.cons.inj (hat.inflight.symm.trans hin)).2, ?_⟩
    rw [hat.subscriptions, hsub]
    decide
  · exact absurd rfl hst.1.1

/-- The flush of the second topic throws when its op is booked. The op of the third topic is rejected
by an ack without a req_id, and the rejection is booked to the op that was never sent. -/
theorem ack_of_unsent_op :
    ¬ ∀ w w' marks a success reqId, (watched "" "").Reach AcksInOrder (w, marks) → AcksInOrder (w, marks) a →
      step w a = some w' → w.cause a = some (.subscribeAck success reqId) → w.connected = true →
      BookedRight w w' marks success reqId := by
  intro h
  obtain ⟨⟨w, marks⟩, hw, hC, hcause, hstep, hcon, howed, hin⟩ :=
    System.Reach.exists_of_exec (S := watched "" "") (C := AcksInOrder)
      (l := connectRun "tickers.A" ++ [.subscribe notUtf8, .task .flushTopics,
        .complete ⟨.read, 1, false⟩ (.frame (some (subscribeAnswer true "1"))) ⟨0, 0⟩,
        .subscribe "tickers.B", .task .flushTopics])
      (P := fun s =>
        AcksInOrder s (.complete ⟨.read, 1, false⟩ (.frame (some unnamedRejection)) ⟨0, 0⟩) ∧
          s.1.cause (.complete ⟨.read, 1, false⟩ (.frame (some unnamedRejection)) ⟨0, 0⟩) =
            some (.subscribeAck false "") ∧
          (step s.1 (.complete ⟨.read, 1, false⟩ (.frame (some unnamedRejection)) ⟨0, 0⟩)).isSome ∧
          s.1.connected = true ∧ owed s.1.generation s.2 = [("3", [.utf8 "tickers.B"])] ∧
          s.1.books.inflightSubscribes = [("2", [notUtf8]), ("3", [.utf8 "tickers.B"])]) (by decide)
  obtain ⟨w', hs⟩ := Option.isSome_iff_exists.1 hstep
  rcases h w w' marks _ false "" hw hC hs hcause hcon with ⟨op, rest, hop, -, hat⟩ | hst
  · rw [howed] at hop
    obtain ⟨rfl, -⟩ := List.cons.inj hop
    exact absurd (List.cons.inj (hin.symm.trans hat.inflight)).1 (by decide)
  · exact absurd rfl hst.1.1

end World

end BybitApi.Session
