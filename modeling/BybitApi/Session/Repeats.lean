import BybitApi.Session.Marks

/-!
# No topic is asked for twice

The two lists of topics have no topic twice, together (`Books.nodup`), and a flush empties one into
the other. So what a subscribe op names stays among the subscriptions of its connection until an
unsubscribe or a rejection takes it out, and it cannot be in another op before that. The acks are
free here: they may come in any order and carry any req_id, and an ack is a rejection of the op it
is booked to.
-/

namespace BybitApi.Session

open Lib

namespace Mark

def event? : Mark → Option Event
  | event e => some e
  | _ => none

/-- A subscribe op on connection `gen` that names the topic. -/
def asks (gen : ℕ) (topic : Topic) : Mark → Bool
  | event (.enqueued ⟨conn, .subscribe args _⟩) => decide (conn = gen) && decide (topic ∈ args)
  | _ => false

/-- An unsubscribe of the topic, or a rejection of an op that names it. -/
def releases (topic : Topic) : Mark → Bool
  | event (.removed t) => decide (t = topic)
  | ack _ false _ (some op) => decide (topic ∈ op.2)
  | _ => false

end Mark

/-- A subscribe op on connection `gen` names the topic, and nothing has released it since. -/
def asking (gen : ℕ) (topic : Topic) : List Mark → Bool
  | [] => false
  | m :: past => m.asks gen topic || (!m.releases topic && asking gen topic past)

/-- A subscribe op names no topic that its connection is asking for, and none twice. -/
def Unrepeated : Mark → List Mark → Prop
  | .event (.enqueued ⟨conn, .subscribe args _⟩), past =>
    args.Nodup ∧ ∀ topic ∈ args, asking conn topic past = false
  | _, _ => True

section Asking

variable {gen : ℕ} {topic : Topic} {m : Mark} {past : List Mark}

theorem asks_plain {e : Event} (he : e.isSubscribe = false) : (Mark.event e).asks gen topic = false := by
  cases e with
  | enqueued frame =>
    obtain ⟨conn, op⟩ := frame
    cases op <;> first | rfl | cases he
  | _ => rfl

theorem unrepeated_plain {e : Event} (he : e.isSubscribe = false) : Unrepeated (.event e) past := by
  cases e with
  | enqueued frame =>
    obtain ⟨conn, op⟩ := frame
    cases op <;> trivial
  | _ => trivial

theorem asking_plain (ha : m.asks gen topic = false) (hr : m.releases topic = false) :
    asking gen topic (m :: past) = asking gen topic past := by
  simp [asking, ha, hr]

theorem asking_of_asks (ha : m.asks gen topic = true) : asking gen topic (m :: past) = true := by
  simp [asking, ha]

/-- What is asked for and not released in between is still asked for. -/
theorem asking_append {between : List Mark} (h : asking gen topic past = true)
    (hr : ∀ m ∈ between, m.releases topic = false) : asking gen topic (between ++ past) = true := by
  induction between with
  | nil => exact h
  | cons m between ih =>
    have ih' := ih fun m' hm' => hr m' (List.mem_cons_of_mem _ hm')
    rw [List.cons_append, asking, ih', hr m List.mem_cons_self]
    simp

/-- **Between two ops.** Where no mark is a repetition, two subscribe ops of a connection that name
the same topic have a release of it between them. -/
theorem released_between {marks later between past : List Mark} {args args' : List Topic}
    {reqId reqId' : ReqId} (h : Each Unrepeated marks)
    (hm : marks = later ++ .event (.enqueued ⟨gen, .subscribe args' reqId'⟩) :: (between ++
      .event (.enqueued ⟨gen, .subscribe args reqId⟩) :: past))
    (ht : topic ∈ args) (ht' : topic ∈ args') : ∃ m ∈ between, m.releases topic = true := by
  have hnot := (h later _ _ hm).2 topic ht'
  by_contra hno
  have hkeep : ∀ m ∈ between, m.releases topic = false := fun m hmem => by
    by_contra hr
    exact hno ⟨m, hmem, (Bool.not_eq_false _).mp hr⟩
  rw [asking_append (asking_of_asks (by simp [Mark.asks, ht])) hkeep] at hnot
  cases hnot

end Asking

namespace Line

/-- On a line that is up, what is asked for is subscribed. -/
structure Once (l : Line) (marks : List Mark) : Prop where
  up : l.phase = .up → ∀ topic, asking l.conn topic marks = true → topic ∈ l.books.subscriptions
  opening : l.phase = .opening → ∀ topic, asking l.conn topic marks = false
  later : ∀ g, l.conn < g → ∀ topic, asking g topic marks = false
  history : marks.filterMap Mark.event? = l.trace
  unrepeated : Each Unrepeated marks

section Once

variable {l l' : Line} {marks : List Mark}

theorem Once.keep (h : l.Once marks) (hp : l'.phase = l.phase) (hc : l'.conn = l.conn)
    (hb : l.books.subscriptions ⊆ l'.books.subscriptions) (ht : l'.trace = l.trace) : l'.Once marks where
  up := fun hu topic ha => by
    rw [hc] at ha
    exact hb (h.up (hp ▸ hu) topic ha)
  opening := fun ho => by rw [hc]; exact h.opening (hp ▸ ho)
  later := fun g hg => h.later g (hc ▸ hg)
  history := by rw [ht]; exact h.history
  unrepeated := h.unrepeated

/-- An event that neither asks for a topic nor releases one. -/
theorem Once.log {e : Event} (h : l.Once marks) (he : e.isSubscribe = false)
    (hr : ∀ t, (Mark.event e).releases t = false) : (l.log e).Once (.event e :: marks) where
  up := fun hu topic hask => by
    rw [asking_plain (asks_plain he) (hr _)] at hask
    exact h.up hu topic hask
  opening := fun ho topic => by rw [asking_plain (asks_plain he) (hr _)]; exact h.opening ho topic
  later := fun g hg topic => by rw [asking_plain (asks_plain he) (hr _)]; exact h.later g hg topic
  history := by
    change e :: marks.filterMap Mark.event? = e :: l.trace
    rw [h.history]
  unrepeated := each_cons.2 ⟨unrepeated_plain he, h.unrepeated⟩

/-- An unsubscribe releases its topic, and takes it out of the books. -/
theorem Once.withdraw (h : l.Once marks) (topic : Topic) :
    (l.after (.withdraw topic)).Once (.event (.removed topic) :: marks) where
  up := fun hu t ha => by
    simp only [asking, Mark.asks, Mark.releases, Bool.false_or, Bool.and_eq_true, Bool.not_eq_true',
      decide_eq_false_iff_not] at ha
    exact Books.mem_erase_subscriptions.2 ⟨fun heq => ha.1 heq.symm, h.up hu t ha.2⟩
  opening := fun ho t => by
    have hno := h.opening ho t
    simp only [asking, Mark.asks, Bool.false_or]
    rw [show asking (l.after (.withdraw topic)).conn t marks = false from hno, Bool.and_false]
  later := fun g hg t => by
    have hno := h.later g hg t
    simp only [asking, Mark.asks, Bool.false_or]
    rw [hno, Bool.and_false]
  history := congrArg (List.cons (Event.removed topic)) h.history
  unrepeated := each_cons.2 ⟨trivial, h.unrepeated⟩

/-- A flush asks for the pending topics, and none of them is subscribed. -/
theorem Once.flush (h : l.Once marks) (hu : l.phase = .up) :
    (l.after .flush).Once
      (.event (.enqueued (l.frame (.subscribe l.books.pendingTopics l.books.nextReqId))) :: marks) where
  up := fun _ topic ha => by
    change topic ∈ l.books.subscriptions ++ l.books.pendingTopics
    rw [asking, Bool.or_eq_true] at ha
    rcases ha with hask | hold
    · simp only [Mark.asks, frame, Bool.and_eq_true, decide_eq_true_eq] at hask
      exact List.mem_append_right _ hask.2
    · rw [Bool.and_eq_true] at hold
      exact List.mem_append_left _ (h.up hu topic hold.2)
  opening := fun ho => by
    change l.phase = .opening at ho
    rw [hu] at ho
    cases ho
  later := fun g hg topic => by
    change l.conn < g at hg
    have hne : l.conn ≠ g := Nat.ne_of_lt hg
    rw [asking_plain (by simp [Mark.asks, frame, hne]) rfl]
    exact h.later g hg topic
  history := congrArg (List.cons _) h.history
  unrepeated := by
    have hpend : l.books.pendingTopics.Nodup := l.books.nodup.sublist (List.sublist_append_right _ _)
    refine each_cons.2 ⟨⟨hpend, fun topic hmem => ?_⟩, h.unrepeated⟩
    by_contra hask
    exact Books.not_pending_of_subscribed (h.up hu topic ((Bool.not_eq_false _).mp hask)) hmem

/-- An ack takes from the subscriptions what it releases. -/
theorem mem_ackSubscribe {b : Books} {success : Bool} {reqId : ReqId} {conn : ℕ} {topic : Topic}
    (hmem : topic ∈ b.subscriptions)
    (hr : (Mark.ack conn success reqId (b.ackedOp reqId)).releases topic = false) :
    topic ∈ (b.ackSubscribe success reqId).subscriptions := by
  unfold Books.ackSubscribe
  cases hop : b.ackedOp reqId with
  | none => exact hmem
  | some op =>
    cases success with
    | true => exact hmem
    | false =>
      rw [hop] at hr
      exact Books.mem_prune.2 ⟨hmem, of_decide_eq_false hr⟩

theorem Once.subscribeAck (h : l.Once marks) (success : Bool) (reqId : ReqId) :
    ({ l with books := l.books.ackSubscribe success reqId } : Line).Once
      (.ack l.conn success reqId (l.books.ackedOp reqId) :: marks) where
  up := fun hu topic ha => by
    simp only [asking, Mark.asks, Bool.false_or, Bool.and_eq_true, Bool.not_eq_true'] at ha
    exact mem_ackSubscribe (h.up hu topic ha.2) ha.1
  opening := fun ho topic => by
    have hno := h.opening ho topic
    simp only [asking, Mark.asks, Bool.false_or, hno, Bool.and_false]
  later := fun g hg topic => by
    have hno := h.later g hg topic
    simp only [asking, Mark.asks, Bool.false_or, hno, Bool.and_false]
  history := h.history
  unrepeated := each_cons.2 ⟨trivial, h.unrepeated⟩

theorem Once.noteAnswer (h : l.Once marks) (success : Bool) :
    ∃ new, (l.noteAnswer success).trace = new ++ l.trace ∧
      (l.noteAnswer success).Once (new.map .event ++ marks) := by
  unfold Line.noteAnswer
  split
  · exact ⟨[], rfl, h⟩
  · exact ⟨[_], rfl, h.log rfl fun _ => rfl⟩

theorem Once.after {m : Move} (h : l.Once marks) (he : l.Enabled m) :
    (l.after m).Once (mark marks l m (l.after m)) := by
  have hrefl : l.books.subscriptions ⊆ l.books.subscriptions := List.Subset.refl _
  cases m with
  | request topic =>
    refine marked_log (I := Once) rfl rfl ?_
    exact Once.log (h.keep rfl rfl (by simp) rfl) rfl fun _ => rfl
  | withdraw topic => exact marked_log (I := Once) rfl rfl (h.withdraw topic)
  | sendUnsubscribe topic =>
    rw [Line.after]
    split
    · refine marked_log (I := Once) rfl rfl ?_
      exact Once.log (h.keep rfl rfl hrefl rfl) rfl fun _ => rfl
    · exact marked_same (I := Once) rfl rfl (h.keep rfl rfl hrefl rfl)
  | authAck success =>
    rw [Line.after]
    split
    · refine marked_log (I := Once) rfl rfl ?_
      exact Once.log (h.keep rfl rfl hrefl rfl) rfl fun _ => rfl
    · exact marked_log (I := Once) rfl rfl (h.log rfl fun _ => rfl)
  | subscribeAck success reqId =>
    obtain ⟨new, htr, ho⟩ := (h.subscribeAck success reqId).noteAnswer success
    rw [mark_of_trace (show (l.after (.subscribeAck success reqId)).trace = new ++ l.trace from htr)]
    exact ho
  | start =>
    refine marked_log (I := Once) rfl rfl ?_
    refine Once.log ⟨fun hu => (by cases hu), fun _ => h.later _ (Nat.lt_succ_self _), fun g hg => ?_,
      h.history, h.unrepeated⟩ rfl fun _ => rfl
    exact h.later g (Nat.lt_of_succ_lt hg)
  | abandon =>
    refine marked_same (I := Once) rfl rfl ?_
    exact ⟨fun hu => (by cases hu), fun ho => (by cases ho), h.later, h.history, h.unrepeated⟩
  | goUp apiKey expires sign =>
    have hup : ({ l with phase := .up } : Line).Once marks :=
      ⟨fun _ topic ha => absurd ((h.opening he topic).symm.trans ha) Bool.false_ne_true,
        fun ho => (by cases ho), h.later, h.history, h.unrepeated⟩
    rw [Line.after]
    split
    · refine marked_log (I := Once) rfl rfl ?_
      exact Once.log (hup.keep rfl rfl hrefl rfl) rfl fun _ => rfl
    · exact marked_same (I := Once) rfl rfl hup
  | flush => exact marked_log (I := Once) rfl rfl (h.flush he.1)
  | flushThrows => exact marked_same (I := Once) rfl rfl (h.keep rfl rfl (List.subset_append_left _ _) rfl)
  | ping =>
    refine marked_log (I := Once) rfl rfl ?_
    exact Once.log (h.keep rfl rfl hrefl rfl) rfl fun _ => rfl
  | write =>
    change l.writeHead.Once (mark marks l .write l.writeHead)
    unfold writeHead
    split
    · exact marked_same (I := Once) rfl rfl h
    · refine marked_log (I := Once) rfl rfl ?_
      exact Once.log (h.keep rfl rfl hrefl rfl) rfl fun _ => rfl
  | teardown delayS =>
    refine marked_log (I := Once) rfl rfl ?_
    exact Once.log ⟨fun hu => (by cases hu), fun ho => (by cases ho), h.later, h.history, h.unrepeated⟩
      rfl fun _ => rfl

theorem once_of_reach {secured : Bool} {E : Line × List Mark → Move → Prop}
    (h : (watched secured).Reach E (l, marks)) : l.Once marks :=
  watched_invariant (I := Once)
    ⟨fun hu => (by cases hu), fun _ _ => rfl, fun _ _ _ => rfl, rfl, each_nil⟩
    (fun _ _ _ _ _ he hI => hI.after he) h

end Once

end Line

namespace World

/-- **Topics once.** In every state a session reaches no topic is twice in `subscriptions` and
`pendingTopics` together, and no subscribe op of its history names a topic twice. Every run can be
watched, and what is written down is the history and the acks: two subscribe ops of one connection
that name the same topic have between them an unsubscribe of it, or a rejection booked to an op that
names it. -/
theorem topics_once (apiKey apiSecret : String) (w : World)
    (h : (session apiKey apiSecret).Reach System.Free w) :
    (w.books.subscriptions ++ w.books.pendingTopics).Nodup ∧
    (∀ gen args reqId, .enqueued ⟨gen, .subscribe args reqId⟩ ∈ w.trace → args.Nodup) ∧
    (∃ marks, (watched apiKey apiSecret).Reach System.Free (w, marks)) ∧
    ∀ marks, (watched apiKey apiSecret).Reach System.Free (w, marks) →
      marks.filterMap Mark.event? = w.trace ∧
      ∀ later between past gen topic args args' reqId reqId',
        marks = later ++ .event (.enqueued ⟨gen, .subscribe args' reqId'⟩) :: (between ++
          .event (.enqueued ⟨gen, .subscribe args reqId⟩) :: past) →
        topic ∈ args → topic ∈ args' → ∃ m ∈ between, m.releases topic = true := by
  have honce : ∀ marks, (watched apiKey apiSecret).Reach System.Free (w, marks) → w.line.Once marks :=
    fun marks hm => Line.once_of_reach (E := System.Free)
      (watched_line (F := System.Free) (fun _ _ _ _ => trivial) (fun _ _ _ => trivial)
        (fun _ _ _ _ _ => trivial) (fun _ _ _ _ _ _ => trivial) hm)
  obtain ⟨marks, hw⟩ : ∃ marks, (watched apiKey apiSecret).Reach System.Free (w, marks) := h.observed
  refine ⟨w.books.nodup, fun gen args reqId hmem => ?_, ⟨marks, hw⟩, fun marks' hm => ?_⟩
  · have hm := honce marks hw
    have hev : .enqueued ⟨gen, .subscribe args reqId⟩ ∈ marks.filterMap Mark.event? := hm.history ▸ hmem
    obtain ⟨m, hmem', hm'⟩ := List.mem_filterMap.1 hev
    obtain ⟨later, past, heq⟩ := List.append_of_mem hmem'
    cases m with
    | event e =>
      cases hm'
      exact (hm.unrepeated later _ past heq).1
    | ack gen success reqId op => cases hm'
  · have hm' := honce marks' hm
    exact ⟨hm'.history, fun later between past gen topic args args' reqId reqId' heq ht ht' =>
      released_between hm'.unrepeated heq ht ht'⟩

/-- A topic is given up and asked for again on the same connection. -/
theorem topics_once_again :
    ∃ w, (session "" "").Reach System.Free w ∧ w.books.subscriptions.Nodup ∧
      ∃ m ∈ [.event (.requested "tickers.A"), .event (.removed "tickers.A"),
        .event (.written 1 ⟨1, .subscribe ["tickers.A"] "1"⟩)], Mark.releases "tickers.A" m = true := by
  obtain ⟨⟨w, marks⟩, hw, hmarks⟩ := System.Reach.exists_of_exec (S := watched "" "") (C := System.Free)
    (l := connectRun "tickers.A" ++ [.unsubscribe "tickers.A", .subscribe "tickers.A", .task .flushTopics])
    (P := fun s => s.2 = [] ++ .event (.enqueued ⟨1, .subscribe ["tickers.A"] "2"⟩) ::
      ([.event (.requested "tickers.A"), .event (.removed "tickers.A"),
        .event (.written 1 ⟨1, .subscribe ["tickers.A"] "1"⟩)] ++
      .event (.enqueued ⟨1, .subscribe ["tickers.A"] "1"⟩) ::
        [.event (.started 1), .event (.requested "tickers.A")])) (by decide)
  have hs := session_of_watched hw
  obtain ⟨hnodup, -, -, hwatched⟩ := topics_once "" "" w hs
  refine ⟨w, hs, hnodup.sublist (List.sublist_append_left _ _), ?_⟩
  exact (hwatched marks hw).2 _ _ _ 1 "tickers.A" ["tickers.A"] ["tickers.A"] "1" "2" hmarks
    List.mem_cons_self List.mem_cons_self

end World

end BybitApi.Session
