import BybitApi.Session.Confirm

/-!
# The topics and the venue

Two promises about the books. What is in `subscriptions` is what the venue was last told on the
current connection (`Line.Told`), and a topic that was requested stays in the books until it is
unsubscribed or its last subscribe op is rejected (`Line.Kept`).

Neither holds without a condition. `unsubscribe` takes the topic out of the books at once but sends
its op later, so the op can come after a newer subscribe of the same topic. And a rejection takes
its topics out of the books by name, so it can take out a topic that a newer op has asked for again.
Both want topics that are UTF-8: where `dump()` throws, the books have moved on and the venue was told
nothing.
-/

namespace BybitApi.Session

open Lib

/-! ## Histories -/

/-- The op names the topic. -/
def Op.names (topic : Topic) : Op → Bool
  | subscribe args _ => topic ∈ args
  | unsubscribe args => topic ∈ args
  | _ => false

/-- The latest op enqueued on connection `gen` that names the topic is a subscribe. -/
def asked (gen : ℕ) (topic : Topic) : List Event → Bool
  | [] => false
  | .enqueued ⟨conn, op⟩ :: past =>
    if conn = gen && op.names topic then op.isSubscribe else asked gen topic past
  | _ :: past => asked gen topic past

/-- The topic was requested, and not unsubscribed since. -/
def wanted (topic : Topic) : List Event → Bool
  | [] => false
  | .requested t :: past => t = topic || wanted topic past
  | .removed t :: past => t ≠ topic && wanted topic past
  | _ :: past => wanted topic past

/-- The most recent subscribe op that names the topic was rejected. -/
def Rejected (topic : Topic) (history : List Event) : Prop :=
  ∃ conn reqId, lastSubscribe topic history = some (conn, reqId) ∧ .answered conn reqId false ∈ history

/-- A subscribe is rejected. -/
def Move.isRejection : Move → Bool
  | .subscribeAck success _ => !success
  | _ => false

/-- An event that does not bear on `asked`: no op, or an op that names no topic. -/
def Event.isSilent : Event → Bool
  | .enqueued ⟨_, .subscribe _ _⟩ | .enqueued ⟨_, .unsubscribe _⟩ => false
  | _ => true

section Histories

variable {e : Event} {past : List Event}

theorem asked_silent (gen : ℕ) (topic : Topic) (he : e.isSilent = true) :
    asked gen topic (e :: past) = asked gen topic past := by
  cases e with
  | enqueued frame =>
    obtain ⟨conn, op⟩ := frame
    cases op <;> first | (cases he; done) | simp [asked, Op.names]
  | _ => rfl

theorem asked_enqueued (gen : ℕ) (topic : Topic) (op : Op) :
    asked gen topic (.enqueued ⟨gen, op⟩ :: past) =
      if op.names topic then op.isSubscribe else asked gen topic past := by
  simp [asked]

theorem asked_fresh {gen : ℕ} (topic : Topic) (h : ∀ e ∈ past, ∀ g, e.conn? = some g → g < gen) :
    asked gen topic past = false := by
  induction past with
  | nil => rfl
  | cons e past ih =>
    have ih' := ih fun e' he' => h e' (List.mem_cons_of_mem _ he')
    cases e with
    | enqueued frame =>
      obtain ⟨conn, op⟩ := frame
      have hc : conn < gen := h _ List.mem_cons_self conn rfl
      simp [asked, ih', Nat.ne_of_lt hc]
    | _ => exact ih'

end Histories

namespace Line

/-! ## What the venue was told -/

/-- The venue rejects nothing, the unsubscribe of a topic is not sent while the topic is subscribed
again, and what is asked for is UTF-8. -/
def SendsInTime (l : Line) : Move → Prop
  | .request topic => topic.isUtf8 = true
  | .sendUnsubscribe topic => l.phase = .up → topic ∉ l.books.subscriptions
  | .subscribeAck success _ => success = true
  | _ => True

theorem SendsInTime.asksUtf8 {l : Line} {m : Move} (h : l.SendsInTime m) : l.AsksUtf8 m := by
  cases m with
  | request topic => exact h
  | _ => trivial

/-- The venue was last asked for what is subscribed; for what is not, only where an unsubscribe is
still to be sent. -/
structure Told (l : Line) : Prop where
  subscribed : ∀ t ∈ l.books.subscriptions, asked l.conn t l.trace = true
  unsubscribed : l.phase = .up → ∀ t, t ∉ l.books.subscriptions → asked l.conn t l.trace = true → t ∈ l.senders

section Told

variable {l l' : Line}

theorem Told.log {e : Event} (h : l.Told) (he : e.isSilent = true) : (l.log e).Told where
  subscribed := fun t ht => (asked_silent l.conn t he).trans (h.subscribed t ht)
  unsubscribed := fun hu t ht ha => h.unsubscribed hu t ht ((asked_silent l.conn t he).symm.trans ha)

theorem Told.keep (h : l.Told) (hp : l'.phase = l.phase) (hc : l'.conn = l.conn)
    (hb : l'.books.subscriptions = l.books.subscriptions) (hs : l'.senders = l.senders)
    (ht : l'.trace = l.trace) : l'.Told := by
  constructor
  · rw [hb, hc, ht]; exact h.subscribed
  · rw [hp, hb, hc, ht, hs]; exact h.unsubscribed

/-- Nothing is subscribed on a line that is not up. -/
theorem Told.of_down (hb : l.books.subscriptions = []) (hp : l.phase ≠ .up) : l.Told where
  subscribed := fun t ht => by rw [hb] at ht; cases ht
  unsubscribed := fun hu => absurd hu hp

theorem Told.withdraw (h : l.Told) (topic : Topic) : (l.after (.withdraw topic)).Told := by
  have hlog : ∀ t, asked l.conn t (.removed topic :: l.trace) = asked l.conn t l.trace := fun t =>
    asked_silent l.conn t rfl
  have hsub : ∀ t, t ∈ l.senders → t ∈ (l.after (.withdraw topic)).senders := by
    intro t ht
    change t ∈ if (l.books.removeTopic topic).1 then l.senders ++ [topic] else l.senders
    split
    · exact List.mem_append_left _ ht
    · exact ht
  refine ⟨fun t ht => ?_, fun hu t ht ha => ?_⟩
  · exact (hlog t).trans (h.subscribed t (Books.mem_erase_subscriptions.1 ht).2)
  · replace ha : asked l.conn t l.trace = true := (hlog t).symm.trans ha
    by_cases hmem : t ∈ l.books.subscriptions
    · -- it is the topic withdrawn, so its sender is posted
      have heq : t = topic := by
        by_contra hne
        exact ht (Books.mem_erase_subscriptions.2 ⟨hne, hmem⟩)
      subst heq
      have hsent : (l.books.removeTopic t).1 = true := decide_eq_true hmem
      change t ∈ if (l.books.removeTopic t).1 then l.senders ++ [t] else l.senders
      rw [if_pos hsent]
      exact List.mem_append_right _ List.mem_cons_self
    · exact hsub t (h.unsubscribed hu t hmem ha)

theorem Told.sendUnsubscribe (h : l.Told) (hsh : l.Shape) (hutf : l.Utf8) {topic : Topic}
    (hE : l.SendsInTime (.sendUnsubscribe topic)) (he : l.Enabled (.sendUnsubscribe topic)) :
    (l.after (.sendUnsubscribe topic)).Told := by
  rw [Line.after]
  split
  swap
  · next hn =>
    have hdown : l.phase ≠ .up := fun hu => hn ⟨hu, hutf.senders topic he⟩
    exact .of_down (hsh.empty hdown).2.1 hdown
  · next hsent =>
    have hu : l.phase = .up := hsent.1
    have hne : ∀ t, t ≠ topic → asked l.conn t (.enqueued ⟨l.conn, .unsubscribe [topic]⟩ :: l.trace) =
        asked l.conn t l.trace := fun t ht => by rw [asked_enqueued, if_neg (by simpa [Op.names] using ht)]
    refine ⟨fun t ht => ?_, fun _ t ht ha => ?_⟩
    · have htne : t ≠ topic := fun heq => hE hu (heq ▸ ht)
      exact (hne t htne).trans (h.subscribed t ht)
    · by_cases heq : t = topic
      · rw [heq] at ha
        change asked l.conn topic (.enqueued ⟨l.conn, .unsubscribe [topic]⟩ :: l.trace) = true at ha
        rw [asked_enqueued, if_pos (by simp [Op.names])] at ha
        cases ha
      · exact (List.mem_erase_of_ne heq).2 (h.unsubscribed hu t ht ((hne t heq).symm.trans ha))

theorem Told.flush (h : l.Told) (he : l.Enabled .flush) : (l.after .flush).Told := by
  have hask : ∀ t, asked l.conn t (l.after .flush).trace =
      if t ∈ l.books.pendingTopics then true else asked l.conn t l.trace := fun t =>
    (asked_enqueued l.conn t _).trans (by simp [Op.names, Op.isSubscribe])
  refine ⟨fun t ht => (hask t).trans ?_, fun _ t ht ha => ?_⟩
  · split
    · rfl
    · next hp =>
      rcases List.mem_append.1 ht with hsub | hpend
      · exact h.subscribed t hsub
      · exact absurd hpend hp
  · have hout : t ∉ l.books.subscriptions ∧ t ∉ l.books.pendingTopics := by
      constructor
      · exact fun hsub => ht (List.mem_append_left _ hsub)
      · exact fun hpend => ht (List.mem_append_right _ hpend)
    exact h.unsubscribed he.1 t hout.1 (((hask t).trans (if_neg hout.2)).symm.trans ha)

theorem Told.after {m : Move} (h : l.Told) (hsh : l.Shape) (hutf : l.Utf8) (hE : l.SendsInTime m)
    (he : l.Enabled m) : (l.after m).Told := by
  cases m with
  | request topic => exact Told.log (h.keep rfl rfl (by simp) rfl rfl) rfl
  | withdraw topic => exact h.withdraw topic
  | sendUnsubscribe topic => exact h.sendUnsubscribe hsh hutf hE he
  | authAck success =>
    rw [Line.after]
    split <;> exact Told.log (h.keep rfl rfl rfl rfl rfl) rfl
  | subscribeAck success reqId =>
    obtain rfl : success = true := hE
    have hb : ({ l with books := l.books.ackSubscribe true reqId } : Line).Told :=
      h.keep rfl rfl (by simp) rfl rfl
    change (noteAnswer true _).Told
    unfold noteAnswer
    split
    · exact hb
    · exact hb.log rfl
  | start =>
    have hn : l.phase ≠ .up := by rw [show l.phase = .down from he]; simp
    exact .of_down (hsh.empty hn).2.1 (by simp [Line.after, Line.log])
  | abandon =>
    have hn : l.phase ≠ .up := by rw [show l.phase = .opening from he]; simp
    exact .of_down (hsh.empty hn).2.1 (by simp [Line.after])
  | goUp apiKey expires sign =>
    have hn : l.phase ≠ .up := by rw [show l.phase = .opening from he]; simp
    have hup : ({ l with phase := .up } : Line).Told := by
      refine ⟨fun t ht => ?_, fun _ t _ ha => ?_⟩
      · rw [show l.books.subscriptions = [] from (hsh.empty hn).2.1] at ht
        cases ht
      · rw [show asked l.conn t l.trace = false from asked_fresh t (hsh.fresh he)] at ha
        cases ha
    rw [Line.after]
    split
    · exact Told.log (hup.keep rfl rfl rfl rfl rfl) rfl
    · exact hup
  | flush => exact h.flush he
  | flushThrows => exact absurd he hutf.not_throws
  | ping => exact Told.log (h.keep rfl rfl rfl rfl rfl) rfl
  | write =>
    change l.writeHead.Told
    unfold writeHead
    split
    · exact h
    · exact Told.log (h.keep rfl rfl rfl rfl rfl) rfl
  | teardown delayS => exact .of_down rfl (by simp [Line.after, Line.log])

theorem told_of_reach {secured : Bool} (h : (system secured).Reach SendsInTime l) : l.Told :=
  invariant_of_moves (I := Told) (.of_down rfl (by simp [init]))
    (fun _ _ hr hE he hI =>
      hI.after (shape_of_reach hr) (utf8_of_reach (fun _ _ => SendsInTime.asksUtf8) hr) hE he) h

end Told

/-! ## No topic is lost -/

/-- A rejected op is the last one that names the topics it takes out of the subscriptions. -/
def RejectsLatest (l : Line) : Move → Prop
  | .subscribeAck false reqId =>
    ∀ op ∈ l.books.ackedOp reqId, ∀ t ∈ op.2, t ∈ l.books.subscriptions →
      lastSubscribe t l.trace = some (l.conn, op.1)
  | _ => True

instance (l : Line) : DecidablePred l.RejectsLatest
  | .subscribeAck false reqId =>
    inferInstanceAs (Decidable (∀ op ∈ l.books.ackedOp reqId, ∀ t ∈ op.2, t ∈ l.books.subscriptions →
      lastSubscribe t l.trace = some (l.conn, op.1)))
  | .subscribeAck true _ | .request _ | .withdraw _ | .sendUnsubscribe _ | .authAck _ | .start | .abandon | .goUp ..
  | .flush | .flushThrows | .ping | .write | .teardown _ => isTrue trivial

/-- A topic that is wanted is in the books, unless its last subscribe op was rejected. -/
def Kept (l : Line) : Prop :=
  ∀ t, wanted t l.trace = true → t ∈ l.books.subscriptions ∨ t ∈ l.books.pendingTopics ∨ Rejected t l.trace

section Kept

variable {l l' : Line}

theorem wanted_other {e : Event} {past : List Event} (t : Topic) (hreq : ∀ t', e ≠ .requested t')
    (hrem : ∀ t', e ≠ .removed t') : wanted t (e :: past) = wanted t past := by
  cases e with
  | requested t' => exact absurd rfl (hreq t')
  | removed t' => exact absurd rfl (hrem t')
  | _ => rfl

theorem rejected_cons {e : Event} {past : List Event} {t : Topic} (h : Rejected t past)
    (he : lastSubscribe t (e :: past) = lastSubscribe t past) : Rejected t (e :: past) := by
  obtain ⟨conn, reqId, hlast, hans⟩ := h
  exact ⟨conn, reqId, he.trans hlast, List.mem_cons_of_mem _ hans⟩

/-- Books that lose no topic, and an event that is neither a call nor a subscribe. -/
theorem Kept.grow {e : Event} (h : l.Kept) (ht : l'.trace = l.trace ∨ l'.trace = e :: l.trace)
    (hreq : ∀ t', e ≠ .requested t') (hrem : ∀ t', e ≠ .removed t')
    (hlast : ∀ t, lastSubscribe t (e :: l.trace) = lastSubscribe t l.trace)
    (hb : ∀ t, t ∈ l.books.subscriptions ∨ t ∈ l.books.pendingTopics →
      t ∈ l'.books.subscriptions ∨ t ∈ l'.books.pendingTopics) : l'.Kept := by
  have hrej : ∀ t, Rejected t l.trace → Rejected t l'.trace := by
    intro t hr
    rcases ht with ht | ht <;> rw [ht]
    · exact hr
    · exact rejected_cons hr (hlast t)
  intro t hw
  have hw' : wanted t l.trace = true := by
    rcases ht with ht | ht <;> rw [ht] at hw
    · exact hw
    · exact (wanted_other t hreq hrem).symm.trans hw
  rcases h t hw' with hs | hp | hr
  · exact (hb t (Or.inl hs)).imp_right Or.inl
  · exact (hb t (Or.inr hp)).imp_right Or.inl
  · exact Or.inr (Or.inr (hrej t hr))

theorem Kept.request (h : l.Kept) (topic : Topic) : (l.after (.request topic)).Kept := by
  intro t hw
  change t ∈ (l.books.addTopic topic).subscriptions ∨ t ∈ (l.books.addTopic topic).pendingTopics ∨
    Rejected t (.requested topic :: l.trace)
  rw [Books.subscriptions_addTopic, Books.mem_pending_addTopic]
  by_cases heq : t = topic
  · subst heq
    by_cases hs : t ∈ l.books.subscriptions
    · exact Or.inl hs
    · exact Or.inr (Or.inl (Or.inr ⟨rfl, hs⟩))
  · have hw' : wanted t l.trace = true := by
      change (topic = t || wanted t l.trace) = true at hw
      simpa [Ne.symm heq] using hw
    rcases h t hw' with hs | hp | hr
    · exact Or.inl hs
    · exact Or.inr (Or.inl (Or.inl hp))
    · exact Or.inr (Or.inr (rejected_cons hr rfl))

theorem Kept.withdraw (h : l.Kept) (topic : Topic) : (l.after (.withdraw topic)).Kept := by
  intro t hw
  change (topic ≠ t && wanted t l.trace) = true at hw
  simp only [Bool.and_eq_true, decide_eq_true_eq] at hw
  have hne : t ≠ topic := fun heq => hw.1 heq.symm
  rcases h t hw.2 with hs | hp | hr
  · exact Or.inl (Books.mem_erase_subscriptions.2 ⟨hne, hs⟩)
  · exact Or.inr (Or.inl (List.mem_filter.2 ⟨hp, by simpa using hne⟩))
  · exact Or.inr (Or.inr (rejected_cons hr rfl))

/-- Topics that move to `subscriptions` stay in the books, sent or not. -/
theorem Kept.flushThrows (h : l.Kept) : (l.after .flushThrows).Kept := by
  intro t hw
  rcases h t hw with hs | hp | hr
  · exact Or.inl (List.mem_append_left _ hs)
  · exact Or.inl (List.mem_append_right _ hp)
  · exact Or.inr (Or.inr hr)

theorem Kept.flush (h : l.Kept) : (l.after .flush).Kept := by
  intro t hw
  change t ∈ l.books.subscriptions ++ l.books.pendingTopics ∨ t ∈ [] ∨ Rejected t (.enqueued _ :: l.trace)
  have hw' : wanted t l.trace = true := hw
  by_cases hp : t ∈ l.books.pendingTopics
  · exact Or.inl (List.mem_append_right _ hp)
  · rcases h t hw' with hs | hp' | hr
    · exact Or.inl (List.mem_append_left _ hs)
    · exact absurd hp' hp
    · exact Or.inr (Or.inr (rejected_cons hr (if_neg hp)))

/-- The answer to the oldest op: the topics it takes out of the subscriptions have that op as their
last. -/
theorem Kept.subscribeAck (h : l.Kept) (hin : l.InFlight) (hsh : l.Shape) {success : Bool} {reqId : ReqId}
    (hE : l.AnswersInOrder (.subscribeAck success reqId)) (hR : l.RejectsLatest (.subscribeAck success reqId)) :
    (l.after (.subscribeAck success reqId)).Kept := by
  obtain ⟨op, rest, hun, hid⟩ := oldest_of_inOrder hE
  rw [after_subscribeAck hun]
  intro t hw
  have hgrow : Rejected t l.trace → Rejected t (.answered l.conn op.1 success :: l.trace) := fun hr =>
    rejected_cons hr rfl
  rw [show ({ l with books := l.books.ackSubscribe success reqId
                     trace := .answered l.conn op.1 success :: l.trace } : Line).books.pendingTopics =
    l.books.pendingTopics from Books.pending_ackSubscribe success reqId l.books]
  rcases h t hw with hs | hp | hr
  · cases success with
    | true => exact Or.inl (by simpa using hs)
    | false =>
      have hu : l.phase = .up := by
        by_contra hn
        rw [(hsh.empty hn).2.1] at hs
        cases hs
      have hfl : l.books.inflightSubscribes = op :: rest := by rw [hin hu, hun]
      by_cases hmem : t ∈ op.2
      · have hlast := hR op (Books.ackedOp_head hfl hid) t hmem hs
        exact Or.inr (Or.inr ⟨l.conn, op.1, hlast, List.mem_cons_self⟩)
      · exact Or.inl ((Books.mem_subscriptions_ackSubscribe_head hfl hid).2 ⟨hs, hmem⟩)
  · exact Or.inr (Or.inl hp)
  · exact Or.inr (Or.inr (hgrow hr))

theorem Kept.after {m : Move} (h : l.Kept) (hin : l.InFlight) (hsh : l.Shape) (hE : l.AnswersInOrder m)
    (hR : l.RejectsLatest m) : (l.after m).Kept := by
  cases m with
  | request topic => exact h.request topic
  | withdraw topic => exact h.withdraw topic
  | sendUnsubscribe topic =>
    rw [Line.after]
    split
    · exact h.grow (Or.inr rfl) (by simp) (by simp) (fun _ => rfl) fun _ => id
    · exact h
  | authAck success =>
    rw [Line.after]
    split <;> exact h.grow (Or.inr rfl) (by simp) (by simp) (fun _ => rfl) fun _ => id
  | subscribeAck success reqId => exact h.subscribeAck hin hsh hE hR
  | start => exact h.grow (Or.inr rfl) (by simp) (by simp) (fun _ => rfl) fun _ => id
  | abandon => exact h
  | goUp apiKey expires sign =>
    rw [Line.after]
    split
    · exact h.grow (Or.inr rfl) (by simp) (by simp) (fun _ => rfl) fun _ => id
    · exact h
  | flush => exact h.flush
  | flushThrows => exact h.flushThrows
  | ping => exact h.grow (Or.inr rfl) (by simp) (by simp) (fun _ => rfl) fun _ => id
  | write =>
    change l.writeHead.Kept
    unfold writeHead
    split
    · exact h
    · exact h.grow (Or.inr rfl) (by simp) (by simp) (fun _ => rfl) fun _ => id
  | teardown delayS =>
    exact h.grow (Or.inr rfl) (by simp) (by simp) (fun _ => rfl) fun t ht =>
      Or.inr (List.mem_append.2 ht)

theorem kept_of_reach {secured : Bool}
    (h : (system secured).Reach (fun l m => l.Orderly m ∧ l.RejectsLatest m) l) : l.Kept :=
  invariant_of_moves (I := Kept) (fun t hw => by cases hw)
    (fun _ _ hr hE _ hI =>
      hI.after (inflight_eq_unanswered (hr.mono fun _ _ _ hC => hC.1)) (shape_of_reach hr) hE.1.1 hE.2) h

end Kept

end Line

namespace World

/-! ## `subscriptions` and the last op -/

/-- The venue rejects no subscribe. -/
def VenueAccepts (w : World) (a : Action) : Prop := ∀ m ∈ w.cause a, m.isRejection = false

/-- The task that `unsubscribe` posted sends its op while the topic is subscribed again. -/
def LateUnsubscribe (w : World) : Action → Prop
  | .task (.sendUnsubscribe topic) => w.connected = true ∧ topic ∈ w.books.subscriptions
  | _ => False

/-- **What the venue was told.** In a run in which every topic asked for is UTF-8, the venue rejects no
subscribe and no unsubscribe is sent late: with no task posted and the session connected, a topic is
subscribed if and only if the last op of the current connection that names it is a subscribe. -/
theorem subscribed_iff_asked (apiKey apiSecret : String) (w : World)
    (h : (session apiKey apiSecret).Reach
      (fun w a => a.AsksUtf8 ∧ w.VenueAccepts a ∧ ¬ w.LateUnsubscribe a) w)
    (hq : w.tasks = []) (hc : w.connected = true) (topic : Topic) :
    topic ∈ w.books.subscriptions ↔ asked w.generation topic w.trace = true := by
  have hline := line_of_reach (E := Line.SendsInTime) (fun l m hm => by cases m <;> trivial)
    (fun w a m _ hC hcause => by
      cases m with
      | request topic => exact asksUtf8_cause hC.1 hcause
      | sendUnsubscribe topic =>
        intro hup hsub
        rw [cause_sendUnsubscribe hcause] at hC
        exact hC.2.2 ⟨phase_up_iff.1 hup, hsub⟩
      | subscribeAck success reqId =>
        cases success
        · exact absurd (hC.2.1 _ hcause) (by simp [Move.isRejection])
        · rfl
      | _ => trivial) h
  have htold := Line.told_of_reach hline
  constructor
  · exact htold.subscribed topic
  · intro ha
    by_contra hn
    have hmem := htold.unsubscribed (phase_up hc) topic hn ha
    have hnil : w.line.senders = [] := by simp [line, hq]
    rw [hnil] at hmem
    cases hmem

instance (w : World) (a : Action) : Decidable (w.VenueAccepts a) := by
  unfold VenueAccepts; infer_instance

instance (w : World) (a : Action) : Decidable (¬ w.LateUnsubscribe a) := by
  cases a with
  | task t => cases t <;> unfold LateUnsubscribe <;> infer_instance
  | _ => unfold LateUnsubscribe; infer_instance

theorem subscribed_iff_asked_run :
    ∃ w : World, w.connected = true ∧ asked w.generation "tickers.BTCUSDT" w.trace = true ∧
      (.utf8 "tickers.BTCUSDT" ∈ w.books.subscriptions ↔
        asked w.generation "tickers.BTCUSDT" w.trace = true) := by
  obtain ⟨w, hw, hq, hc, ha⟩ := System.Reach.exists_of_exec (S := session "" "")
    (C := fun w a => a.AsksUtf8 ∧ w.VenueAccepts a ∧ ¬ w.LateUnsubscribe a) (l := connectRun "tickers.BTCUSDT")
    (P := fun w =>
      w.tasks = [] ∧ w.connected = true ∧ asked w.generation "tickers.BTCUSDT" w.trace = true) (by decide)
  exact ⟨w, hc, ha, subscribed_iff_asked "" "" w hw hq hc "tickers.BTCUSDT"⟩

/-- One thread subscribes to another topic, unsubscribes and subscribes again, and the strand runs
the three tasks in the order they were posted: the first flush already sends both topics, the
unsubscribe comes after it, and the last flush has nothing to send. -/
theorem subscribed_not_asked :
    ¬ ∀ w, (session "" "").Reach VenueAccepts w → w.userClosed = false → w.tasks = [] → w.connected = true →
      ∀ topic, topic ∈ w.books.subscriptions ↔ asked w.generation topic w.trace = true := by
  intro h
  obtain ⟨w, hw, hu, hq, hc, hmem, ha⟩ := System.Reach.exists_of_exec (S := session "" "") (C := VenueAccepts)
    (l := connectRun "tickers.BTCUSDT" ++
      [.subscribe "tickers.ETHUSDT", .unsubscribe "tickers.BTCUSDT", .subscribe "tickers.BTCUSDT",
        .task .flushTopics, .task (.sendUnsubscribe "tickers.BTCUSDT"), .task .flushTopics])
    (P := fun w => w.userClosed = false ∧ w.tasks = [] ∧ w.connected = true ∧
      .utf8 "tickers.BTCUSDT" ∈ w.books.subscriptions ∧
        asked w.generation "tickers.BTCUSDT" w.trace = false) (by decide)
  have hiff := h w hw hu hq hc "tickers.BTCUSDT"
  rw [ha] at hiff
  exact absurd (hiff.1 hmem) (by simp)

/-! ## Topics that are wanted -/

/-- An op that the venue rejects is the last one that names the topics it takes out of the
subscriptions. -/
def RejectsLatest (w : World) (a : Action) : Prop := ∀ m ∈ w.cause a, w.line.RejectsLatest m

instance (w : World) (a : Action) : Decidable (w.RejectsLatest a) := by
  unfold RejectsLatest; infer_instance

/-- **No topic is lost.** Where every topic asked for is UTF-8, and the venue answers in order and
rejects no op but the latest of the topics it takes out, a topic that was requested and not
unsubscribed since is in the books, unless the most recent subscribe op that names it was rejected. -/
theorem wanted_topic_kept (apiKey apiSecret : String) (w : World)
    (h : (session apiKey apiSecret).Reach (fun w a => w.Orderly a ∧ w.RejectsLatest a) w) (topic : Topic)
    (hw : wanted topic w.trace = true) :
    topic ∈ w.books.subscriptions ∨ topic ∈ w.books.pendingTopics ∨ Rejected topic w.trace := by
  have hline := line_of_reach (E := fun l m => l.Orderly m ∧ l.RejectsLatest m)
    (fun l m hm => ⟨Line.orderly_internal l m hm, by cases m <;> trivial⟩)
    (fun w a m _ hC hcause => ⟨hC.1.cause hcause, hC.2 m hcause⟩) h
  exact Line.kept_of_reach hline topic hw

theorem wanted_topic_kept_run :
    ∃ w : World, wanted "tickers.BTCUSDT" w.trace = true ∧ .utf8 "tickers.BTCUSDT" ∉ w.books.subscriptions ∧
      .utf8 "tickers.BTCUSDT" ∉ w.books.pendingTopics ∧ Rejected "tickers.BTCUSDT" w.trace := by
  obtain ⟨w, hw, hwant, hs, hp⟩ := System.Reach.exists_of_exec (S := session "" "")
    (C := fun w a => w.Orderly a ∧ w.RejectsLatest a)
    (l := connectRun "tickers.BTCUSDT" ++ [.complete ⟨.write, 1, false⟩ .done ⟨0, 0⟩,
      .complete ⟨.read, 1, false⟩ (.frame (some (subscribeAnswer false "1"))) ⟨0, 0⟩])
    (P := fun w => wanted "tickers.BTCUSDT" w.trace = true ∧ .utf8 "tickers.BTCUSDT" ∉ w.books.subscriptions ∧
      .utf8 "tickers.BTCUSDT" ∉ w.books.pendingTopics) (by decide)
  rcases wanted_topic_kept "" "" w hw "tickers.BTCUSDT" hwant with h | h | h
  · exact absurd h hs
  · exact absurd h hp
  · exact ⟨w, hwant, hs, hp, h⟩

/-- The topic is unsubscribed and subscribed again while its first op is in flight. The rejection of
that op takes it out of the books, although a newer op has asked for it. -/
theorem wanted_topic_lost :
    ¬ ∀ w, (session "" "").Reach VenueInOrder w → ∀ topic, wanted topic w.trace = true →
      topic ∈ w.books.subscriptions ∨ topic ∈ w.books.pendingTopics ∨ Rejected topic w.trace := by
  intro h
  obtain ⟨w, hw, hwant, hs, hp, hlast, hans⟩ := System.Reach.exists_of_exec (S := session "" "")
    (C := VenueInOrder) (l := connectRun "tickers.BTCUSDT" ++
      [.unsubscribe "tickers.BTCUSDT", .subscribe "tickers.BTCUSDT", .task (.sendUnsubscribe "tickers.BTCUSDT"),
        .task .flushTopics, .complete ⟨.write, 1, false⟩ .done ⟨0, 0⟩, .complete ⟨.write, 1, false⟩ .done ⟨0, 0⟩,
        .complete ⟨.write, 1, false⟩ .done ⟨0, 0⟩,
        .complete ⟨.read, 1, false⟩ (.frame (some (subscribeAnswer false "1"))) ⟨0, 0⟩])
    (P := fun w => wanted "tickers.BTCUSDT" w.trace = true ∧ .utf8 "tickers.BTCUSDT" ∉ w.books.subscriptions ∧
      .utf8 "tickers.BTCUSDT" ∉ w.books.pendingTopics ∧ lastSubscribe "tickers.BTCUSDT" w.trace = some (1, "2") ∧
      .answered 1 "2" false ∉ w.trace) (by decide)
  rcases h w hw "tickers.BTCUSDT" hwant with hmem | hmem | ⟨conn, reqId, hlast', hans'⟩
  · exact hs hmem
  · exact hp hmem
  · obtain ⟨rfl, rfl⟩ : conn = 1 ∧ reqId = "2" := by
      rw [hlast] at hlast'
      simpa [eq_comm] using hlast'
    exact hans hans'

end World

end BybitApi.Session
