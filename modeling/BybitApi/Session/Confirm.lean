import BybitApi.Session.Acks

/-!
# Confirmed subscriptions

`isSubscriptionConfirmed` is not stored. It is read off the books: the topic is among the
subscriptions and no op in flight names it. The invariant that gives it its meaning: the last
subscribe op naming a subscribed topic is of the current connection, and either it is in flight or
its success ack has been processed.
-/

namespace BybitApi.Session

open Lib

namespace Line

/-- Subscribed, and named by no op in flight. -/
structure Confirmed (topic : Topic) (b : Books) : Prop where
  subscribed : topic ∈ b.subscriptions
  acked : ∀ op ∈ b.inflightSubscribes, topic ∉ op.2

theorem confirmed_iff {topic : Topic} {b : Books} :
    b.isSubscriptionConfirmed topic = true ↔ Confirmed topic b := by
  simp only [Books.isSubscriptionConfirmed, Bool.and_eq_true, decide_eq_true_eq, List.all_eq_true,
    Bool.not_eq_true', decide_eq_false_iff_not]
  exact ⟨fun h => ⟨h.1, h.2⟩, fun h => ⟨h.subscribed, h.acked⟩⟩

/-- The last subscribe op that names the topic is of this connection; it is in flight, or was accepted. -/
def Sent (l : Line) (topic : Topic) : Prop :=
  ∃ reqId, lastSubscribe topic l.trace = some (l.conn, reqId) ∧
    ((∃ op ∈ l.books.inflightSubscribes, op.1 = reqId ∧ topic ∈ op.2) ∨ .answered l.conn reqId true ∈ l.trace)

structure Confirming (l : Line) : Prop where
  sent : ∀ t ∈ l.books.subscriptions, l.Sent t
  authed : l.books.subscriptions ≠ [] → l.secured = true → l.authed = true

section Confirming

variable {l l' : Line}

theorem Sent.log {e : Event} {t : Topic} (h : l.Sent t) (he : e.isPlain = true) : (l.log e).Sent t := by
  obtain ⟨reqId, hlast, hcase⟩ := h
  refine ⟨reqId, (lastSubscribe_plain t he).trans hlast, ?_⟩
  exact hcase.imp_right (List.mem_cons_of_mem _)

theorem Sent.keep {t : Topic} (h : l.Sent t) (hc : l'.conn = l.conn)
    (hb : l'.books.inflightSubscribes = l.books.inflightSubscribes) (ht : l'.trace = l.trace) : l'.Sent t := by
  unfold Sent
  rw [hc, hb, ht]
  exact h

theorem Confirming.log {e : Event} (h : l.Confirming) (he : e.isPlain = true) : (l.log e).Confirming :=
  ⟨fun t ht => (h.sent t ht).log he, h.authed⟩

theorem Confirming.keep (h : l.Confirming) (hs : l'.secured = l.secured) (hc : l'.conn = l.conn)
    (ha : l.authed = true → l'.authed = true) (hsub : l'.books.subscriptions ⊆ l.books.subscriptions)
    (hb : l'.books.inflightSubscribes = l.books.inflightSubscribes) (ht : l'.trace = l.trace) :
    l'.Confirming where
  sent := fun t hmem => (h.sent t (hsub hmem)).keep hc hb ht
  authed := fun hne hsec => ha (h.authed (fun hnil => hne (List.eq_nil_of_subset_nil (hnil ▸ hsub))) (hs ▸ hsec))

/-- Nothing is subscribed, so there is nothing to say. -/
theorem Confirming.of_nil (h : l.books.subscriptions = []) : l.Confirming where
  sent := fun t ht => by rw [h] at ht; cases ht
  authed := fun hne => absurd h hne

/-- The answer to the oldest op: the topics it names are accepted, or are gone. -/
theorem Confirming.subscribeAck (h : l.Confirming) (hin : l.InFlight) (hsh : l.Shape) {success : Bool}
    {reqId : ReqId} (hE : l.AnswersInOrder (.subscribeAck success reqId)) :
    (l.after (.subscribeAck success reqId)).Confirming := by
  obtain ⟨op, rest, hun, hid⟩ := oldest_of_inOrder hE
  rw [after_subscribeAck hun]
  by_cases hu : l.phase = .up
  swap
  · obtain ⟨-, hsub, hfl⟩ := hsh.empty hu
    refine .of_nil ?_
    change (l.books.ackSubscribe success reqId).subscriptions = []
    rw [Books.ackSubscribe_of_nil hfl, hsub]
  have hfl : l.books.inflightSubscribes = op :: rest := by rw [hin hu, hun]
  refine ⟨fun t ht => ?_, fun hne => h.authed fun hnil => hne ?_⟩
  · have hmem := Books.subscriptions_ackSubscribe_subset success reqId l.books t ht
    obtain ⟨reqId', hlast, hcase⟩ := h.sent t hmem
    refine ⟨reqId', hlast, ?_⟩
    rcases hcase with ⟨op', hop', hid', ht'⟩ | hans
    · rw [hfl] at hop'
      rcases List.mem_cons.1 hop' with rfl | hrest
      · -- the op that names the topic is the one answered
        right
        cases success with
        | true =>
          rw [hid']
          exact List.mem_cons_self
        | false => exact absurd ht' ((Books.mem_subscriptions_ackSubscribe_head hfl hid).1 ht).2
      · left
        refine ⟨op', ?_, hid', ht'⟩
        change op' ∈ (l.books.ackSubscribe success reqId).inflightSubscribes
        rw [Books.inflight_ackSubscribe_head hfl hid]
        exact hrest
    · exact Or.inr (List.mem_cons_of_mem _ hans)
  · refine List.eq_nil_iff_forall_not_mem.2 fun t ht => ?_
    have hmem := Books.subscriptions_ackSubscribe_subset success reqId l.books t ht
    rw [hnil] at hmem
    cases hmem

/-- A flush: what was pending is in flight, and the rest is as it was. -/
theorem Confirming.flush (h : l.Confirming) (he : l.Enabled .flush) : (l.after .flush).Confirming := by
  refine ⟨fun t ht => ?_, fun _ => he.2.1⟩
  change t ∈ l.books.subscriptions ++ l.books.pendingTopics at ht
  have hin : (l.after .flush).books.inflightSubscribes = _ := Books.inflight_flush l.books
  rcases List.mem_append.1 ht with hsub | hpend
  · obtain ⟨reqId, hlast, hcase⟩ := h.sent t hsub
    refine ⟨reqId, ?_, ?_⟩
    · change (if t ∈ l.books.pendingTopics then _ else lastSubscribe t l.trace) = _
      rw [if_neg (Books.not_pending_of_subscribed hsub), hlast]
      rfl
    · rcases hcase with ⟨op, hop, hid, hmem⟩ | hans
      · exact Or.inl ⟨op, by rw [hin]; exact List.mem_append_left _ hop, hid, hmem⟩
      · exact Or.inr (List.mem_cons_of_mem _ hans)
  · refine ⟨l.books.nextReqId, ?_, Or.inl ⟨(l.books.nextReqId, l.books.pendingTopics), ?_, rfl, hpend⟩⟩
    · change (if t ∈ l.books.pendingTopics then _ else lastSubscribe t l.trace) = _
      rw [if_pos hpend]
      rfl
    · rw [hin]
      exact List.mem_append_right _ List.mem_cons_self

theorem Confirming.after {m : Move} (h : l.Confirming) (hin : l.InFlight) (hsh : l.Shape) (hutf : l.Utf8)
    (hE : l.AnswersInOrder m) (he : l.Enabled m) : (l.after m).Confirming := by
  have hrefl : l.books.subscriptions ⊆ l.books.subscriptions := List.Subset.refl _
  cases m with
  | request topic => exact Confirming.log (h.keep rfl rfl id (by simp) (by simp) rfl) rfl
  | withdraw topic => exact Confirming.log (h.keep rfl rfl id List.erase_subset rfl rfl) rfl
  | sendUnsubscribe topic =>
    rw [Line.after]
    split
    · exact Confirming.log (h.keep rfl rfl id hrefl rfl rfl) rfl
    · exact h.keep rfl rfl id hrefl rfl rfl
  | authAck success =>
    rw [Line.after]
    split
    · exact Confirming.log (h.keep rfl rfl (fun _ => rfl) hrefl rfl rfl) rfl
    · exact h.log rfl
  | subscribeAck success reqId => exact h.subscribeAck hin hsh hE
  | start =>
    have hn : l.phase ≠ .up := by rw [show l.phase = .down from he]; simp
    exact .of_nil (hsh.empty hn).2.1
  | abandon => exact h.keep rfl rfl id hrefl rfl rfl
  | goUp apiKey expires sign =>
    have hn : l.phase ≠ .up := by rw [show l.phase = .opening from he]; simp
    rw [Line.after]
    split <;> exact .of_nil (hsh.empty hn).2.1
  | flush => exact h.flush he
  | flushThrows => exact absurd he hutf.not_throws
  | ping => exact Confirming.log (h.keep rfl rfl id hrefl rfl rfl) rfl
  | write =>
    change l.writeHead.Confirming
    unfold writeHead
    split
    · exact h
    · exact Confirming.log (h.keep rfl rfl id hrefl rfl rfl) rfl
  | teardown delayS => exact .of_nil rfl

theorem confirming_of_reach {secured : Bool} (h : (system secured).Reach Orderly l) : l.Confirming :=
  invariant_of_moves (I := Confirming) (.of_nil rfl)
    (fun _ _ hr hE he hI => hI.after (inflight_eq_unanswered hr) (shape_of_reach hr)
      (utf8_of_reach (fun _ _ => And.right) hr) hE.1 he) h

/-- **Confirmation.** A confirmed topic is on a line that is up and, where there are credentials,
authenticated, and the last op that names it was accepted. -/
theorem Confirming.confirmed (h : l.Confirming) (hsh : l.Shape) {topic : Topic}
    (hc : Confirmed topic l.books) :
    l.phase = .up ∧ (l.secured = true → l.authed = true) ∧
      ∃ reqId, lastSubscribe topic l.trace = some (l.conn, reqId) ∧ .answered l.conn reqId true ∈ l.trace := by
  obtain ⟨hmem, hfree⟩ := hc
  refine ⟨?_, h.authed (List.ne_nil_of_mem hmem), ?_⟩
  · by_contra hn
    rw [(hsh.empty hn).2.1] at hmem
    cases hmem
  · obtain ⟨reqId, hlast, ⟨op, hop, -, htop⟩ | hans⟩ := h.sent topic hmem
    · exact absurd htop (hfree op hop)
    · exact ⟨reqId, hlast, hans⟩

end Confirming

end Line

namespace World

/-- The venue answers the subscribe ops of a connection in request order, with their req_id or none. -/
def VenueInOrder (w : World) (a : Action) : Prop := ∀ m ∈ w.cause a, w.line.AnswersInOrder m

instance (w : World) (a : Action) : Decidable (w.VenueInOrder a) := by
  unfold VenueInOrder; infer_instance

/-- The venue answers in order, and every topic asked for is UTF-8. -/
def Orderly (w : World) (a : Action) : Prop := w.VenueInOrder a ∧ a.AsksUtf8

instance (w : World) (a : Action) : Decidable (w.Orderly a) := by
  unfold Orderly; infer_instance

theorem Orderly.cause {w : World} {a : Action} {m : Move} (h : w.Orderly a) (hm : w.cause a = some m) :
    w.line.Orderly m :=
  ⟨h.1 m hm, asksUtf8_cause h.2 hm⟩

theorem line_of_orderly {apiKey apiSecret : String} {w : World}
    (h : (session apiKey apiSecret).Reach Orderly w) :
    (Line.system (World.init apiKey apiSecret).authRequired).Reach Line.Orderly w.line :=
  line_of_reach Line.orderly_internal (fun _ _ _ _ hC hm => hC.cause hm) h

/-- **Confirmed subscriptions.** Where the venue answers in order and every topic asked for is UTF-8, a
topic that `isSubscriptionConfirmed` reports is on a session that is connected and, with credentials,
authenticated; the most recent subscribe op that names it was enqueued on the current connection,
and its success ack has been processed. -/
theorem subscription_confirmed (apiKey apiSecret : String) (w : World)
    (h : (session apiKey apiSecret).Reach Orderly w) (topic : Topic)
    (hc : w.isSubscriptionConfirmed topic = true) :
    w.connected = true ∧ (w.authRequired = true → w.authenticated = true) ∧
      ∃ reqId, lastSubscribe topic w.trace = some (w.generation, reqId) ∧
        .answered w.generation reqId true ∈ w.trace := by
  have hline := line_of_orderly h
  obtain ⟨hup, hauth, hack⟩ := (Line.confirming_of_reach hline).confirmed (Line.shape_of_reach hline)
    (Line.confirmed_iff.1 hc)
  exact ⟨phase_up_iff.1 hup, hauth, hack⟩

/-- The answer to a subscribe op. -/
def subscribeAnswer (success : Bool) (reqId : ReqId) : Json :=
  .obj [("op", .str "subscribe"), ("success", .bool success), ("req_id", .str reqId)]

theorem subscription_confirmed_run :
    ∃ w : World, w.isSubscriptionConfirmed "order" = true ∧
      ∃ reqId, lastSubscribe "order" w.trace = some (w.generation, reqId) := by
  obtain ⟨w, hw, hc⟩ := System.Reach.exists_of_exec (S := session "key" "secret") (C := Orderly)
    (l := authenticatedRun ++ [.complete ⟨.write, 1, false⟩ .done ⟨0, 0⟩,
      .complete ⟨.read, 1, false⟩ (.frame (some (subscribeAnswer true "1"))) ⟨0, 0⟩])
    (P := fun w => w.isSubscriptionConfirmed "order" = true) (by decide)
  obtain ⟨-, -, reqId, hlast, -⟩ := subscription_confirmed "key" "secret" w hw "order" hc
  exact ⟨w, hc, reqId, hlast⟩

/-- The flush of the second topic throws when its op is booked. The success ack of the third topic's op
has no req_id and is booked to the op that was never sent, so the second topic counts as confirmed. -/
theorem unsent_topic_confirmed :
    ¬ ∀ w, (session "" "").Reach VenueInOrder w → w.userClosed = false → ∀ topic,
      w.isSubscriptionConfirmed topic = true → w.connected = true ∧
        (w.authRequired = true → w.authenticated = true) ∧
        ∃ reqId, lastSubscribe topic w.trace = some (w.generation, reqId) ∧
          .answered w.generation reqId true ∈ w.trace := by
  intro h
  obtain ⟨w, hw, hclosed, hc, hlast⟩ := System.Reach.exists_of_exec (S := session "" "") (C := VenueInOrder)
    (l := connectRun "tickers.A" ++ [.complete ⟨.read, 1, false⟩ (.frame (some (subscribeAnswer true "1"))) ⟨0, 0⟩,
      .subscribe notUtf8, .task .flushTopics, .subscribe "tickers.B", .task .flushTopics,
      .complete ⟨.read, 1, false⟩ (.frame (some (subscribeAnswer true ""))) ⟨0, 0⟩])
    (P := fun w => w.userClosed = false ∧ w.isSubscriptionConfirmed notUtf8 = true ∧
      lastSubscribe notUtf8 w.trace = none) (by decide)
  obtain ⟨-, -, reqId, hsub, -⟩ := h w hw hclosed notUtf8 hc
  rw [hlast] at hsub
  cases hsub

end World

end BybitApi.Session
