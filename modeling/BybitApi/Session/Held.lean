import BybitApi.Session.Confirm

/-!
# A confirmed topic over reconnects

A topic that was confirmed once is on its way from then on, if nobody unsubscribes and the venue
does not reject it. A teardown puts it back among the pending topics (`Waits`), the first flush of
the next connection sends it together with everything else there is (`Leads`), and the ack of that
op confirms it again (`Confirmed`). So no other topic is confirmed before it is.
-/

namespace BybitApi.Session

open Lib Relation

/-- The move is the rejection of an op that names the topic. -/
def Move.rejects (topic : Topic) (b : Books) : Move → Bool
  | .subscribeAck false reqId => (b.ackedOp reqId).any fun op => topic ∈ op.2
  | _ => false

namespace Line

/-- To be sent with the first flush of the connection. -/
structure Waits (topic : Topic) (b : Books) : Prop where
  pending : topic ∈ b.pendingTopics
  unsent : b.subscriptions = []
  quiet : b.inflightSubscribes = []

/-- Named by the oldest op in flight and no other; every other topic is named by some op in flight. -/
structure Leads (topic : Topic) (b : Books) : Prop where
  subscribed : topic ∈ b.subscriptions
  oldest : ∃ op rest, b.inflightSubscribes = op :: rest ∧ topic ∈ op.2 ∧ ∀ op' ∈ rest, topic ∉ op'.2
  others : ∀ t ∈ b.subscriptions, ∃ op ∈ b.inflightSubscribes, t ∈ op.2

/-- A confirmed topic, or one on its way to be confirmed before any other. -/
def Held (topic : Topic) (b : Books) : Prop := Confirmed topic b ∨ Waits topic b ∨ Leads topic b

/-- While the topic is held, no other topic is confirmed before it. -/
theorem Held.confirmed {topic t : Topic} {b : Books} (h : Held topic b) (ht : Confirmed t b) :
    Confirmed topic b := by
  rcases h with hc | hw | hl
  · exact hc
  · have hmem := ht.subscribed
    rw [hw.unsent] at hmem
    cases hmem
  · obtain ⟨op, hop, hmem⟩ := hl.others t ht.subscribed
    exact absurd hmem (ht.acked op hop)

/-- No unsubscribe, and no rejection of an op that names the topic. -/
def Spares (topic : Topic) (l : Line) : Move → Prop
  | .withdraw _ => False
  | m => m.rejects topic l.books = false

section Held

variable {topic : Topic} {l : Line}

theorem Held.request (h : Held topic l.books) (t : Topic) : Held topic (l.books.addTopic t) := by
  rcases h with hc | hw | hl
  · exact Or.inl ⟨by simpa using hc.subscribed, by simpa using hc.acked⟩
  · exact Or.inr (Or.inl ⟨Books.mem_pending_addTopic.2 (Or.inl hw.pending), by simpa using hw.unsent,
      by simpa using hw.quiet⟩)
  · exact Or.inr (Or.inr ⟨by simpa using hl.subscribed, by simpa using hl.oldest, by simpa using hl.others⟩)

theorem Held.flush {b : Books} (h : Held topic b) : Held topic b.flush := by
  have hsub : b.flush.subscriptions = b.subscriptions ++ b.pendingTopics := rfl
  have hin := Books.inflight_flush b
  rcases h with hc | hw | hl
  · refine Or.inl ⟨by rw [hsub]; exact List.mem_append_left _ hc.subscribed, fun op hop => ?_⟩
    rw [hin] at hop
    rcases List.mem_append.1 hop with hop | hop
    · exact hc.acked op hop
    · rw [List.mem_singleton.1 hop]
      exact Books.not_pending_of_subscribed hc.subscribed
  · rw [hw.quiet, List.nil_append] at hin
    refine Or.inr (Or.inr ⟨?_, ⟨_, [], hin, hw.pending, by simp⟩, fun t ht => ?_⟩)
    · rw [hsub]; exact List.mem_append_right _ hw.pending
    · rw [hsub, hw.unsent, List.nil_append] at ht
      exact ⟨_, by rw [hin]; exact List.mem_cons_self, ht⟩
  · obtain ⟨op, rest, hfl, hmem, hrest⟩ := hl.oldest
    refine Or.inr (Or.inr ⟨by rw [hsub]; exact List.mem_append_left _ hl.subscribed, ?_, ?_⟩)
    · refine ⟨op, rest ++ [(b.nextReqId, b.pendingTopics)], by rw [hin, hfl]; rfl, hmem, fun op' hop' => ?_⟩
      rcases List.mem_append.1 hop' with hop' | hop'
      · exact hrest op' hop'
      · rw [List.mem_singleton.1 hop']
        exact Books.not_pending_of_subscribed hl.subscribed
    · intro t ht
      rw [hsub] at ht
      rw [hin]
      rcases List.mem_append.1 ht with ht | ht
      · obtain ⟨op', hop', ht'⟩ := hl.others t ht
        exact ⟨op', List.mem_append_left _ hop', ht'⟩
      · exact ⟨_, List.mem_append_right _ List.mem_cons_self, ht⟩

theorem Held.replay {b : Books} (h : Held topic b) : Held topic b.replay := by
  refine Or.inr (Or.inl ⟨?_, rfl, rfl⟩)
  change topic ∈ b.subscriptions ++ b.pendingTopics
  rcases h with hc | hw | hl
  · exact List.mem_append_left _ hc.subscribed
  · exact List.mem_append_right _ hw.pending
  · exact List.mem_append_left _ hl.subscribed

/-- The answer to the oldest op, which is no rejection of the topic. -/
theorem Held.ackSubscribe {b : Books} {op : ReqId × List Topic} {rest : List (ReqId × List Topic)}
    {reqId : ReqId}
    (h : Held topic b) (hfl : b.inflightSubscribes = op :: rest) (hid : reqId = op.1 ∨ reqId = "")
    {success : Bool} (hs : success = false → topic ∉ op.2) : Held topic (b.ackSubscribe success reqId) := by
  have hin := Books.inflight_ackSubscribe_head hfl hid success
  have hsub : topic ∈ b.subscriptions → topic ∈ (b.ackSubscribe success reqId).subscriptions := by
    intro hmem
    cases success with
    | true => simpa using hmem
    | false => exact (Books.mem_subscriptions_ackSubscribe_head hfl hid).2 ⟨hmem, hs rfl⟩
  rcases h with hc | hw | hl
  · refine Or.inl ⟨hsub hc.subscribed, fun op' hop' => hc.acked op' ?_⟩
    rw [hin] at hop'
    rw [hfl]
    exact List.mem_cons_of_mem _ hop'
  · rw [hw.quiet] at hfl
    cases hfl
  · -- the op that names the topic is the one answered
    obtain ⟨op', rest', hfl', -, hrest⟩ := hl.oldest
    obtain ⟨rfl, rfl⟩ := List.cons.inj (hfl.symm.trans hfl')
    exact Or.inl ⟨hsub hl.subscribed, by rw [hin]; exact hrest⟩

theorem Held.after {m : Move} (h : Held topic l.books) (hin : l.InFlight) (hsh : l.Shape)
    (hE : l.AnswersInOrder m) (hS : l.Spares topic m) : Held topic (l.after m).books := by
  cases m with
  | request t => exact h.request t
  | withdraw t => exact hS.elim
  | sendUnsubscribe t =>
    rw [Line.after]
    split <;> exact h
  | authAck success =>
    rw [Line.after]
    split <;> exact h
  | subscribeAck success reqId =>
    obtain ⟨op, rest, hun, hid⟩ := oldest_of_inOrder hE
    rw [after_subscribeAck hun]
    change Held topic (l.books.ackSubscribe success reqId)
    by_cases hu : l.phase = .up
    · have hfl : l.books.inflightSubscribes = op :: rest := by rw [hin hu, hun]
      refine h.ackSubscribe hfl hid fun hfail => ?_
      subst hfail
      simpa [Spares, Move.rejects, Books.ackedOp_head hfl hid] using hS
    · rw [Books.ackSubscribe_of_nil (hsh.empty hu).2.2]
      exact h
  | goUp apiKey expires sign =>
    rw [Line.after]
    split <;> exact h
  | flush | flushThrows => exact h.flush
  | write =>
    change Held topic l.writeHead.books
    unfold writeHead
    split <;> exact h
  | teardown delayS => exact h.replay
  | _ => exact h

/-- Over a sequence of moves. -/
theorem Held.path {secured : Bool} {l' : Line} (h : Held topic l.books)
    (hr : (system secured).Reach Orderly l)
    (hp : ReflTransGen ((system secured).Next fun l m => l.Orderly m ∧ l.Spares topic m) l l') :
    Held topic l'.books := by
  have hboth : (system secured).Reach Orderly l' ∧ Held topic l'.books := by
    induction hp with
    | refl => exact ⟨hr, h⟩
    | tail _ hn ih =>
      obtain ⟨m, hE, hs⟩ := hn
      obtain ⟨hr', h'⟩ := ih
      refine ⟨hr'.step hE.1 hs, ?_⟩
      obtain ⟨-, rfl⟩ := step_eq_some hs
      exact h'.after (inflight_eq_unanswered hr') (shape_of_reach hr') hE.1.1 hE.2
  exact hboth.2

end Held

end Line

namespace World

/-- The action brings the rejection of an op that names the topic. -/
def rejects (topic : Topic) (w : World) (a : Action) : Bool :=
  (w.cause a).any fun m => m.rejects topic w.books

/-- A step that neither unsubscribes nor brings a rejection of the topic. -/
theorem held_step {apiKey apiSecret : String} {w w' : World} {a : Action} {topic : Topic}
    (hr : (session apiKey apiSecret).Reach Orderly w) (hs : step w a = some w') (hin : w.Orderly a)
    (hun : ∀ t, a ≠ .unsubscribe t) (hrej : w.rejects topic a = false) (h : Line.Held topic w.books) :
    Line.Held topic w'.books := by
  have hint : ∀ (l : Line) (m : Move), m.isInternal = true → l.Orderly m ∧ l.Spares topic m := fun l m hm =>
    ⟨Line.orderly_internal l m hm, by cases m <;> first | rfl | cases hm⟩
  have hcause : ∀ m, w.cause a = some m → w.line.Orderly m ∧ w.line.Spares topic m := by
    intro m hm
    have hm' : m.rejects topic w.books = false := by simpa [rejects, hm] using hrej
    refine ⟨hin.cause hm, ?_⟩
    cases m with
    | withdraw t => exact absurd (cause_withdraw hm) (hun t)
    | _ => exact hm'
  have hline : Line.Held topic w.line.books := h
  exact hline.path (line_of_orderly hr) (refines hint (Loop.of_reach hr) hs hcause)

end World

end BybitApi.Session
