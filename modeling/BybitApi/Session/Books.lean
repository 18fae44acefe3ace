import Mathlib.Data.List.Basic
import Mathlib.Data.List.MinMax
import Mathlib.Data.List.Nodup
import Mathlib.Data.List.Lattice

/-!
# The topic books of a session

`subscriptions`, `pendingTopics`, `inflightSubscribes` and `reqIdCounter` of `WebSocketSession::P`,
and what each section that holds `locker` does to them. One such section is one operation here:
`addTopic`, `removeTopic`, the first section of `flushTopics`, the subscribe branch of
`handleApiControlMsg`, and the replay in `handleError`.

No topic occurs twice in the two lists of topics together, and the ops in flight are numbered in the
order they were sent. These are fields of `Books`, so every operation shows that it keeps them.
-/

namespace BybitApi.Session

/-- A `std::string` that a caller hands over: text, or bytes that are no UTF-8. `dump()` writes the
text, and throws `type_error` 316 on the other. -/
inductive StdString where
  | utf8 (s : String)
  | other (bytes : ByteArray) (invalid : ¬ bytes.IsValidUTF8)

instance : DecidableEq StdString
  | .utf8 s, .utf8 t => decidable_of_iff (s = t) (by simp)
  | .other s _, .other t _ =>
    -- Batteries has a second instance for `ByteArray`.
    match ByteArray.instDecidableEq s t with
    | isTrue h => isTrue (by subst h; rfl)
    | isFalse h => isFalse fun heq => h (StdString.other.inj heq)
  | .utf8 _, .other _ _ | .other _ _, .utf8 _ => isFalse nofun

instance : Coe String StdString := ⟨.utf8⟩

def StdString.isUtf8 : StdString → Bool
  | utf8 _ => true
  | other _ _ => false

abbrev Topic := StdString

abbrev ReqId := String

/-- `std::to_string` of a counter. -/
def toReqId (n : ℕ) : ReqId := toString n

/-- `std::stoull` on a key of `inflightSubscribes`. -/
def stoull (reqId : ReqId) : ℕ := Nat.ofDigitChars 10 reqId.toList 0

@[simp] theorem stoull_toReqId (n : ℕ) : stoull (toReqId n) = n := by
  simp [stoull, toReqId, Nat.ofDigitChars_ten_toDigits]

theorem toReqId_ne_empty (n : ℕ) : toReqId n ≠ "" := by
  intro h
  have hl : (toReqId n).toList.length = 0 := by rw [h]; rfl
  have hpos : 0 < (Nat.toDigits 10 n).length := Nat.length_toDigits_pos
  simp only [toReqId, Nat.toString_eq_repr, Nat.toList_repr] at hl
  omega

/-- The two books of topics and the subscribe ops that are not acked yet. The map from req_id to
topics is a list in the order the ops were sent; nothing reads the order of the map. -/
structure Books where
  subscriptions : List Topic
  pendingTopics : List Topic
  inflightSubscribes : List (ReqId × List Topic)
  reqIdCounter : ℕ
  nodup : (subscriptions ++ pendingTopics).Nodup
  sorted : inflightSubscribes.Pairwise fun op op' => stoull op.1 < stoull op'.1
  numbered : ∀ op ∈ inflightSubscribes, ∃ n ≤ reqIdCounter, op.1 = toReqId n

namespace Books

def empty : Books := ⟨[], [], [], 0, by simp, by simp, by simp⟩

/-! ### The operations -/

def addTopic (topic : Topic) (b : Books) : Books :=
  if h₁ : topic ∈ b.subscriptions then b
  else if h₂ : topic ∈ b.pendingTopics then b
  else
    { b with
      pendingTopics := b.pendingTopics ++ [topic]
      nodup := by
        rw [← List.append_assoc]
        exact List.Nodup.append b.nodup (by simp) (by simp [List.disjoint_singleton, h₁, h₂]) }

theorem nodup_remove (b : Books) (topic : Topic) :
    (b.subscriptions.erase topic ++ b.pendingTopics.filter (· ≠ topic)).Nodup :=
  b.nodup.sublist (List.Sublist.append List.erase_sublist List.filter_sublist)

/-- `removeTopic`: the books after it, and whether the subscribe was already sent. -/
def removeTopic (topic : Topic) (b : Books) : Bool × Books :=
  (decide (topic ∈ b.subscriptions),
    { b with
      subscriptions := b.subscriptions.erase topic
      pendingTopics := b.pendingTopics.filter (· ≠ topic)
      nodup := b.nodup_remove topic })

def isSubscribed (b : Books) (topic : Topic) : Bool :=
  decide (topic ∈ b.subscriptions) || decide (topic ∈ b.pendingTopics)

def isSubscriptionConfirmed (b : Books) (topic : Topic) : Bool :=
  decide (topic ∈ b.subscriptions) && b.inflightSubscribes.all fun op => !decide (topic ∈ op.2)

/-- The req_id the next subscribe op gets: `std::to_string(++reqIdCounter)`. -/
def nextReqId (b : Books) : ReqId := toReqId (b.reqIdCounter + 1)

theorem lt_next {b : Books} {op : ReqId × List Topic} (h : op ∈ b.inflightSubscribes) :
    stoull op.1 < b.reqIdCounter + 1 := by
  obtain ⟨n, hn, heq⟩ := b.numbered op h
  rw [heq, stoull_toReqId]
  omega

/-- `flushTopics`, the section under `locker`, where `pendingTopics` is not empty. -/
def flush (b : Books) : Books where
  subscriptions := b.subscriptions ++ b.pendingTopics
  pendingTopics := []
  inflightSubscribes :=
    b.inflightSubscribes.filter (fun op => op.1 ≠ b.nextReqId) ++ [(b.nextReqId, b.pendingTopics)]
  reqIdCounter := b.reqIdCounter + 1
  nodup := by simpa using b.nodup
  sorted := by
    rw [List.pairwise_append]
    refine ⟨b.sorted.filter _, List.pairwise_singleton _ _, fun op hop op' hop' => ?_⟩
    rw [List.mem_singleton.1 hop', nextReqId, stoull_toReqId]
    exact lt_next (List.mem_filter.1 hop).1
  numbered := by
    intro op hop
    rcases List.mem_append.1 hop with hop | hop
    · obtain ⟨n, hn, heq⟩ := b.numbered op (List.mem_filter.1 hop).1
      exact ⟨n, by omega, heq⟩
    · exact ⟨b.reqIdCounter + 1, le_rfl, by rw [List.mem_singleton.1 hop]; rfl⟩

/-- The op a subscribe ack answers: the one with its req_id, or the oldest one when the ack has none. -/
def ackedOp (reqId : ReqId) (b : Books) : Option (ReqId × List Topic) :=
  match b.inflightSubscribes.find? fun op => op.1 = reqId with
  | some op => some op
  | none => if reqId = "" then b.inflightSubscribes.argmin fun op => stoull op.1 else none

/-- The loop that prunes the topics of a rejected op. -/
def prune (topics subscriptions : List Topic) : List Topic :=
  topics.foldl (fun subs topic => subs.erase topic) subscriptions

theorem prune_eq_diff (topics subscriptions : List Topic) :
    prune topics subscriptions = subscriptions.diff topics :=
  (List.diff_eq_foldl _ _).symm

theorem prune_sublist (topics subscriptions : List Topic) :
    List.Sublist (prune topics subscriptions) subscriptions := by
  rw [prune_eq_diff]; exact List.diff_sublist _ _

theorem nodup_prune (b : Books) (topics : List Topic) :
    (prune topics b.subscriptions ++ b.pendingTopics).Nodup :=
  b.nodup.sublist ((prune_sublist _ _).append (List.Sublist.refl _))

/-- The subscribe branch of `handleApiControlMsg`. -/
def ackSubscribe (success : Bool) (reqId : ReqId) (b : Books) : Books :=
  match b.ackedOp reqId with
  | none => b
  | some op =>
    { b with
      subscriptions := if success then b.subscriptions else prune op.2 b.subscriptions
      inflightSubscribes := b.inflightSubscribes.filter fun o => o.1 ≠ op.1
      nodup := by
        cases success
        · simpa using b.nodup_prune op.2
        · simpa using b.nodup
      sorted := b.sorted.filter _
      numbered := fun o ho => b.numbered o (List.mem_filter.1 ho).1 }

/-- What `handleError` does to the books: every subscribed topic goes back to the front of
`pendingTopics`. -/
def replay (b : Books) : Books where
  subscriptions := []
  pendingTopics := b.subscriptions ++ b.pendingTopics
  inflightSubscribes := []
  reqIdCounter := b.reqIdCounter
  nodup := by simpa using b.nodup
  sorted := List.Pairwise.nil
  numbered := by simp

/-! ### What they do to the lists -/

@[simp] theorem subscriptions_addTopic (topic : Topic) (b : Books) :
    (b.addTopic topic).subscriptions = b.subscriptions := by
  unfold addTopic; split <;> [rfl; (split <;> rfl)]

@[simp] theorem inflight_addTopic (topic : Topic) (b : Books) :
    (b.addTopic topic).inflightSubscribes = b.inflightSubscribes := by
  unfold addTopic; split <;> [rfl; (split <;> rfl)]

theorem mem_pending_addTopic {topic t : Topic} {b : Books} :
    t ∈ (b.addTopic topic).pendingTopics ↔ t ∈ b.pendingTopics ∨ (t = topic ∧ topic ∉ b.subscriptions) := by
  unfold addTopic
  split
  · next h => simp [h]
  · next h =>
    split
    · next h' =>
      constructor
      · exact Or.inl
      · rintro (h | ⟨rfl, -⟩)
        · exact h
        · exact h'
    · simp [h]

@[simp] theorem subscriptions_removeTopic (topic : Topic) (b : Books) :
    (b.removeTopic topic).2.subscriptions = b.subscriptions.erase topic := rfl

@[simp] theorem pending_removeTopic (topic : Topic) (b : Books) :
    (b.removeTopic topic).2.pendingTopics = b.pendingTopics.filter (· ≠ topic) := rfl

@[simp] theorem inflight_removeTopic (topic : Topic) (b : Books) :
    (b.removeTopic topic).2.inflightSubscribes = b.inflightSubscribes := rfl

theorem nodup_subscriptions (b : Books) : b.subscriptions.Nodup :=
  b.nodup.sublist (List.sublist_append_left _ _)

/-- A topic is in one of the two lists only. -/
theorem not_pending_of_subscribed {b : Books} {t : Topic} (h : t ∈ b.subscriptions) : t ∉ b.pendingTopics :=
  fun hp => (List.nodup_append.1 b.nodup).2.2 t h t hp rfl

theorem mem_erase_subscriptions {b : Books} {t topic : Topic} :
    t ∈ b.subscriptions.erase topic ↔ t ≠ topic ∧ t ∈ b.subscriptions :=
  b.nodup_subscriptions.mem_erase_iff

theorem mem_prune {b : Books} {t : Topic} {topics : List Topic} :
    t ∈ prune topics b.subscriptions ↔ t ∈ b.subscriptions ∧ t ∉ topics := by
  rw [prune_eq_diff]
  exact b.nodup_subscriptions.mem_sdiff_iff

/-- With no op in flight there is nothing an ack could answer. -/
theorem ackSubscribe_of_nil {b : Books} (h : b.inflightSubscribes = []) (success : Bool) (reqId : ReqId) :
    b.ackSubscribe success reqId = b := by
  have hop : b.ackedOp reqId = none := by
    unfold ackedOp
    rw [h]
    simp
  unfold ackSubscribe
  rw [hop]

theorem subscriptions_ackSubscribe_subset (success : Bool) (reqId : ReqId) (b : Books) :
    ∀ t ∈ (b.ackSubscribe success reqId).subscriptions, t ∈ b.subscriptions := by
  intro t ht
  unfold ackSubscribe at ht
  split at ht
  · exact ht
  · cases success
    · exact (prune_sublist _ _).subset ht
    · exact ht

/-- A success ack takes an op out of flight, and does nothing else. -/
@[simp] theorem subscriptions_ackSubscribe_true (reqId : ReqId) (b : Books) :
    (b.ackSubscribe true reqId).subscriptions = b.subscriptions := by
  unfold ackSubscribe
  split <;> rfl

@[simp] theorem pending_ackSubscribe (success : Bool) (reqId : ReqId) (b : Books) :
    (b.ackSubscribe success reqId).pendingTopics = b.pendingTopics := by
  unfold ackSubscribe
  split <;> rfl

/-! ### Ops in flight -/

@[simp] theorem inflight_flush (b : Books) :
    b.flush.inflightSubscribes = b.inflightSubscribes ++ [(b.nextReqId, b.pendingTopics)] := by
  have h : b.inflightSubscribes.filter (fun op => op.1 ≠ b.nextReqId) = b.inflightSubscribes := by
    refine List.filter_eq_self.2 fun op hop => ?_
    have hlt := lt_next hop
    rw [decide_eq_true_eq]
    intro heq
    rw [heq, nextReqId, stoull_toReqId] at hlt
    omega
  change b.inflightSubscribes.filter _ ++ _ = _
  rw [h]

/-- Two ops in flight with the same req_id are the same op. -/
theorem ne_of_mem_tail {b : Books} {op op' : ReqId × List Topic} {rest : List (ReqId × List Topic)}
    (h : b.inflightSubscribes = op :: rest) (hmem : op' ∈ rest) : op'.1 ≠ op.1 := by
  have hs := b.sorted
  rw [h, List.pairwise_cons] at hs
  intro heq
  have hlt := hs.1 op' hmem
  rw [heq] at hlt
  exact lt_irrefl _ hlt

/-- An ack with the req_id of the oldest op, or with none, answers the oldest op. -/
theorem ackedOp_head {b : Books} {op : ReqId × List Topic} {rest : List (ReqId × List Topic)}
    {reqId : ReqId}
    (h : b.inflightSubscribes = op :: rest) (hid : reqId = op.1 ∨ reqId = "") : b.ackedOp reqId = some op := by
  unfold ackedOp
  rcases hid with rfl | rfl
  · rw [h, List.find?_cons_of_pos (by simp)]
  · have hnone : b.inflightSubscribes.find? (fun op => op.1 = "") = none := by
      refine List.find?_eq_none.2 fun o ho => ?_
      obtain ⟨n, -, heq⟩ := b.numbered o ho
      simpa [heq] using toReqId_ne_empty n
    rw [hnone, if_pos rfl]
    have hs := b.sorted
    rw [h, List.pairwise_cons] at hs
    rw [h, List.argmin_cons]
    cases ha : rest.argmin fun op => stoull op.1 with
    | none => rfl
    | some op' =>
      have hlt := hs.1 op' (List.argmin_mem ha)
      dsimp only
      rw [if_neg (by omega)]

/-- The answer to the oldest op takes it out of flight. -/
theorem inflight_ackSubscribe_head {b : Books} {op : ReqId × List Topic} {rest : List (ReqId × List Topic)}
    {reqId : ReqId} (h : b.inflightSubscribes = op :: rest) (hid : reqId = op.1 ∨ reqId = "") (success : Bool) :
    (b.ackSubscribe success reqId).inflightSubscribes = rest := by
  unfold ackSubscribe
  rw [ackedOp_head h hid]
  change b.inflightSubscribes.filter _ = rest
  rw [h, List.filter_cons_of_neg (by simp)]
  exact List.filter_eq_self.2 fun o ho => by simpa using ne_of_mem_tail h ho

/-- The rejection of the oldest op takes its topics out of the subscriptions. -/
theorem mem_subscriptions_ackSubscribe_head {b : Books} {op : ReqId × List Topic}
    {rest : List (ReqId × List Topic)} {reqId : ReqId} {t : Topic} (h : b.inflightSubscribes = op :: rest)
    (hid : reqId = op.1 ∨ reqId = "") :
    t ∈ (b.ackSubscribe false reqId).subscriptions ↔ t ∈ b.subscriptions ∧ t ∉ op.2 := by
  unfold ackSubscribe
  rw [ackedOp_head h hid]
  exact mem_prune

end Books

end BybitApi.Session
