import BybitApi.Session.Gate

/-!
# Ops in flight and their acks

The venue answers the subscribe ops of a connection in request order, and each of its acks carries
the req_id of the op or none. Under that assumption, and where every topic asked for is UTF-8, the ops
in flight of a line that is up are the ops of its connection that have no answer
(`Line.inflight_eq_unanswered`), and an ack is booked to the op it answers.

A confirmed topic is one that is subscribed and named by no op in flight. What that says about the
venue is `subscription_confirmed`: the last subscribe op that names the topic is of the current
connection, and its success ack has been processed.
-/

namespace BybitApi.Session

open Lib

/-- The latest subscribe op that names a topic: its connection and its req_id. -/
def lastSubscribe (topic : Topic) : List Event → Option (ℕ × ReqId)
  | [] => none
  | .enqueued ⟨conn, .subscribe args reqId⟩ :: past =>
    if topic ∈ args then some (conn, reqId) else lastSubscribe topic past
  | _ :: past => lastSubscribe topic past

/-- An event that is neither a subscribe nor an answer to one. -/
def Event.isPlain : Event → Bool
  | .enqueued frame => !frame.op.isSubscribe
  | .answered _ _ _ => false
  | _ => true

section Histories

variable {e : Event} {past : List Event}

theorem unanswered_plain (gen : ℕ) (he : e.isPlain = true) :
    unanswered gen (e :: past) = unanswered gen past := by
  cases e with
  | enqueued frame =>
    obtain ⟨conn, op⟩ := frame
    cases op <;> first | rfl | cases he
  | answered gen reqId success => cases he
  | _ => rfl

theorem lastSubscribe_plain (topic : Topic) (he : e.isPlain = true) :
    lastSubscribe topic (e :: past) = lastSubscribe topic past := by
  cases e with
  | enqueued frame =>
    obtain ⟨conn, op⟩ := frame
    cases op <;> first | rfl | cases he
  | _ => rfl

@[simp] theorem lastSubscribe_answered (topic : Topic) (gen : ℕ) (reqId : ReqId) (success : Bool) :
    lastSubscribe topic (.answered gen reqId success :: past) = lastSubscribe topic past := rfl

@[simp] theorem unanswered_subscribe (gen : ℕ) (args : List Topic) (reqId : ReqId) :
    unanswered gen (.enqueued ⟨gen, .subscribe args reqId⟩ :: past) =
      unanswered gen past ++ [(reqId, args)] := by
  simp [unanswered]

@[simp] theorem unanswered_answered (gen : ℕ) (reqId : ReqId) (success : Bool) :
    unanswered gen (.answered gen reqId success :: past) = (unanswered gen past).tail := by
  simp [unanswered]

/-- Nothing is unanswered on a connection without traffic. -/
theorem unanswered_fresh {gen : ℕ} (h : ∀ e ∈ past, ∀ g, e.conn? = some g → g < gen) :
    unanswered gen past = [] := by
  induction past with
  | nil => rfl
  | cons e past ih =>
    have ih' := ih fun e' he' => h e' (List.mem_cons_of_mem _ he')
    have hlt := h e List.mem_cons_self
    by_cases he : e.isPlain = true
    · rw [unanswered_plain gen he, ih']
    · cases e with
      | enqueued frame =>
        obtain ⟨conn, op⟩ := frame
        have hc : conn < gen := hlt conn rfl
        cases op with
        | subscribe args reqId => simp [unanswered, ih', Nat.ne_of_lt hc]
        | _ => exact absurd rfl he
      | answered conn reqId success =>
        have hc : conn < gen := hlt conn rfl
        simp [unanswered, ih', Nat.ne_of_lt hc]
      | _ => exact absurd rfl he

end Histories

namespace Line

/-! ## Acks in order -/

/-- A subscribe ack answers the oldest op without an answer, and carries its req_id or none. -/
def AnswersInOrder (l : Line) : Move → Prop
  | .subscribeAck _ reqId => ∃ op ∈ (unanswered l.conn l.trace).head?, reqId = op.1 ∨ reqId = ""
  | _ => True

instance (l : Line) : DecidablePred l.AnswersInOrder
  | .subscribeAck _ reqId =>
    inferInstanceAs (Decidable (∃ op ∈ (unanswered l.conn l.trace).head?, reqId = op.1 ∨ reqId = ""))
  | .request _ | .withdraw _ | .sendUnsubscribe _ | .authAck _ | .start | .abandon | .goUp .. | .flush
  | .flushThrows | .ping | .write | .teardown _ => isTrue trivial

theorem answersInOrder_internal (l : Line) (m : Move) (hm : m.isInternal = true) : l.AnswersInOrder m := by
  cases m with
  | subscribeAck success reqId => cases hm
  | _ => trivial

/-- The venue answers in order, and what is asked for is UTF-8. -/
def Orderly (l : Line) (m : Move) : Prop := l.AnswersInOrder m ∧ l.AsksUtf8 m

theorem orderly_internal (l : Line) (m : Move) (hm : m.isInternal = true) : l.Orderly m :=
  ⟨answersInOrder_internal l m hm, asksUtf8_internal l m hm⟩

/-- The op an ack in order answers. -/
theorem oldest_of_inOrder {l : Line} {success : Bool} {reqId : ReqId}
    (h : l.AnswersInOrder (.subscribeAck success reqId)) :
    ∃ op rest, unanswered l.conn l.trace = op :: rest ∧ (reqId = op.1 ∨ reqId = "") := by
  obtain ⟨op, hop, hid⟩ := h
  obtain ⟨rest, hrest⟩ := List.head?_eq_some_iff.1 hop
  exact ⟨op, rest, hrest, hid⟩

/-- What such an ack leads to. -/
theorem after_subscribeAck {l : Line} {success : Bool} {reqId : ReqId} {op : ReqId × List Topic}
    {rest : List (ReqId × List Topic)} (h : unanswered l.conn l.trace = op :: rest) :
    l.after (.subscribeAck success reqId) =
      { l with
        books := l.books.ackSubscribe success reqId
        trace := .answered l.conn op.1 success :: l.trace } := by
  change noteAnswer success _ = _
  unfold noteAnswer
  rw [show unanswered l.conn l.trace = op :: rest from h]
  rfl

/-- While the line is up, what is in flight is what has no answer. -/
def InFlight (l : Line) : Prop := l.phase = .up → l.books.inflightSubscribes = unanswered l.conn l.trace

section InFlight

variable {l : Line}

theorem InFlight.log {e : Event} (h : l.InFlight) (he : e.isPlain = true) : (l.log e).InFlight := by
  intro hu
  change _ = unanswered l.conn (e :: l.trace)
  rw [unanswered_plain _ he]
  exact h hu

theorem InFlight.keep {l' : Line} (h : l.InFlight) (hp : l'.phase = l.phase) (hc : l'.conn = l.conn)
    (hb : l'.books.inflightSubscribes = l.books.inflightSubscribes) (ht : l'.trace = l.trace) :
    l'.InFlight := by
  intro hu
  rw [hb, hc, ht]
  exact h (hp ▸ hu)

theorem InFlight.after {m : Move} (h : l.InFlight) (hsh : l.Shape) (hutf : l.Utf8) (hE : l.AnswersInOrder m)
    (he : l.Enabled m) : (l.after m).InFlight := by
  cases m with
  | request topic => exact InFlight.log (h.keep rfl rfl (by simp) rfl) rfl
  | withdraw topic => exact InFlight.log (h.keep rfl rfl rfl rfl) rfl
  | sendUnsubscribe topic =>
    rw [Line.after]
    split
    · exact InFlight.log (h.keep rfl rfl rfl rfl) rfl
    · exact h
  | authAck success =>
    rw [Line.after]
    split <;> exact InFlight.log (h.keep rfl rfl rfl rfl) rfl
  | subscribeAck success reqId =>
    obtain ⟨op, rest, hun, hid⟩ := oldest_of_inOrder hE
    rw [after_subscribeAck hun]
    intro hu
    have hin : l.books.inflightSubscribes = op :: rest := by rw [h hu, hun]
    change (l.books.ackSubscribe success reqId).inflightSubscribes =
      unanswered l.conn (.answered l.conn _ _ :: _)
    rw [Books.inflight_ackSubscribe_head hin hid, unanswered_answered, hun]
    rfl
  | start => exact fun hu => by cases hu
  | abandon => exact fun hu => by cases hu
  | goUp apiKey expires sign =>
    have hn : l.phase ≠ .up := by rw [show l.phase = .opening from he]; simp
    have hup : ({ l with phase := .up } : Line).InFlight := fun _ => by
      change l.books.inflightSubscribes = unanswered l.conn l.trace
      rw [(hsh.empty hn).2.2, unanswered_fresh (hsh.fresh he)]
    rw [Line.after]
    split
    · exact InFlight.log (hup.keep rfl rfl rfl rfl) rfl
    · exact hup
  | flush =>
    intro hu
    change l.books.flush.inflightSubscribes = unanswered l.conn (.enqueued ⟨l.conn, .subscribe _ _⟩ :: l.trace)
    rw [Books.inflight_flush, unanswered_subscribe, h hu]
  | flushThrows => exact absurd he hutf.not_throws
  | ping => exact InFlight.log (h.keep rfl rfl rfl rfl) rfl
  | write =>
    change l.writeHead.InFlight
    unfold writeHead
    split
    · exact h
    · exact InFlight.log (h.keep rfl rfl rfl rfl) rfl
  | teardown delayS => exact fun hu => by cases hu

theorem inflight_eq_unanswered {secured : Bool} (h : (system secured).Reach Orderly l) : l.InFlight :=
  invariant_of_moves (I := InFlight) (fun hu => by cases hu)
    (fun _ _ hr hE he hI =>
      hI.after (shape_of_reach hr) (utf8_of_reach (fun _ _ => And.right) hr) hE.1 he) h

end InFlight

end Line

end BybitApi.Session
