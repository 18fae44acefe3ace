import BybitApi.Lib.Runs
import BybitApi.Session.State

/-!
# The line

An abstract model of what a session says to the venue. A line is opened, goes up, is torn down and
opened again; while it is up, ops are queued and written, and the venue's acks move the books.
Timers, clocks, sockets and the number of writes in flight are gone: whatever they let happen,
happens here at any time.

The guards are the ones that what follows rests on. A line goes up once after it was opened,
subscribes are queued only on a line that is up and, where there are credentials, authenticated, and
acks come on a line that has gone up since it was opened.

An op with a topic that is no UTF-8 is never queued: a flush throws (`flushThrows`), an unsubscribe
sender is gone. As long as nothing but UTF-8 is asked for, the line is `Utf8`, and no flush throws.
-/

namespace BybitApi.Session

open Lib

/-- Where a line is. `down` is also what it is before its first start. -/
inductive Phase where
  | down | opening | up
  deriving DecidableEq

structure Line where
  secured : Bool
  conn : ℕ
  phase : Phase
  authed : Bool
  /-- The mirror of `authed` that other threads read. -/
  flag : Bool
  books : Books
  queue : List Frame
  /-- The topics of the unsubscribe senders that are posted and have not run. -/
  senders : List Topic
  trace : List Event

/-- What can happen on a line. -/
inductive Move where
  | request (topic : Topic)
  | withdraw (topic : Topic)
  | sendUnsubscribe (topic : Topic)
  | authAck (success : Bool)
  | subscribeAck (success : Bool) (reqId : ReqId)
  | start
  | abandon
  | goUp (apiKey : String) (expires : ℕ) (sign : String × String)
  | flush
  /-- The books are flushed, and the op is not queued. -/
  | flushThrows
  | ping
  | write
  | teardown (delayS : ℕ)
  deriving DecidableEq

/-- The moves a line makes of itself, as the session goes about its work. The others answer to a
call, to a task that a call posted, or to the venue. -/
def Move.isInternal : Move → Bool
  | start | abandon | goUp _ _ _ | flush | flushThrows | ping | write | teardown _ => true
  | authAck success => !success
  | _ => false

namespace Line

def init (secured : Bool) : Line := ⟨secured, 0, .down, false, false, .empty, [], [], []⟩

def log (e : Event) (l : Line) : Line := { l with trace := e :: l.trace }

/-- An op enqueued now. -/
def frame (op : Op) (l : Line) : Frame := ⟨l.conn, op⟩

def enqueue (op : Op) (l : Line) : Line :=
  { l with queue := l.queue ++ [l.frame op] }.log (.enqueued (l.frame op))

/-- The answer of the venue that a subscribe ack stands for. -/
def noteAnswer (success : Bool) (l : Line) : Line :=
  match unanswered l.conn l.trace with
  | [] => l
  | op :: _ => l.log (.answered l.conn op.1 success)

/-- The head of the queue is written. -/
def writeHead (l : Line) : Line :=
  match l.queue with
  | [] => l
  | frame :: rest => { l with queue := rest }.log (.written l.conn frame)

/-- When a move can be made. -/
def Enabled (l : Line) : Move → Prop
  | .request _ | .withdraw _ => True
  | .sendUnsubscribe topic => topic ∈ l.senders
  | .authAck _ | .subscribeAck _ _ => l.phase ≠ .opening
  | .start => l.phase = .down
  | .abandon | .goUp _ _ _ => l.phase = .opening
  | .flush => l.phase = .up ∧ (l.secured = true → l.authed = true) ∧ l.books.pendingTopics ≠ []
  | .flushThrows =>
    l.phase = .up ∧ (l.secured = true → l.authed = true) ∧ l.books.pendingTopics.all StdString.isUtf8 = false
  | .ping | .write => l.phase = .up
  | .teardown _ => l.phase ≠ .down

instance (l : Line) (m : Move) : Decidable (l.Enabled m) := by
  cases m <;> unfold Enabled <;> infer_instance

/-- What a move leads to. -/
def after (l : Line) : Move → Line
  | .request topic => { l with books := l.books.addTopic topic }.log (.requested topic)
  | .withdraw topic =>
    { l with
      books := (l.books.removeTopic topic).2
      senders := if (l.books.removeTopic topic).1 then l.senders ++ [topic] else l.senders }.log (.removed topic)
  | .sendUnsubscribe topic =>
    if l.phase = .up ∧ topic.isUtf8 = true then
      { l with senders := l.senders.erase topic }.enqueue (.unsubscribe [topic])
    else { l with senders := l.senders.erase topic }
  | .authAck success =>
    if success then { l with authed := true, flag := true }.log (.authAck l.conn true)
    else l.log (.authAck l.conn false)
  | .subscribeAck success reqId => { l with books := l.books.ackSubscribe success reqId }.noteAnswer success
  | .start =>
    { l with conn := l.conn + 1, phase := .opening, authed := false, flag := false }.log (.started (l.conn + 1))
  | .abandon => { l with phase := .down }
  | .goUp apiKey expires sign =>
    if l.secured then { l with phase := .up }.enqueue (.auth apiKey expires sign) else { l with phase := .up }
  | .flush => { l with books := l.books.flush }.enqueue (.subscribe l.books.pendingTopics l.books.nextReqId)
  | .flushThrows => { l with books := l.books.flush }
  | .ping => l.enqueue .ping
  | .write => l.writeHead
  | .teardown delayS =>
    { l with phase := .down, authed := false, flag := false, queue := [], books := l.books.replay }.log
      (.teardown l.conn delayS)

def step (l : Line) (m : Move) : Option Line := if l.Enabled m then some (l.after m) else none

theorem step_eq_some {l l' : Line} {m : Move} (h : l.step m = some l') : l.Enabled m ∧ l' = l.after m := by
  unfold step at h
  split at h
  · next he => exact ⟨he, (Option.some.inj h).symm⟩
  · cases h

/-- A line of a session with or without credentials. -/
def system (secured : Bool) : System Line Move := ⟨init secured, step⟩

/-- An invariant of the line: it is enough to look at the moves that are enabled. -/
theorem invariant_of_moves {secured : Bool} {E : Line → Move → Prop} {I : Line → Prop}
    (h₀ : I (init secured))
    (hstep : ∀ l m, (system secured).Reach E l → E l m → l.Enabled m → I l → I (l.after m)) {l : Line}
    (h : (system secured).Reach E l) : I l := by
  refine h.invariant h₀ fun l m l' hr hE hs hI => ?_
  obtain ⟨he, rfl⟩ := step_eq_some hs
  exact hstep l m hr hE he hI

/-! ## The shape of a line -/

/-- The books and the queue are empty of what was sent unless the line is up, everything queued is
of the connection, and the traffic so far is of it or of earlier ones; of earlier ones only while it
is being opened. -/
structure Shape (l : Line) : Prop where
  empty : l.phase ≠ .up → l.queue = [] ∧ l.books.subscriptions = [] ∧ l.books.inflightSubscribes = []
  queued : ∀ f ∈ l.queue, f.conn = l.conn
  past : ∀ e ∈ l.trace, ∀ g, e.conn? = some g → g ≤ l.conn
  fresh : l.phase = .opening → ∀ e ∈ l.trace, ∀ g, e.conn? = some g → g < l.conn

theorem Shape.init (secured : Bool) : (init secured).Shape :=
  ⟨fun _ => ⟨rfl, rfl, rfl⟩, by simp [Line.init], by simp [Line.init], fun h => by cases h⟩

section Shape

variable {l : Line}

/-- An event that is no traffic, or traffic of a connection that has gone up. -/
theorem Shape.log {e : Event} (h : l.Shape) (he : ∀ g, e.conn? = some g → g = l.conn ∧ l.phase ≠ .opening) :
    (l.log e).Shape where
  empty := h.empty
  queued := h.queued
  past := by
    intro e' he' g hg
    rcases List.mem_cons.1 he' with rfl | hmem
    · exact (he g hg).1.le
    · exact h.past e' hmem g hg
  fresh := by
    intro ho e' he' g hg
    rcases List.mem_cons.1 he' with rfl | hmem
    · exact absurd ho (he g hg).2
    · exact h.fresh ho e' hmem g hg

theorem Shape.enqueue (h : l.Shape) (hu : l.phase = .up) (op : Op) : (l.enqueue op).Shape := by
  have hq : ({ l with queue := l.queue ++ [l.frame op] } : Line).Shape := by
    refine ⟨fun hn => absurd hu hn, fun f hf => ?_, h.past, h.fresh⟩
    rcases List.mem_append.1 hf with hf | hf
    · exact h.queued f hf
    · rw [List.mem_singleton.1 hf]; rfl
  refine hq.log fun g hg => ⟨(Option.some.inj hg).symm, ?_⟩
  change l.phase ≠ .opening
  rw [hu]; simp

theorem Shape.books (h : l.Shape) {b : Books}
    (hb : l.phase ≠ .up → b.subscriptions = [] ∧ b.inflightSubscribes = []) :
    ({ l with books := b } : Line).Shape :=
  ⟨fun hn => ⟨(h.empty hn).1, hb hn⟩, h.queued, h.past, h.fresh⟩

theorem Shape.noteAnswer (h : l.Shape) (ho : l.phase ≠ .opening) (success : Bool) :
    (l.noteAnswer success).Shape := by
  unfold Line.noteAnswer
  split
  · exact h
  · exact h.log fun g hg => ⟨(Option.some.inj hg).symm, ho⟩

theorem Shape.writeHead (h : l.Shape) (hu : l.phase = .up) : l.writeHead.Shape := by
  unfold Line.writeHead
  split
  · exact h
  · next frame rest hq =>
    have hr : ({ l with queue := rest } : Line).Shape :=
      ⟨fun hn => absurd hu hn, fun f hf => h.queued f (by rw [hq]; exact List.mem_cons_of_mem _ hf),
        h.past, h.fresh⟩
    refine hr.log fun g hg => ⟨(Option.some.inj hg).symm, ?_⟩
    change l.phase ≠ .opening
    rw [hu]; simp

/-- Every move keeps the shape. -/
theorem Shape.after {m : Move} (h : l.Shape) (he : l.Enabled m) : (l.after m).Shape := by
  cases m with
  | request topic =>
    refine Shape.log (h.books fun hn => ?_) fun g hg => by cases hg
    simpa using (h.empty hn).2
  | withdraw topic =>
    have hb : ({ l with books := (l.books.removeTopic topic).2 } : Line).Shape :=
      h.books fun hn => ⟨by simp [(h.empty hn).2.1], (h.empty hn).2.2⟩
    exact Shape.log ⟨hb.empty, hb.queued, hb.past, hb.fresh⟩ fun g hg => by cases hg
  | sendUnsubscribe topic =>
    have hs : ({ l with senders := l.senders.erase topic } : Line).Shape :=
      ⟨h.empty, h.queued, h.past, h.fresh⟩
    rw [Line.after]
    split
    · next hu => exact hs.enqueue hu.1 _
    · exact hs
  | authAck success =>
    have ha : ({ l with authed := true, flag := true } : Line).Shape := ⟨h.empty, h.queued, h.past, h.fresh⟩
    rw [Line.after]
    split
    · exact ha.log fun g hg => ⟨(Option.some.inj hg).symm, he⟩
    · exact h.log fun g hg => ⟨(Option.some.inj hg).symm, he⟩
  | subscribeAck success reqId =>
    refine Shape.noteAnswer (h.books (b := l.books.ackSubscribe success reqId) fun hn => ?_) he success
    rw [Books.ackSubscribe_of_nil (h.empty hn).2.2]
    exact (h.empty hn).2
  | start =>
    have hn : l.phase ≠ .up := by rw [show l.phase = .down from he]; simp
    have hlt : ∀ e ∈ l.trace, ∀ g, e.conn? = some g → g < l.conn + 1 := fun e hmem g hg =>
      Nat.lt_succ_of_le (h.past e hmem g hg)
    refine Shape.log ⟨fun _ => h.empty hn, ?_, fun e hmem g hg => (hlt e hmem g hg).le, fun _ => hlt⟩
      fun g hg => by cases hg
    simp [(h.empty hn).1]
  | abandon =>
    have hn : l.phase ≠ .up := by rw [show l.phase = .opening from he]; simp
    exact ⟨fun _ => h.empty hn, h.queued, h.past, fun ho => by cases ho⟩
  | goUp apiKey expires sign =>
    have hu : ({ l with phase := .up } : Line).Shape :=
      ⟨fun hn => absurd rfl hn, h.queued, h.past, fun ho => by cases ho⟩
    rw [Line.after]
    split
    · exact hu.enqueue rfl _
    · exact hu
  | flush => exact (h.books (b := l.books.flush) fun hn => absurd he.1 hn).enqueue he.1 _
  | flushThrows => exact h.books fun hn => absurd he.1 hn
  | ping => exact h.enqueue he _
  | write => exact h.writeHead he
  | teardown delayS =>
    refine Shape.log ⟨fun _ => ⟨rfl, rfl, rfl⟩, by simp, h.past, fun ho => by cases ho⟩ fun g hg => by cases hg

end Shape

theorem shape_of_reach {secured : Bool} {E : Line → Move → Prop} {l : Line}
    (h : (system secured).Reach E l) : l.Shape :=
  invariant_of_moves (I := Shape) (Shape.init secured) (fun _ _ _ _ he hI => hI.after he) h

/-! ## Lines of UTF-8 -/

/-- Every topic there is on the line is UTF-8. -/
structure Utf8 (l : Line) : Prop where
  subscribed : ∀ t ∈ l.books.subscriptions, t.isUtf8 = true
  pending : ∀ t ∈ l.books.pendingTopics, t.isUtf8 = true
  senders : ∀ t ∈ l.senders, t.isUtf8 = true

/-- A topic that is asked for is UTF-8. -/
def AsksUtf8 (_ : Line) : Move → Prop
  | .request topic => topic.isUtf8 = true
  | _ => True

theorem asksUtf8_internal (l : Line) (m : Move) (hm : m.isInternal = true) : l.AsksUtf8 m := by
  cases m with
  | request topic => cases hm
  | _ => trivial

section Utf8

variable {l l' : Line}

theorem Utf8.keep (h : l.Utf8) (hs : ∀ t ∈ l'.books.subscriptions, t ∈ l.books.subscriptions)
    (hp : ∀ t ∈ l'.books.pendingTopics, t ∈ l.books.pendingTopics) (hu : ∀ t ∈ l'.senders, t ∈ l.senders) :
    l'.Utf8 :=
  ⟨fun t ht => h.subscribed t (hs t ht), fun t ht => h.pending t (hp t ht), fun t ht => h.senders t (hu t ht)⟩

theorem Utf8.flush (h : l.Utf8) : ({ l with books := l.books.flush } : Line).Utf8 where
  subscribed := by
    intro t ht
    rcases List.mem_append.1 ht with hs | hp
    · exact h.subscribed t hs
    · exact h.pending t hp
  pending := fun t ht => by cases ht
  senders := h.senders

theorem Utf8.withdraw (h : l.Utf8) (topic : Topic) : (l.after (.withdraw topic)).Utf8 where
  subscribed := fun t ht => h.subscribed t (Books.mem_erase_subscriptions.1 ht).2
  pending := fun t ht => h.pending t (List.mem_filter.1 ht).1
  senders := by
    intro t ht
    change t ∈ if (l.books.removeTopic topic).1 then l.senders ++ [topic] else l.senders at ht
    split at ht
    · next hsent =>
      rcases List.mem_append.1 ht with ht | ht
      · exact h.senders t ht
      · rw [List.mem_singleton.1 ht]
        exact h.subscribed topic (of_decide_eq_true hsent)
    · exact h.senders t ht

theorem Utf8.after {m : Move} (h : l.Utf8) (hE : l.AsksUtf8 m) : (l.after m).Utf8 := by
  have hrefl : l.Utf8 → ∀ {k : Line}, k.books = l.books → k.senders = l.senders → k.Utf8 := fun h k hb hs =>
    h.keep (by simp [hb]) (by simp [hb]) (by simp [hs])
  cases m with
  | request topic =>
    refine ⟨fun t ht => h.subscribed t (by simpa [Line.after, Line.log] using ht), fun t ht => ?_, h.senders⟩
    rcases Books.mem_pending_addTopic.1 ht with hp | ⟨rfl, -⟩
    · exact h.pending t hp
    · exact hE
  | withdraw topic => exact h.withdraw topic
  | sendUnsubscribe topic =>
    rw [Line.after]
    split <;> exact h.keep (fun _ => id) (fun _ => id) fun _ => List.mem_of_mem_erase
  | authAck success =>
    rw [Line.after]
    split <;> exact hrefl h rfl rfl
  | subscribeAck success reqId =>
    have hb : ({ l with books := l.books.ackSubscribe success reqId } : Line).Utf8 :=
      h.keep (Books.subscriptions_ackSubscribe_subset success reqId l.books) (by simp) fun _ => id
    change (noteAnswer success _).Utf8
    unfold noteAnswer
    split
    · exact hb
    · exact ⟨hb.subscribed, hb.pending, hb.senders⟩
  | goUp apiKey expires sign =>
    rw [Line.after]
    split <;> exact hrefl h rfl rfl
  | flush => exact ⟨h.flush.subscribed, h.flush.pending, h.flush.senders⟩
  | flushThrows => exact h.flush
  | write =>
    change l.writeHead.Utf8
    unfold writeHead
    split
    · exact h
    · exact hrefl h rfl rfl
  | teardown delayS =>
    refine ⟨fun t ht => (by cases ht), fun t ht => ?_, h.senders⟩
    rcases List.mem_append.1 ht with hs | hp
    · exact h.subscribed t hs
    · exact h.pending t hp
  | _ => exact hrefl h rfl rfl

theorem Utf8.init (secured : Bool) : (init secured).Utf8 :=
  ⟨by simp [Line.init, Books.empty], by simp [Line.init, Books.empty], by simp [Line.init]⟩

theorem utf8_of_reach {secured : Bool} {E : Line → Move → Prop} (hE : ∀ l m, E l m → l.AsksUtf8 m)
    (h : (system secured).Reach E l) : l.Utf8 :=
  invariant_of_moves (I := Utf8) (Utf8.init secured) (fun l m _ hEm _ hI => hI.after (hE l m hEm)) h

/-- A flush throws on a line with a topic that is no UTF-8 only. -/
theorem Utf8.not_throws (h : l.Utf8) : ¬ l.Enabled .flushThrows := by
  rintro ⟨-, -, hall⟩
  rw [List.all_eq_true.2 h.pending] at hall
  cases hall

end Utf8

end Line

end BybitApi.Session
