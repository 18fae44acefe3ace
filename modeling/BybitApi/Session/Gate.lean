import BybitApi.Session.Refines

/-!
# The gate

What a session with credentials may say before the venue has accepted its auth. On every connection
the first frame written is the auth op, no subscribe is written before a success auth ack of that
same connection, and no frame is written on another connection than the one it was queued on.

The gate opens with a success auth ack. An ack whose read completed before a teardown is still
processed after it, and then the session calls itself authenticated without a connection.
-/

namespace BybitApi.Session

open Lib

/-- What may be written on a connection, given what happened before. -/
def Gated : Event → List Event → Prop
  | .written gen frame, past =>
    frame.conn = gen ∧ (frame.op.isSubscribe = true → .authAck gen true ∈ past) ∧
      ((∀ frame', .written gen frame' ∉ past) → frame.op.isAuth = true)
  | _, _ => True

namespace Line

/-! ## Authentication -/

@[simp] theorem secured_after (l : Line) (m : Move) : (l.after m).secured = l.secured := by
  cases m <;> simp only [after] <;> try rfl
  case subscribeAck success reqId => unfold noteAnswer; split <;> rfl
  case write => unfold writeHead; split <;> rfl
  all_goals split <;> rfl

/-- A line is authenticated after a success auth ack of its connection, and the mirror says the same. -/
structure Authed (l : Line) : Prop where
  mirror : l.flag = l.authed
  acked : l.authed = true → .authAck l.conn true ∈ l.trace

theorem Authed.keep {l l' : Line} (h : l.Authed) (hf : l'.flag = l.flag) (ha : l'.authed = l.authed)
    (hc : l'.conn = l.conn) (ht : l.trace ⊆ l'.trace) : l'.Authed :=
  ⟨by rw [hf, ha, h.mirror], fun hau => hc ▸ ht (h.acked (ha ▸ hau))⟩

theorem Authed.after {l : Line} (h : l.Authed) (m : Move) : (l.after m).Authed := by
  have hcons : ∀ e, l.trace ⊆ e :: l.trace := fun e => List.subset_cons_self e l.trace
  cases m with
  | request topic => exact h.keep rfl rfl rfl (hcons _)
  | withdraw topic => exact h.keep rfl rfl rfl (hcons _)
  | sendUnsubscribe topic =>
    rw [Line.after]
    split
    · exact h.keep rfl rfl rfl (hcons _)
    · exact h.keep rfl rfl rfl (List.Subset.refl _)
  | authAck success =>
    rw [Line.after]
    split
    · exact ⟨rfl, fun _ => List.mem_cons_self⟩
    · exact h.keep rfl rfl rfl (hcons _)
  | subscribeAck success reqId =>
    change (noteAnswer success _).Authed
    unfold noteAnswer
    split
    · exact h.keep rfl rfl rfl (List.Subset.refl _)
    · exact h.keep rfl rfl rfl (hcons _)
  | start => exact ⟨rfl, fun ha => by cases ha⟩
  | abandon => exact h.keep rfl rfl rfl (List.Subset.refl _)
  | goUp apiKey expires sign =>
    rw [Line.after]
    split
    · exact h.keep rfl rfl rfl (hcons _)
    · exact h.keep rfl rfl rfl (List.Subset.refl _)
  | flush => exact h.keep rfl rfl rfl (hcons _)
  | flushThrows => exact h.keep rfl rfl rfl (List.Subset.refl _)
  | ping => exact h.keep rfl rfl rfl (hcons _)
  | write =>
    change l.writeHead.Authed
    unfold writeHead
    split
    · exact h
    · exact h.keep rfl rfl rfl (hcons _)
  | teardown delayS => exact ⟨rfl, fun ha => by cases ha⟩

theorem authed_of_reach {secured : Bool} {E : Line → Move → Prop} {l : Line}
    (h : (system secured).Reach E l) : l.Authed :=
  invariant_of_moves (I := Authed) ⟨rfl, fun ha => by cases ha⟩ (fun _ m _ _ _ hI => hI.after m) h

/-! ## What is written -/

/-- The gate of a line with credentials. -/
structure Gate (l : Line) : Prop where
  history : Each Gated l.trace
  queued : ∀ f ∈ l.queue, f.op.isSubscribe = true → .authAck l.conn true ∈ l.trace
  first : l.phase = .up →
    (∃ f, .written l.conn f ∈ l.trace) ∨ ∃ f rest, l.queue = f :: rest ∧ f.op.isAuth = true

section Gate

variable {l : Line}

theorem Gate.init (secured : Bool) : (init secured).Gate :=
  ⟨each_nil, fun f hf => (by cases hf), fun h => (by cases h)⟩

/-- An event that is not a write. -/
theorem Gate.log {e : Event} (h : l.Gate) (he : Gated e l.trace) : (l.log e).Gate where
  history := each_cons.2 ⟨he, h.history⟩
  queued := fun f hf hs => List.mem_cons_of_mem _ (h.queued f hf hs)
  first := fun hu => by
    rcases h.first hu with ⟨f, hf⟩ | hf
    · exact Or.inl ⟨f, List.mem_cons_of_mem _ hf⟩
    · exact Or.inr hf

/-- A subscribe is queued after the ack only. -/
theorem Gate.enqueue (h : l.Gate) {op : Op} (hop : op.isSubscribe = true → .authAck l.conn true ∈ l.trace) :
    (l.enqueue op).Gate := by
  have hq : ({ l with queue := l.queue ++ [l.frame op] } : Line).Gate := by
    refine ⟨h.history, fun f hf hs => ?_, fun hu => ?_⟩
    · rcases List.mem_append.1 hf with hf | hf
      · exact h.queued f hf hs
      · rw [List.mem_singleton.1 hf] at hs
        exact hop hs
    · rcases h.first hu with hf | ⟨f, rest, hq, hf⟩
      · exact Or.inl hf
      · exact Or.inr ⟨f, rest ++ [l.frame op], by simp [hq], hf⟩
  exact hq.log trivial

/-- The write of the head of the queue. -/
theorem Gate.writeHead (h : l.Gate) (hsh : l.Shape) (hu : l.phase = .up) : l.writeHead.Gate := by
  unfold Line.writeHead
  split
  · exact h
  · next frame rest hq =>
    have hmem : frame ∈ l.queue := by rw [hq]; exact List.mem_cons_self
    have hgated : Gated (.written l.conn frame) l.trace := by
      refine ⟨hsh.queued frame hmem, h.queued frame hmem, fun hnone => ?_⟩
      rcases h.first hu with ⟨f, hf⟩ | ⟨f, rest', hq', hf⟩
      · exact absurd hf (hnone f)
      · rw [hq] at hq'
        rw [(List.cons.inj hq').1]
        exact hf
    refine ⟨each_cons.2 ⟨hgated, h.history⟩, fun f hf hs => ?_, fun _ => Or.inl ⟨frame, List.mem_cons_self⟩⟩
    exact List.mem_cons_of_mem _ (h.queued f (by rw [hq]; exact List.mem_cons_of_mem _ hf) hs)

/-- Every move of a line with credentials keeps the gate. -/
theorem Gate.after {m : Move} (h : l.Gate) (hsh : l.Shape) (ha : l.Authed) (hs : l.secured = true)
    (he : l.Enabled m) : (l.after m).Gate := by
  cases m with
  | request topic => exact Gate.log ⟨h.history, h.queued, h.first⟩ trivial
  | withdraw topic => exact Gate.log ⟨h.history, h.queued, h.first⟩ trivial
  | sendUnsubscribe topic =>
    have hr : ({ l with senders := l.senders.erase topic } : Line).Gate := ⟨h.history, h.queued, h.first⟩
    rw [Line.after]
    split
    · exact hr.enqueue fun hop => by cases hop
    · exact hr
  | authAck success =>
    rw [Line.after]
    split
    · have ht := h.log (e := .authAck l.conn true) trivial
      exact ⟨ht.history, ht.queued, ht.first⟩
    · exact h.log trivial
  | subscribeAck success reqId =>
    have hb : ({ l with books := l.books.ackSubscribe success reqId } : Line).Gate :=
      ⟨h.history, h.queued, h.first⟩
    change (noteAnswer success _).Gate
    unfold noteAnswer
    split
    · exact hb
    · exact hb.log trivial
  | start =>
    have hn : l.phase ≠ .up := by rw [show l.phase = .down from he]; simp
    have hq := (hsh.empty hn).1
    refine Gate.log ⟨h.history, ?_, fun hu => (by cases hu)⟩ trivial
    simp [hq]
  | abandon =>
    have hn : l.phase ≠ .up := by rw [show l.phase = .opening from he]; simp
    exact ⟨h.history, h.queued, fun hu => by cases hu⟩
  | goUp apiKey expires sign =>
    have hn : l.phase ≠ .up := by rw [show l.phase = .opening from he]; simp
    have hq := (hsh.empty hn).1
    rw [Line.after, if_pos hs]
    refine Gate.log ⟨h.history, fun f hf hsub => ?_, fun _ => Or.inr ⟨_, [], by rw [hq]; rfl, rfl⟩⟩ trivial
    rw [hq, List.nil_append, List.mem_singleton] at hf
    rw [hf] at hsub
    cases hsub
  | flush =>
    have hb : ({ l with books := l.books.flush } : Line).Gate := ⟨h.history, h.queued, h.first⟩
    exact hb.enqueue fun _ => ha.acked (he.2.1 hs)
  | flushThrows => exact ⟨h.history, h.queued, h.first⟩
  | ping => exact h.enqueue fun hop => by cases hop
  | write => exact h.writeHead hsh he
  | teardown delayS =>
    exact Gate.log ⟨h.history, fun f hf => (by cases hf), fun hu => (by cases hu)⟩ trivial

end Gate

theorem secured_of_reach {secured : Bool} {E : Line → Move → Prop} {l : Line}
    (h : (system secured).Reach E l) : l.secured = secured :=
  invariant_of_moves (I := fun l => l.secured = secured) rfl (fun l m _ _ _ hI => (secured_after l m).trans hI) h

theorem gate_of_reach {E : Line → Move → Prop} {l : Line} (h : (system true).Reach E l) : l.Gate :=
  invariant_of_moves (I := Gate) (Gate.init true)
    (fun _ _ hr _ he hI => hI.after (shape_of_reach hr) (authed_of_reach hr) (secured_of_reach hr) he) h

/-! ## Late acks -/

/-- The venue's success auth acks are processed while the line is up. -/
def AcksWhileUp (l : Line) (m : Move) : Prop := m = .authAck true → l.phase = .up

theorem up_after {l : Line} {m : Move} (h : l.authed = true → l.phase = .up) (hE : AcksWhileUp l m)
    (he : l.Enabled m) : (l.after m).authed = true → (l.after m).phase = .up := by
  have hopen : l.phase = .opening → l.authed = false := fun ho => by
    by_contra ha
    rw [h ((Bool.not_eq_false _).mp ha)] at ho
    cases ho
  cases m with
  | request topic => exact h
  | withdraw topic => exact h
  | sendUnsubscribe topic =>
    rw [Line.after]
    split <;> exact h
  | authAck success =>
    rw [Line.after]
    split
    · next hs => exact fun _ => hE (by rw [hs])
    · exact h
  | subscribeAck success reqId =>
    change (noteAnswer success _).authed = true → (noteAnswer success _).phase = .up
    unfold noteAnswer
    split <;> exact h
  | start => exact fun ha => by cases ha
  | abandon => exact fun ha => absurd ha (by simp [after, hopen he])
  | goUp apiKey expires sign =>
    rw [Line.after]
    split <;> exact fun _ => rfl
  | flush => exact h
  | flushThrows => exact h
  | ping => exact h
  | write =>
    change l.writeHead.authed = true → l.writeHead.phase = .up
    unfold writeHead
    split <;> exact h
  | teardown delayS => exact fun ha => by cases ha

/-- Where acks are processed in time, a line that is authenticated is up. -/
theorem up_of_reach {secured : Bool} {l : Line} (h : (system secured).Reach AcksWhileUp l) :
    l.authed = true → l.phase = .up :=
  invariant_of_moves (I := fun l => l.authed = true → l.phase = .up) (fun ha => by cases ha)
    (fun _ _ _ hE he hI => up_after hI hE he) h

end Line

namespace World

/-- **The gate.** In every run of a session with credentials, each frame that was written was queued
on the connection it was written on, a subscribe came after a success auth ack of that connection,
and the first frame of a connection was its auth op. -/
theorem frames_gated (apiKey apiSecret : String) (hkey : apiKey ≠ "") (hsecret : apiSecret ≠ "") (w : World)
    (h : (session apiKey apiSecret).Reach System.Free w) : Each Gated w.trace := by
  have hline := line_of_reach_free h
  have hs : (World.init apiKey apiSecret).authRequired = true := by simp [World.init, hkey, hsecret]
  rw [hs] at hline
  exact (Line.gate_of_reach hline).history

/-- The success ack of an auth op. -/
def authSuccess : Json := .obj [("op", .str "auth"), ("success", .bool true)]

/-- A session with credentials goes up, is authenticated, and subscribes. -/
def authenticatedRun : List Action :=
  connectRun "order" ++
    [.complete ⟨.write, 1, false⟩ .done ⟨0, 0⟩, .complete ⟨.read, 1, false⟩ (.frame (some authSuccess)) ⟨0, 0⟩]

theorem frames_gated_subscribed :
    ∃ w, (session "key" "secret").Reach System.Free w ∧
      .written 1 ⟨1, .subscribe ["order"] "1"⟩ ∈ w.trace ∧ Each Gated w.trace := by
  obtain ⟨w, hw, hsub⟩ := System.Reach.exists_of_exec (S := session "key" "secret") (C := System.Free)
    (l := authenticatedRun) (P := fun w => .written 1 ⟨1, .subscribe ["order"] "1"⟩ ∈ w.trace) (by decide)
  exact ⟨w, hw, hsub, frames_gated "key" "secret" (by decide) (by decide) w hw⟩

/-! ## `isAuthenticated` -/

/-- A read of the current generation that completed before a teardown brings its success auth ack
after it. -/
def LateAuthAck (w : World) (a : Action) : Prop :=
  w.connected = false ∧ w.cause a = some (.authAck true)

/-- **`isAuthenticated`.** In a run without late auth acks, before the session is closed: a session
that calls itself authenticated is connected, has no reconnect scheduled, and has processed the
success auth ack of its connection. -/
theorem authenticated_connected (apiKey apiSecret : String) (w : World)
    (h : (session apiKey apiSecret).Reach (fun w a => ¬ w.LateAuthAck a) w) (hc : w.userClosed = false)
    (ha : w.isAuthenticated = true) :
    w.connected = true ∧ w.reconnectScheduled = false ∧ .authAck w.generation true ∈ w.trace := by
  have hline := line_of_reach (E := Line.AcksWhileUp) (fun l m hm heq => by rw [heq] at hm; cases hm)
    (fun w a m _ hlate hcause heq => by
      by_contra hup
      refine hlate ⟨?_, by rw [hcause, heq]⟩
      by_contra hcon
      exact hup (phase_up ((Bool.not_eq_false _).mp hcon))) h
  have hauth := Line.authed_of_reach hline
  have hau : w.line.authed = true := hauth.mirror ▸ ha
  have hcon : w.connected = true := phase_up_iff.1 (Line.up_of_reach hline hau)
  refine ⟨hcon, ?_, hauth.acked hau⟩
  rcases (Loop.of_reach h).stage hc with hi | hb
  · exact hi.scheduled
  · rcases hb.stage with ⟨hs, -⟩ | hs | hs
    · exact hs.scheduled
    · exact hs.scheduled
    · exact absurd hcon (by rw [show w.connected = false from hs.connected]; simp)

instance (w : World) (a : Action) : Decidable (¬ w.LateAuthAck a) :=
  inferInstanceAs (Decidable (¬ (w.connected = false ∧ w.cause a = some (.authAck true))))

theorem authenticated_connected_run :
    ∃ w : World, w.isAuthenticated = true ∧ w.connected = true := by
  obtain ⟨w, hw, hc, ha⟩ := System.Reach.exists_of_exec (S := session "key" "secret")
    (C := fun w a => ¬ w.LateAuthAck a) (l := authenticatedRun)
    (P := fun w => w.userClosed = false ∧ w.isAuthenticated = true) (by decide)
  exact ⟨w, ha, (authenticated_connected "key" "secret" w hw hc ha).1⟩

/-- The auth ack does not come for 15 s, so the ping timer tears the connection down; the read that
has completed in the meantime brings it. -/
theorem authenticated_while_reconnecting :
    ¬ ∀ w, (session "key" "secret").Reach System.Free w → w.userClosed = false → w.isAuthenticated = true →
      w.connected = true ∧ w.reconnectScheduled = false ∧ .authAck w.generation true ∈ w.trace := by
  intro h
  obtain ⟨w, hw, hc, ha, hd⟩ := System.Reach.exists_of_exec (S := session "key" "secret") (C := System.Free)
    (l := connectRun "order" ++
      [.complete ⟨.write, 1, false⟩ .done ⟨0, 0⟩, .complete ⟨.pingTimer, 1, false⟩ .done ⟨20000, 0⟩,
        .complete ⟨.read, 1, false⟩ (.frame (some authSuccess)) ⟨20000, 0⟩])
    (P := fun w => w.userClosed = false ∧ w.isAuthenticated = true ∧ w.connected = false) (by decide)
  exact absurd (h w hw hc ha).1 (by simp [hd])

end World

end BybitApi.Session
