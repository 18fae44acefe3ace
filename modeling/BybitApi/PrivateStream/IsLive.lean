import BybitApi.Client
import BybitApi.Session.Held

/-!
# `isLive`

`WSPrivateStreamManager::isLive` asks the client five or more times, and takes the locks anew each
time. Here it is a call in progress (`Call`) beside the client, and a run interleaves its sections
with the strand of the session and with the subscribes of other threads. The manager never
unsubscribes.

What the answer should mean is that at one instant of the call the stream was live. `Manager.seen`
is that instant: history that no code reads.
-/

namespace BybitApi.PrivateStream

open Lib Session

def orderTopic : Topic := "order"

def executionTopic : Topic := "execution"

/-- A call of `isLive`. A call in its loop has the topics that are left and what `live` is so far. -/
inductive Call where
  | idle
  | begun
  /-- The next read is `isSubscribed` of the first topic. -/
  | asks (topics : List Topic) (live : Bool)
  /-- The topic is not subscribed, and is about to be. -/
  | requests (topics : List Topic) (live : Bool)
  /-- The next read is `isSubscriptionConfirmed` of the first topic. -/
  | checks (topics : List Topic) (live : Bool)
  | returned (live : Bool)
  deriving DecidableEq

namespace Call

/-- The next section of the call that holds a lock. -/
def advance (c : Client) : Call → Client × Call
  | begun => (c, asks [orderTopic, executionTopic] c.isAuthenticated)
  | asks (topic :: topics) live =>
    (c, if c.isSubscribed topic then checks (topic :: topics) live else requests (topic :: topics) live)
  | asks [] live => (c, returned live)
  | requests (topic :: topics) live => ((c.subscribe topic).1, checks (topic :: topics) live)
  | checks (topic :: topics) live => (c, asks topics (live && c.isSubscriptionConfirmed topic))
  | call => (c, call)

def running : Call → Bool
  | idle | returned _ => false
  | _ => true

/-- The call has found the order topic confirmed and not read the execution topic's confirmation yet. -/
def betweenReads : Call → Bool
  | asks topics live | requests topics live | checks topics live => live && topics = [executionTopic]
  | _ => false

end Call

/-- The session is authenticated on its current connection, and both topics are confirmed. -/
def Live (w : World) : Prop :=
  w.isAuthenticated = true ∧ w.connected = true ∧ .authAck w.generation true ∈ w.trace ∧
    w.isSubscriptionConfirmed orderTopic = true ∧ w.isSubscriptionConfirmed executionTopic = true

instance (w : World) : Decidable (Live w) := by unfold Live; infer_instance

structure Manager where
  wsClient : Client
  call : Call
  /-- At some instant of the call so far the stream was live. -/
  seen : Bool

inductive Step where
  /-- A step of the session's strand, of a stream, or of Beast. -/
  | session (a : Action)
  /-- A subscribe of another thread: of `connect()`, or of another call of `isLive`. Its topic is a
  literal of the source. -/
  | subscribe (topic : String)
  /-- `isLive` is called. -/
  | call
  /-- The call goes on. -/
  | advance

/-- A step that is not a call of some thread. -/
def ofStrand : Action → Bool
  | .task _ | .complete _ _ _ | .control _ _ _ | .streamCloses => true
  | _ => false

namespace Manager

def init (apiKey apiSecret : String) : Manager := ⟨.init apiKey apiSecret, .idle, false⟩

/-- Whether the stream is live now. -/
def liveNow (c : Client) : Bool := c.session.any fun w => decide (Live w)

/-- The client after a step, during a call or not. -/
def sees (c : Client) (m : Manager) : Manager :=
  { m with wsClient := c, seen := m.seen || (m.call.running && liveNow c) }

def step (m : Manager) : Step → Option Manager
  | .session a =>
    match m.wsClient.session with
    | none => none
    | some w =>
      if ofStrand a then (Session.step w a).map fun w' => m.sees { m.wsClient with session := some w' } else none
  | .subscribe topic => if topic = "" then none else some (m.sees (m.wsClient.subscribe topic).1)
  | .call => if m.call.running then none else some { m with call := .begun, seen := liveNow m.wsClient }
  | .advance =>
    if m.call.running then some { m.sees (m.call.advance m.wsClient).1 with call := (m.call.advance m.wsClient).2 }
    else none

/-- A manager, before it is connected. -/
def system (apiKey apiSecret : String) : System Manager Step := ⟨init apiKey apiSecret, step⟩

/-- The venue answers the subscribe ops of a connection in order. -/
def VenueInOrder (m : Manager) : Step → Prop
  | .session a => ∀ w ∈ m.wsClient.session, w.VenueInOrder a
  | _ => True

/-- Between the two reads of the call, the venue rejects an op that names the order topic. -/
def LosesOrder (m : Manager) : Step → Prop
  | .session a => m.call.betweenReads = true ∧ ∃ w ∈ m.wsClient.session, w.rejects orderTopic a = true
  | _ => False

instance (m : Manager) (a : Step) : Decidable (m.VenueInOrder a) := by
  cases a <;> unfold VenueInOrder <;> infer_instance

instance (m : Manager) (a : Step) : Decidable (¬ m.LosesOrder a) := by
  cases a <;> unfold LosesOrder <;> infer_instance

end Manager

/-! ## What a call knows -/

/-- The topics a call can have left. -/
def Call.Sane : Call → Prop
  | asks topics _ => topics = [orderTopic, executionTopic] ∨ topics = [executionTopic] ∨ topics = []
  | requests topics _ | checks topics _ => topics = [orderTopic, executionTopic] ∨ topics = [executionTopic]
  | _ => True

/-- The order topic was found confirmed, so it is confirmed or on its way until the call reads the
other one. -/
structure Knows (apiKey apiSecret : String) (m : Manager) : Prop where
  key : m.wsClient.apiKey = apiKey
  secret : m.wsClient.apiSecret = apiSecret
  reached : ∀ w ∈ m.wsClient.session, (session apiKey apiSecret).Reach World.Orderly w
  sane : m.call.Sane
  seen : m.call.running = true → Manager.liveNow m.wsClient = true → m.seen = true
  held : m.call.betweenReads = true → ∃ w ∈ m.wsClient.session, Line.Held orderTopic w.books
  done : m.call = .asks [] true ∨ m.call = .returned true → m.seen = true

section Knows

variable {apiKey apiSecret : String} {m : Manager}

theorem live_of_confirmed {w : World} (hkey : apiKey ≠ "") (hsecret : apiSecret ≠ "")
    (hr : (session apiKey apiSecret).Reach World.Orderly w) (ho : Line.Confirmed orderTopic w.books)
    (he : Line.Confirmed executionTopic w.books) : Live w := by
  have hline := World.line_of_orderly hr
  obtain ⟨hup, hauthed, -⟩ := (Line.confirming_of_reach hline).confirmed (Line.shape_of_reach hline) ho
  have hsec : w.line.secured = true := by
    rw [Line.secured_of_reach hline]
    simp [World.init, hkey, hsecret]
  have hau := Line.authed_of_reach hline
  have ha : w.line.authed = true := hauthed hsec
  exact ⟨hau.mirror.trans ha, World.phase_up_iff.1 hup, hau.acked ha, Line.confirmed_iff.2 ho,
    Line.confirmed_iff.2 he⟩

/-- The client changes under the call. -/
theorem Knows.sees (h : Knows apiKey apiSecret m) {c : Client} (hk : c.apiKey = apiKey)
    (hs : c.apiSecret = apiSecret)
    (hr : ∀ w ∈ c.session, (session apiKey apiSecret).Reach World.Orderly w)
    (hh : m.call.betweenReads = true → ∃ w ∈ c.session, Line.Held orderTopic w.books) :
    Knows apiKey apiSecret (m.sees c) where
  key := hk
  secret := hs
  reached := hr
  sane := h.sane
  seen := fun hrun hlive => by
    change (m.seen || (m.call.running && Manager.liveNow c)) = true
    rw [show m.call.running = true from hrun, show Manager.liveNow c = true from hlive]
    simp
  held := hh
  done := fun hd => by
    change (m.seen || _) = true
    rw [h.done hd]
    rfl

theorem Knows.session (h : Knows apiKey apiSecret m) {w w' : World} {a : Action}
    (hw : m.wsClient.session = some w)
    (ha : ∀ t, a ≠ .unsubscribe t) (hs : Session.step w a = some w') (hin : w.Orderly a)
    (hl : m.call.betweenReads = true → w.rejects orderTopic a = false) :
    Knows apiKey apiSecret (m.sees { m.wsClient with session := some w' }) := by
  have hr := h.reached w hw
  refine h.sees h.key h.secret (fun w₁ hw₁ => ?_) fun hb => ⟨w', rfl, ?_⟩
  · obtain rfl := Option.some.inj hw₁
    exact hr.step hin hs
  · obtain ⟨w₀, hw₀, hheld⟩ := h.held hb
    obtain rfl := Option.some.inj (hw.symm.trans hw₀)
    exact World.held_step hr hs hin ha (hl hb) hheld

theorem Knows.subscribe (h : Knows apiKey apiSecret m) (hkey : apiKey ≠ "") (hsecret : apiSecret ≠ "")
    {topic : Topic} (ht : topic ≠ "") (hutf : topic.isUtf8 = true) :
    Knows apiKey apiSecret (m.sees (m.wsClient.subscribe topic).1) := by
  cases hw : m.wsClient.session with
  | some w =>
    have hc : (m.wsClient.subscribe topic).1 = { m.wsClient with session := some (w.subscribe topic) } := by
      unfold Client.subscribe
      rw [hw]
    rw [hc]
    refine h.session hw (a := .subscribe topic) (by simp) rfl ⟨fun mv hmv => ?_, hutf⟩ fun _ => rfl
    obtain rfl := Option.some.inj hmv
    trivial
  | none =>
    have hnew : m.wsClient.newSession = World.init apiKey apiSecret := by
      unfold Client.newSession
      rw [h.key, h.secret, if_pos (by simp [hkey, hsecret])]
    have hc : (m.wsClient.subscribe topic).1 =
        { m.wsClient with session := some ((World.init apiKey apiSecret).run topic) } := by
      unfold Client.subscribe
      rw [hw]
      simp only [if_neg ht, hnew]
    rw [hc]
    refine h.sees h.key h.secret (fun w₁ hw₁ => ?_) fun hb => ?_
    · obtain rfl := Option.some.inj hw₁
      refine System.Reach.step (a := .run topic) .init ⟨fun mv hmv => ?_, hutf⟩ (if_neg ?_)
      · obtain rfl := Option.some.inj hmv
        trivial
      · change ¬ (false || decide (topic = "")) = true
        simpa using ht
    · obtain ⟨w, hw', -⟩ := h.held hb
      rw [hw] at hw'
      cases hw'

theorem Knows.call (h : Knows apiKey apiSecret m) (hrun : m.call.running = true) {call : Call}
    (hsane : call.Sane)
    (hh : call.betweenReads = true → ∃ w ∈ m.wsClient.session, Line.Held orderTopic w.books)
    (hd : call = .asks [] true ∨ call = .returned true → m.seen = true) :
    Knows apiKey apiSecret { m.sees m.wsClient with call := call } where
  key := h.key
  secret := h.secret
  reached := h.reached
  sane := hsane
  seen := fun _ hlive => by
    change (m.seen || _) = true
    rw [h.seen hrun hlive]
    rfl
  held := hh
  done := fun hcase => by
    change (m.seen || _) = true
    rw [hd hcase]
    rfl

/-- The read of a confirmation. -/
theorem Knows.checks (h : Knows apiKey apiSecret m) (hkey : apiKey ≠ "") (hsecret : apiSecret ≠ "")
    {topic : Topic}
    {topics : List Topic} {live : Bool} (hc : m.call = .checks (topic :: topics) live) :
    Knows apiKey apiSecret { m.sees m.wsClient with
      call := .asks topics (live && m.wsClient.isSubscriptionConfirmed topic) } := by
  have hrun : m.call.running = true := by rw [hc]; rfl
  have hsane := h.sane
  rw [hc] at hsane
  -- a topic that is confirmed is so in some session
  have hconf : m.wsClient.isSubscriptionConfirmed topic = true →
      ∃ w ∈ m.wsClient.session, Line.Confirmed topic w.books := fun hcf => by
    obtain ⟨w, hw, hwc⟩ := (Option.any_eq_true _ _).1 hcf
    exact ⟨w, hw, Line.confirmed_iff.1 hwc⟩
  rcases hsane with heq | heq <;> obtain ⟨rfl, rfl⟩ := List.cons.inj heq
  · refine h.call hrun (Or.inr (Or.inl rfl)) (fun hb => ?_) fun hcase => ?_
    · simp only [Call.betweenReads, Bool.and_eq_true] at hb
      obtain ⟨w, hw, hwc⟩ := hconf hb.1.2
      exact ⟨w, hw, Or.inl hwc⟩
    · rcases hcase with hcase | hcase <;> simp at hcase
  · refine h.call hrun (Or.inr (Or.inr rfl)) (fun hb => by simp [Call.betweenReads] at hb) fun hcase => ?_
    have hboth : live = true ∧ m.wsClient.isSubscriptionConfirmed executionTopic = true := by
      rcases hcase with hcase | hcase
      · simpa using hcase
      · cases hcase
    -- the order topic was found confirmed before, and no other topic is confirmed before it is again
    obtain ⟨w, hw, hwc⟩ := hconf hboth.2
    obtain ⟨w', hw', hheld⟩ := h.held (by rw [hc, hboth.1]; rfl)
    obtain rfl := Option.some.inj (hw.symm.trans hw')
    have hlive := live_of_confirmed hkey hsecret (h.reached w hw) (hheld.confirmed hwc) hwc
    refine h.seen hrun ?_
    unfold Manager.liveNow
    rw [show m.wsClient.session = some w from hw]
    exact decide_eq_true hlive

theorem Knows.advance (h : Knows apiKey apiSecret m) (hkey : apiKey ≠ "") (hsecret : apiSecret ≠ "")
    (hrun : m.call.running = true) : Knows apiKey apiSecret
      { m.sees (m.call.advance m.wsClient).1 with call := (m.call.advance m.wsClient).2 } := by
  have hsane := h.sane
  have hheld := h.held
  have hdone := h.done
  cases hc : m.call with
  | idle => rw [hc] at hrun; cases hrun
  | returned live => rw [hc] at hrun; cases hrun
  | begun =>
    refine h.call hrun (Or.inl rfl) (fun hb => ?_) fun hcase => ?_
    · change (_ && decide ([orderTopic, executionTopic] = [executionTopic])) = true at hb
      simp at hb
    · rcases hcase with hcase | hcase <;> cases hcase
  | asks topics live =>
    rw [hc] at hsane hheld hdone
    cases topics with
    | nil =>
      refine h.call hrun trivial (fun hb => by cases hb) fun hcase => hdone ?_
      rcases hcase with hcase | hcase
      · cases hcase
      · exact Or.inl (by rw [Call.returned.inj hcase])
    | cons topic topics =>
      have hsane' : topic :: topics = [orderTopic, executionTopic] ∨ topic :: topics = [executionTopic] := by
        rcases hsane with heq | heq | heq
        · exact Or.inl heq
        · exact Or.inr heq
        · cases heq
      simp only [Call.advance]
      split
      · exact h.call hrun hsane' hheld fun hcase => by rcases hcase with hcase | hcase <;> cases hcase
      · exact h.call hrun hsane' hheld fun hcase => by rcases hcase with hcase | hcase <;> cases hcase
  | requests topics live =>
    rw [hc] at hsane hheld
    have hne : ∃ topic rest, topics = topic :: rest ∧ topic ≠ "" ∧ topic.isUtf8 = true := by
      rcases hsane with rfl | rfl
      · exact ⟨_, _, rfl, by decide, rfl⟩
      · exact ⟨_, _, rfl, by decide, rfl⟩
    obtain ⟨topic, rest, rfl, ht, hutf⟩ := hne
    have hsub := h.subscribe hkey hsecret ht hutf
    refine ⟨hsub.key, hsub.secret, hsub.reached, hsane, fun _ => hsub.seen hrun, fun hb => ?_, fun hcase => ?_⟩
    · exact hsub.held (by rw [show (m.sees _).call = m.call from rfl, hc]; exact hb)
    · rcases hcase with hcase | hcase <;> cases hcase
  | checks topics live =>
    rw [hc] at hsane
    rcases hsane with rfl | rfl
    · exact h.checks hkey hsecret hc
    · exact h.checks hkey hsecret hc

theorem Knows.step (h : Knows apiKey apiSecret m) (hkey : apiKey ≠ "") (hsecret : apiSecret ≠ "") {a : Step}
    {m' : Manager} (hin : m.VenueInOrder a) (hlose : ¬ m.LosesOrder a) (hs : m.step a = some m') :
    Knows apiKey apiSecret m' := by
  cases a with
  | session a =>
    simp only [Manager.step] at hs
    split at hs
    · cases hs
    · next w hw =>
      split at hs
      · next hstrand =>
        obtain ⟨w', hw', rfl⟩ := Option.map_eq_some_iff.1 hs
        refine h.session hw (fun t heq => by rw [heq] at hstrand; cases hstrand) hw' ⟨hin w hw, ?_⟩ fun hb => ?_
        · cases a <;> trivial
        by_contra hrej
        exact hlose ⟨hb, w, hw, by simpa using hrej⟩
      · cases hs
  | subscribe topic =>
    simp only [Manager.step] at hs
    split at hs
    · cases hs
    · next ht =>
      obtain rfl := Option.some.inj hs
      exact h.subscribe hkey hsecret (fun heq => ht (StdString.utf8.inj heq)) rfl
  | call =>
    simp only [Manager.step] at hs
    split at hs
    · cases hs
    · obtain rfl := Option.some.inj hs
      exact ⟨h.key, h.secret, h.reached, trivial, fun _ hlive => hlive, fun hb => (by cases hb), fun hcase => by
        rcases hcase with hcase | hcase <;> cases hcase⟩
  | advance =>
    simp only [Manager.step] at hs
    split at hs
    · next hrun =>
      obtain rfl := Option.some.inj hs
      exact h.advance hkey hsecret hrun
    · cases hs

end Knows

/-- **`isLive`.** Where the venue answers in order, and rejects no op naming the order topic between
the call's two reads of a confirmation: if a call on a manager with credentials returns true, then
at some instant of the call the session was authenticated on its current connection with both topics
confirmed. -/
theorem isLive_seen (apiKey apiSecret : String) (hkey : apiKey ≠ "") (hsecret : apiSecret ≠ "")
    (m : Manager)
    (h : (Manager.system apiKey apiSecret).Reach (fun m a => m.VenueInOrder a ∧ ¬ m.LosesOrder a) m)
    (hr : m.call = .returned true) : m.seen = true := by
  have hinit : Knows apiKey apiSecret (Manager.init apiKey apiSecret) :=
    ⟨rfl, rfl, fun w hw => (by cases hw), trivial, fun hrun => (by cases hrun), fun hb => (by cases hb),
      fun hcase => by rcases hcase with hcase | hcase <;> cases hcase⟩
  have hk : Knows apiKey apiSecret m := h.invariant (I := Knows apiKey apiSecret) hinit
    fun _ _ _ _ hC hs hI => hI.step hkey hsecret hC.1 hC.2 hs
  exact hk.done (Or.inr hr)

/-- Steps of the session only. -/
def strand (l : List Action) : List Step := l.map .session

/-- The order topic is confirmed on the first connection, and the execution topic's op is written. -/
def orderConfirmedRun : List Step :=
  [.subscribe "order"] ++
    strand (.task .startConnect :: chainRun 1 ⟨0, 0⟩ ++
      [.complete ⟨.write, 1, false⟩ .done ⟨0, 0⟩,
        .complete ⟨.read, 1, false⟩ (.frame (some World.authSuccess)) ⟨0, 0⟩,
        .complete ⟨.write, 1, false⟩ .done ⟨0, 0⟩,
        .complete ⟨.read, 1, false⟩ (.frame (some (World.subscribeAnswer true "1"))) ⟨0, 0⟩]) ++
    [.subscribe "execution", .session (.task .flushTopics)]

theorem isLive_seen_run : ∃ m : Manager, m.call = .returned true ∧ m.seen = true := by
  obtain ⟨m, hm, hr⟩ := System.Reach.exists_of_exec (S := Manager.system "key" "secret")
    (C := fun m a => m.VenueInOrder a ∧ ¬ m.LosesOrder a)
    (l := orderConfirmedRun ++
      [.session (.complete ⟨.read, 1, false⟩ (.frame (some (World.subscribeAnswer true "2"))) ⟨0, 0⟩), .call] ++
      List.replicate 6 .advance)
    (P := fun m => m.call = .returned true) (by decide)
  exact ⟨m, hr, isLive_seen "key" "secret" (by decide) (by decide) m hm hr⟩

/-- The call finds the order topic confirmed. Then the connection is torn down, the venue rejects
the op that replays both topics, and the call, which does not look at the order topic again,
requests the execution topic alone and finds it confirmed. -/
theorem isLive_without_instant :
    ¬ ∀ m, (Manager.system "key" "secret").Reach Manager.VenueInOrder m → m.call = .returned true →
      m.seen = true := by
  intro h
  obtain ⟨m, hm, hr, hs⟩ := System.Reach.exists_of_exec (S := Manager.system "key" "secret")
    (C := Manager.VenueInOrder)
    (l := orderConfirmedRun ++ [.call, .advance, .advance, .advance] ++
      strand (.complete ⟨.write, 1, false⟩ .failed ⟨0, 0⟩ :: reconnectRun 1 ++
        [.complete ⟨.write, 2, false⟩ .done ⟨0, 0⟩,
          .complete ⟨.read, 2, false⟩ (.frame (some World.authSuccess)) ⟨0, 0⟩,
          .complete ⟨.write, 2, false⟩ .done ⟨0, 0⟩,
          .complete ⟨.read, 2, false⟩ (.frame (some (World.subscribeAnswer false "3"))) ⟨0, 0⟩]) ++
      [.advance, .advance, .session (.task .flushTopics),
        .session (.complete ⟨.write, 2, false⟩ .done ⟨0, 0⟩),
        .session (.complete ⟨.read, 2, false⟩ (.frame (some (World.subscribeAnswer true "4"))) ⟨0, 0⟩),
        .advance, .advance])
    (P := fun m => m.call = .returned true ∧ m.seen = false) (by decide)
  exact absurd (h m hm hr) (by simp [hs])

end BybitApi.PrivateStream
