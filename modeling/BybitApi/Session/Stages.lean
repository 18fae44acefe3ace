import BybitApi.Session.Refines

/-!
# Exactly one stage

The loop invariant read off a session: from the first generation on and before the session is
closed, one of the connect chain, the armed connection and the scheduled reconnect is there, and
only one.

That the armed connection is read from (`World.Listening`) rests on the topics: where one is no UTF-8,
`onHandshake` can throw before it starts the first read, and the session stays connected without one.
-/

namespace BybitApi.Session

open Lib

/-! ## The read of a connection that is up -/

/-- Where the connection is up afterwards it was up before, and no read was lost. -/
def Life.Listens (l l' : Life) : Prop := l'.connected = true → l.connected = true ∧ l.reads ≤ l'.reads

namespace Life.Listens

variable {l l' l'' : Life}

theorem of_eq (h : l' = l) : l.Listens l' := by
  subst h; exact fun hc => ⟨hc, le_rfl⟩

theorem trans (h : l.Listens l') (h' : l'.Listens l'') : l.Listens l'' := fun hc => by
  obtain ⟨hc', hr'⟩ := h' hc
  obtain ⟨hc₀, hr⟩ := h hc'
  exact ⟨hc₀, hr.trans hr'⟩

theorem of_down (h : l'.connected = false) : l.Listens l' := fun hc => by
  rw [h] at hc
  cases hc

theorem start (k : Kind) (l : Life) : l.Listens (l.start k) := fun hc => ⟨hc, Nat.le_add_right _ _⟩

theorem cancel (k : Kind) (l : Life) : l.Listens (l.cancel k) := fun hc => ⟨hc, le_rfl⟩

end Life.Listens

namespace World

/-- A connection that is up is read from. -/
def Listening (w : World) : Prop := w.userClosed = false → w.connected = true → 0 < w.life.reads

section Listening

variable {w w' : World}

theorem Listening.of_listens (h : w.Listening) (hc : w'.userClosed = false → w.userClosed = false)
    (hl : w.life.Listens w'.life) : w'.Listening := fun hclosed hcon => by
  obtain ⟨hcon', hr⟩ := hl hcon
  exact (h (hc hclosed) hcon').trans_le hr

theorem listens_handleError (gen : ℕ) (w : World) : w.life.Listens (w.handleError gen).life := by
  unfold handleError
  split
  · exact .of_eq rfl
  · split
    · exact .of_eq rfl
    · exact .of_down rfl

theorem listens_startConnect (w : World) : w.life.Listens w.startConnect.life := by
  unfold startConnect
  split
  · exact .of_eq rfl
  · exact .of_down rfl

theorem listens_onPingTimer (gen : ℕ) (ec : Bool) (now : Clock) (w : World) :
    w.life.Listens (w.onPingTimer gen ec now).life := by
  have harm : ∀ w' : World, w'.life = w.life → w.life.Listens (w'.arm .pingTimer).life := by
    intro w' h
    rw [life_arm, h]
    exact (Life.Listens.cancel _ _).trans (.start _ _)
  unfold onPingTimer
  split
  · exact .of_eq rfl
  · split
    · exact .of_eq rfl
    · split
      · split
        · exact listens_handleError gen w
        · split
          · exact listens_handleError gen w
          · exact harm _ (by rw [life_pump, life_enqueueOp])
      · exact harm _ rfl

/-- No completion but that of a read ends a read, and none but that of the handshake brings the
connection up. -/
theorem listens_completion {kind : Kind} (hr : kind ≠ .read) (hh : kind ≠ .handshake) (gen : ℕ) (r : Result)
    (now : Clock) (w : World) : w.life.Listens (completion kind gen r now w).life := by
  have hstart : ∀ k (w' : World), w'.life = w.life → w.life.Listens (w'.start k).life := by
    intro k w' h
    rw [life_start, h]
    exact .start _ _
  by_cases hg : gen = w.generation
  swap
  · rw [completion_stale hg]
    exact .of_eq rfl
  have herr := listens_handleError w.generation w
  unfold completion
  cases kind <;> simp only [hg, ne_eq, not_true_eq_false, if_false]
  case read => exact absurd rfl hr
  case handshake => exact absurd rfl hh
  case pingTimer => exact listens_onPingTimer w.generation r.ec now w
  case close => exact .of_eq rfl
  case resolve =>
    unfold onResolve; split
    · exact herr
    · exact hstart _ _ rfl
  case connect =>
    unfold onConnect; split
    · exact herr
    · split
      · exact herr
      · exact hstart _ _ rfl
  case sslHandshake =>
    unfold onSSLHandshake; split
    · exact herr
    · exact hstart _ _ rfl
  case write =>
    unfold onWrite; split
    · exact listens_handleError _ w.writeDone
    · exact .of_eq (by rw [life_pump, life_writeDone])
  case reconnectTimer =>
    unfold onReconnectTimer; split
    · exact fun hc => ⟨hc, le_rfl⟩
    · have hun : w.life.Listens w.unschedule.life := fun hc => ⟨hc, le_rfl⟩
      exact hun.trans (listens_startConnect w.unschedule)

/-- Where every pending topic is UTF-8 the flush does not throw. -/
theorem flushTopics_returns (h : ∀ t ∈ w.books.pendingTopics, t.isUtf8 = true) :
    w.flushTopics.threw = false := by
  have hop : w.subscribeOp.isUtf8 = true := List.all_eq_true.2 h
  unfold flushTopics
  split
  · rfl
  · split
    · rfl
    · rw [sendOp, if_pos hop]

theorem goUp_returns (h : ∀ t ∈ w.books.pendingTopics, t.isUtf8 = true) (now : Clock) :
    (w.goUp now).threw = false := by
  unfold goUp
  split
  · rfl
  · exact flushTopics_returns (w := w.setConnected now) h

/-- The end of the connect chain starts the first read. -/
theorem Listening.onHandshake (h : w.Listening) (hutf : ∀ t ∈ w.books.pendingTopics, t.isUtf8 = true)
    (hclosed : w.userClosed = false) (gen : ℕ) (ec : Bool) (now : Clock) :
    (w.onHandshake gen ec now).world.Listening := by
  unfold World.onHandshake
  split
  · exact h.of_listens (fun hc => (near_handleError gen w).closed.symm.trans hc) (listens_handleError gen w)
  · rw [if_neg (by simp [hclosed]), if_neg (by simp [goUp_returns hutf])]
    intro _ _
    rw [life_start]
    exact Nat.succ_pos _

/-- A read that ends is followed by the next one, or by a teardown. -/
theorem listening_onRead (ec : Bool) (json : Option Json) (now : Clock) (hclosed : w.userClosed = false)
    (hs : w.reconnectScheduled = !w.connected) : (w.onRead w.generation ec json now).Listening := by
  have htorn : ∀ v : World, v.life = w.life → (v.handleError w.generation).connected = false := by
    intro v hv
    rw [← show v.generation = w.generation from congrArg Life.generation hv]
    have hsched : v.reconnectScheduled = !w.connected := (congrArg Life.scheduled hv).trans hs
    cases hcon : w.connected with
    | true =>
      rw [handleError_current (hsched.trans (by rw [hcon]; rfl)) ((congrArg Life.closed hv).trans hclosed)]
      rfl
    | false =>
      rw [handleError_of_scheduled _ (hsched.trans (by rw [hcon]; rfl))]
      exact (congrArg Life.connected hv).trans hcon
  have hdown : ∀ v : World, v.connected = false → v.Listening := fun v hv _ hc => by
    rw [hv] at hc
    cases hc
  obtain ⟨v, hv, hcase⟩ := onRead_cases w.generation ec json now w
  rcases hcase with he | he | he <;> rw [he]
  · exact hdown _ (htorn v hv)
  · intro _ hc
    have hgen : v.generation = w.generation := congrArg Life.generation hv
    have hsched : v.reconnectScheduled = !w.connected := (congrArg Life.scheduled hv).trans hs
    cases hcon : w.connected with
    | true =>
      rw [← hgen, life_readAgain ((congrArg Life.connected hv).trans hcon) (hsched.trans (by rw [hcon]; rfl))]
      exact Nat.succ_pos _
    | false =>
      have hsame := readAgain_of_scheduled w.generation (hsched.trans (by rw [hcon]; rfl))
      rw [hsame, show v.connected = false from (congrArg Life.connected hv).trans hcon] at hc
      cases hc
  · have hd := htorn v hv
    refine hdown _ ?_
    unfold readAgain
    rw [if_pos (by simp [hd])]
    exact hd

theorem Listening.complete {p : Pending} (h : w.Listening) (hl : w.Loop) (hutf : w.line.Utf8)
    (hp : p ∈ w.pending) (r : Result) (now : Clock) : (completion p.kind p.gen r now (w.taken p)).Listening := by
  intro hclosed
  have hn := near_completion p.kind p.gen r now (w.taken p)
  have hopen : w.userClosed = false := hn.closed.symm.trans hclosed
  refine (?_ : (completion p.kind p.gen r now (w.taken p)).Listening) hclosed
  by_cases hg : p.gen = w.generation
  swap
  · rw [completion_stale (show p.gen ≠ (w.taken p).generation from hg)]
    exact h.of_listens (fun _ => hopen) (.of_eq (life_taken_stale hp hg hl.ahead))
  have hb := hl.begun hopen hp
  by_cases hr : p.kind = .read
  · have hs : (w.taken p).reconnectScheduled = !(w.taken p).connected := by
      rcases hb.live_or_waiting hp hg (Or.inl hr) with hst | hst
      · rw [show (w.taken p).reconnectScheduled = false from hst.scheduled,
          show (w.taken p).connected = true from hst.connected]
        rfl
      · rw [show (w.taken p).reconnectScheduled = true from hst.scheduled,
          show (w.taken p).connected = false from hst.connected]
        rfl
    have hrun : completion p.kind p.gen r now (w.taken p) =
        (w.taken p).onRead (w.taken p).generation r.ec r.json now := by
      rw [hr]
      exact if_neg (by simp [hg, taken]) |>.trans (by rw [hg]; rfl)
    rw [hrun]
    exact listening_onRead r.ec r.json now hopen hs
  · have htaken : (w.taken p).Listening := fun hc hcon => by
      have hreads := h hc hcon
      rw [life_taken hp hg]
      simpa [Life.take, hr] using hreads
    by_cases hh : p.kind = .handshake
    · have hrun : completion p.kind p.gen r now (w.taken p) =
          ((w.taken p).onHandshake (w.taken p).generation r.ec now).world := by
        rw [hh]
        exact if_neg (by simp [hg, taken]) |>.trans (by rw [hg]; rfl)
      rw [hrun]
      exact htaken.onHandshake hutf.pending hopen _ _ _
    · exact htaken.of_listens (fun _ => hopen) (listens_completion hr hh p.gen r now (w.taken p))

theorem Listening.step {a : Action} (h : w.Listening) (hl : w.Loop) (hutf : w.line.Utf8)
    (hs : Session.step w a = some w') : w'.Listening := by
  have hopen := open_of_step hs
  cases a with
  | run f =>
    obtain ⟨-, -, rfl⟩ := step_run hs
    exact h
  | subscribe topic =>
    obtain rfl := Option.some.inj hs
    exact h
  | unsubscribe topic =>
    obtain rfl := Option.some.inj hs
    unfold World.unsubscribe
    split <;> exact h
  | close =>
    obtain rfl := Option.some.inj hs
    exact h
  | task t =>
    obtain ⟨-, rfl⟩ := step_task hs
    cases t with
    | startConnect => exact h.of_listens hopen (listens_startConnect (w.begin .startConnect))
    | flushTopics => exact h.of_listens hopen (.of_eq ((life_flushTopics _).trans (life_begin (by simp) w)))
    | sendUnsubscribe topic =>
      exact h.of_listens hopen (.of_eq ((life_sendUnsubscribe topic _).trans (life_begin (by simp) w)))
    | closeByUser =>
      intro hclosed
      change (closeByUser (w.begin .closeByUser)).userClosed = false at hclosed
      unfold closeByUser at hclosed
      split at hclosed
      · next hc =>
        rw [show (w.begin .closeByUser).userClosed = true from hc] at hclosed
        cases hclosed
      · rw [closed_closeStream] at hclosed
        cases hclosed
  | complete p r now =>
    obtain ⟨hp, -, rfl⟩ := step_complete hs
    exact h.complete hl hutf hp r now
  | control gen isPong now =>
    obtain ⟨-, rfl⟩ := step_control hs
    unfold controlCallback
    split <;> exact h
  | streamCloses =>
    obtain rfl := Option.some.inj hs
    exact h.of_listens hopen (.of_eq (life_ws (gen_closed w.ws)))

/-- The line of a session that is asked for UTF-8 only. -/
theorem utf8_of_session {apiKey apiSecret : String} {C : World → Action → Prop} (hC : ∀ w a, C w a → a.AsksUtf8)
    (h : (session apiKey apiSecret).Reach C w) : w.line.Utf8 :=
  Line.utf8_of_reach (fun _ _ => id)
    (line_of_reach (E := Line.AsksUtf8) Line.asksUtf8_internal (fun w a _ _ hc hm => asksUtf8_cause (hC w a hc) hm) h)

/-- Where every topic asked for is UTF-8, a connection that is up has one read. -/
theorem reads_of_reach {apiKey apiSecret : String} {C : World → Action → Prop} (hC : ∀ w a, C w a → a.AsksUtf8)
    (h : (session apiKey apiSecret).Reach C w) (hclosed : w.userClosed = false) (hcon : w.connected = true) :
    w.life.reads = 1 := by
  have hpos : w.Listening := h.invariant (I := Listening) (fun _ hc => by cases hc)
    fun _ _ _ hr _ hs hI => hI.step (Loop.of_reach hr) (utf8_of_session hC hr) hs
  have hone := ((Loop.of_reach h).live hclosed hcon).reads
  have := hpos hclosed hcon
  omega

end Listening

/-! ## The stages -/

/-- An operation of the connect chain of the current generation is pending. -/
def ChainPending (w : World) : Prop := ∃ p ∈ w.pending, p.gen = w.generation ∧ p.kind.isChain = true

/-- The session is connected, and one read and one ping wait of the current generation are pending. -/
def ConnectedAndArmed (w : World) : Prop :=
  w.connected = true ∧ (w.current fun p => p.kind = .read) = 1 ∧ (w.current fun p => p.kind = .pingTimer) = 1

/-- A reconnect is scheduled, and its timer wait is pending. -/
def ReconnectPending (w : World) : Prop :=
  w.reconnectScheduled = true ∧ (w.current fun p => p.kind = .reconnectTimer) = 1

instance (w : World) : Decidable w.ChainPending := by unfold ChainPending; infer_instance

instance (w : World) : Decidable w.ConnectedAndArmed := by unfold ConnectedAndArmed; infer_instance

instance (w : World) : Decidable w.ReconnectPending := by unfold ReconnectPending; infer_instance

/-- Exactly one of the three. -/
def OneOf (a b c : Prop) : Prop := (a ∧ ¬ b ∧ ¬ c) ∨ (¬ a ∧ b ∧ ¬ c) ∨ (¬ a ∧ ¬ b ∧ c)

instance (a b c : Prop) [Decidable a] [Decidable b] [Decidable c] : Decidable (OneOf a b c) := by
  unfold OneOf; infer_instance

theorem chainPending_iff (w : World) : w.ChainPending ↔ 0 < w.life.chain := by
  simp [ChainPending, life, current, List.countP_pos_iff]

/-- Exactly one of the three, for a connection that is read from. -/
theorem Begun.oneOf {w : World} (h : w.Begun) (hr : w.connected = true → w.life.reads = 1) :
    OneOf w.ChainPending w.ConnectedAndArmed w.ReconnectPending := by
  rw [chainPending_iff]
  unfold ConnectedAndArmed ReconnectPending
  rcases h.stage with ⟨hs, -⟩ | hs | hs
  · have hc : w.connected = false := hs.connected
    have hsched : w.reconnectScheduled = false := hs.scheduled
    exact Or.inl ⟨by rw [hs.chain]; exact Nat.one_pos, by simp [hc], by simp [hsched]⟩
  · have hsched : w.reconnectScheduled = false := hs.scheduled
    exact Or.inr (Or.inl ⟨by simp [hs.chain], ⟨hs.connected, hr hs.connected, hs.pings⟩, by simp [hsched]⟩)
  · have hc : w.connected = false := hs.connected
    exact Or.inr (Or.inr ⟨by simp [hs.chain], by simp [hc], hs.scheduled, hs.waits⟩)

/-- **The connect/reconnect loop.** From `run()` on and before the session is closed, where every
topic asked for is UTF-8, either the `startConnect` that `run()` posted has not run, or exactly one
of the three holds: an operation of the connect chain is pending; the session is connected, with one
read and one ping wait pending; a reconnect is scheduled, with its wait pending. Once it is closed,
whatever is asked for, no generation begins and the connection does not come up. -/
theorem exactly_one_stage (apiKey apiSecret : String) (w : World) :
    ((session apiKey apiSecret).Reach (fun _ a => a.AsksUtf8) w → w.ran = true → w.userClosed = false →
      (w.generation = 0 ∧ .startConnect ∈ w.tasks) ∨
        OneOf w.ChainPending w.ConnectedAndArmed w.ReconnectPending) ∧
    ((session apiKey apiSecret).Reach System.Free w → w.userClosed = true →
      ∀ w', Relation.ReflTransGen ((session apiKey apiSecret).Next System.Free) w w' →
        w'.generation = w.generation ∧ (w.connected = false → w'.connected = false)) := by
  refine ⟨fun h hran hc => ?_, fun h hc w' hw' => ?_⟩
  · rcases (Loop.of_reach h).stage hc with hi | hb
    · left
      have hstarts := hi.starts
      rw [if_pos hran] at hstarts
      exact ⟨hi.generation,
        List.count_pos_iff.1 (by rw [show w.tasks.count .startConnect = 1 from hstarts]; decide)⟩
    · exact Or.inr (hb.oneOf (reads_of_reach (fun _ _ => id) h hc))
  · obtain ⟨-, hg, hcon⟩ := shut_of_closed hc hw'
    exact ⟨hg, fun hd => hcon.trans hd⟩

theorem exactly_one_stage_connected :
    ∃ w, (session "" "").Reach (fun _ a => a.AsksUtf8) w ∧ w.connected = true ∧
      OneOf w.ChainPending w.ConnectedAndArmed w.ReconnectPending := by
  obtain ⟨w, hw, hcon, hran, hc, hg⟩ := System.Reach.exists_of_exec (S := session "" "")
    (C := fun _ a => a.AsksUtf8) (l := connectRun "tickers.BTCUSDT")
    (P := fun w => w.connected = true ∧ w.ran = true ∧ w.userClosed = false ∧ w.generation ≠ 0) (by decide)
  refine ⟨w, hw, hcon, ?_⟩
  rcases (exactly_one_stage "" "" w).1 hw hran hc with h | h
  · exact absurd h.1 hg
  · exact h

/-- Right after `run()` none of the three holds: its `startConnect` is posted, and there is no
generation yet. Nor does one of them hold of every later state: with a topic that is no UTF-8 the
session comes up, `flushTopics` throws, and there is no read. -/
theorem no_stage_after_run :
    (¬ ∀ w, (session "" "").Reach System.Free w → w.ran = true → w.userClosed = false →
      OneOf w.ChainPending w.ConnectedAndArmed w.ReconnectPending) ∧
    ¬ ∀ w, (session "" "").Reach System.Free w → w.ran = true → w.userClosed = false → .startConnect ∉ w.tasks →
      OneOf w.ChainPending w.ConnectedAndArmed w.ReconnectPending := by
  constructor <;> intro h
  · obtain ⟨w, hw, hran, hc, hn⟩ := System.Reach.exists_of_exec (S := session "" "") (C := System.Free)
      (l := [.run "tickers.BTCUSDT"])
      (P := fun w => w.ran = true ∧ w.userClosed = false ∧
        ¬ OneOf w.ChainPending w.ConnectedAndArmed w.ReconnectPending) (by decide)
    exact hn (h w hw hran hc)
  · obtain ⟨w, hw, hran, hc, ht, hn⟩ := System.Reach.exists_of_exec (S := session "" "") (C := System.Free)
      (l := connectRun notUtf8)
      (P := fun w => w.ran = true ∧ w.userClosed = false ∧ .startConnect ∉ w.tasks ∧
        ¬ OneOf w.ChainPending w.ConnectedAndArmed w.ReconnectPending) (by decide)
    exact hn (h w hw hran hc ht)

end World

end BybitApi.Session
