import BybitApi.Session.Life

/-!
# The connect/reconnect loop

`World.Loop` is the invariant of the loop before the session is closed. Either no generation has
begun (`Idle`), or the current one is in one of three stages: `Connecting`, `Live`, `Waiting`. A
handler is judged by what it finds (its completion is taken: `Stopped`, or `Waiting` already) and by
what it leaves.
-/

namespace BybitApi.Session

open Lib

/-! ## The stages -/

namespace Life

/-- One operation of the connect chain is outstanding, and nothing else. -/
structure Connecting (l : Life) : Prop where
  connected : l.connected = false
  scheduled : l.scheduled = false
  chain : l.chain = 1
  reads : l.reads = 0
  pings : l.pings = 0
  waits : l.waits = 0

/-- The connection is up: one ping wait is outstanding, and one read, unless an exception kept the
first read from being started. -/
structure Live (l : Life) : Prop where
  connected : l.connected = true
  scheduled : l.scheduled = false
  chain : l.chain = 0
  reads : l.reads ≤ 1
  pings : l.pings = 1
  deadPings : l.deadPings = 0
  waits : l.waits = 0

/-- A reconnect is scheduled: one reconnect wait is outstanding. Reads, writes and ping waits of the
torn-down connection may be too. -/
structure Waiting (l : Life) : Prop where
  connected : l.connected = false
  scheduled : l.scheduled = true
  chain : l.chain = 0
  waits : l.waits = 1
  deadWaits : l.deadWaits = 0

end Life

namespace World

/-- No generation has begun. -/
structure Idle (w : World) : Prop where
  generation : w.generation = 0
  pending : w.pending = []
  connected : w.connected = false
  scheduled : w.reconnectScheduled = false
  starts : w.life.starts = if w.ran then 1 else 0

/-- A generation has begun, and it is in one of the stages. No write is outstanding while it connects. -/
structure Begun (w : World) : Prop where
  generation : 0 < w.generation
  ran : w.ran = true
  starts : w.life.starts = 0
  stage : (w.life.Connecting ∧ (w.current fun p => p.kind = .write) = 0) ∨ w.life.Live ∨ w.life.Waiting

/-- The invariant of the connect/reconnect loop. -/
structure Loop (w : World) : Prop where
  ahead : w.life.ahead = 0
  matched : w.life.Matched
  stage : w.userClosed = false → w.Idle ∨ w.Begun

theorem Loop.init (apiKey apiSecret : String) : (World.init apiKey apiSecret).Loop :=
  ⟨rfl, fun _ h => (by cases h), fun _ => Or.inl ⟨rfl, rfl, rfl, rfl, rfl⟩⟩

theorem Loop.begun {w : World} {p : Pending} (h : w.Loop) (hc : w.userClosed = false) (hp : p ∈ w.pending) :
    w.Begun := by
  rcases h.stage hc with hi | hb
  · rw [hi.pending] at hp; cases hp
  · exact hb

theorem Loop.of_life {w w' : World} (h : w.Loop) (hl : w'.life = w.life)
    (hp : w.connected = false → w'.pending = w.pending) : w'.Loop := by
  have hgen : w'.generation = w.generation := congrArg Life.generation hl
  have hran : w'.ran = w.ran := congrArg Life.ran hl
  have hcon : w'.connected = w.connected := congrArg Life.connected hl
  refine ⟨by rw [hl]; exact h.ahead, by rw [hl]; exact h.matched, fun hc => ?_⟩
  have hc' : w.userClosed = false := by rw [← hc]; exact (congrArg Life.closed hl).symm
  rcases h.stage hc' with hi | hb
  · left
    refine ⟨by rw [hgen, hi.generation], by rw [hp hi.connected, hi.pending],
      by rw [hcon, hi.connected], ?_, ?_⟩
    · rw [← hi.scheduled]; exact congrArg Life.scheduled hl
    · rw [hl, hi.starts, hran]
  · right
    refine ⟨by rw [hgen]; exact hb.generation, by rw [hran, hb.ran], by rw [hl, hb.starts], ?_⟩
    rcases hb.stage with ⟨hs, hw⟩ | hs | hs
    · refine Or.inl ⟨by rw [hl]; exact hs, ?_⟩
      unfold current at hw ⊢
      rw [hp hs.connected, hgen]
      exact hw
    · exact Or.inr (Or.inl (by rw [hl]; exact hs))
    · exact Or.inr (Or.inr (by rw [hl]; exact hs))

/-! ### A teardown and a start -/

/-- A generation whose connect chain is not running and that has no reconnect scheduled: what a
handler finds after its completion was taken, and what it has to leave in one of the stages. -/
structure Stopped (w : World) : Prop where
  generation : 0 < w.generation
  ran : w.ran = true
  closed : w.userClosed = false
  starts : w.life.starts = 0
  scheduled : w.reconnectScheduled = false
  chain : w.life.chain = 0
  waits : w.life.waits = 0

theorem Stopped.of_life {w w' : World} (h : w.Stopped) (hl : w'.life = w.life) : w'.Stopped where
  generation := (congrArg Life.generation hl).trans_gt h.generation
  ran := (congrArg Life.ran hl).trans h.ran
  closed := (congrArg Life.closed hl).trans h.closed
  starts := (congrArg Life.starts hl).trans h.starts
  scheduled := (congrArg Life.scheduled hl).trans h.scheduled
  chain := (congrArg Life.chain hl).trans h.chain
  waits := (congrArg Life.waits hl).trans h.waits

theorem Stopped.teardown {w : World} (h : w.Stopped) : w.teardown.Begun := by
  have hl := life_teardown w
  refine ⟨h.generation, h.ran, by rw [hl]; exact h.starts, Or.inr (Or.inr ?_)⟩
  rw [hl]
  exact ⟨rfl, rfl, h.chain, by simp [Life.start, Life.cancel, h.waits],
    by simp [Life.start, Life.cancel, h.waits]⟩

theorem Stopped.handleError {w : World} (h : w.Stopped) : (w.handleError w.generation).Begun := by
  rw [handleError_current h.scheduled h.closed]
  exact h.teardown

/-- A new generation begins in the stage `Connecting`. -/
theorem Begun.startConnect {w : World} (hc : w.userClosed = false) (hr : w.ran = true)
    (hst : w.life.starts = 0)
    (hsch : w.reconnectScheduled = false) (ha : w.life.ahead = 0) : w.startConnect.Begun := by
  have hq := fun q => (current_start .resolve w.nextGeneration q).trans
    (congrArg (· + _) (current_nextGeneration ha q))
  rw [startConnect_open hc]
  refine ⟨Nat.succ_pos _, hr, hst, Or.inl ⟨⟨rfl, hsch, ?_, ?_, ?_, ?_⟩, ?_⟩⟩
  all_goals exact hq _

/-! ### What a handler finds -/

section Taken

variable {w : World} {p : Pending}

/-- Outside `Waiting`, taking a completion leaves the generation stopped once the chain has no
operation left. -/
theorem Begun.stopped_taken (h : w.Begun) (hc : w.userClosed = false) (hp : p ∈ w.pending)
    (hg : p.gen = w.generation) (hs : w.reconnectScheduled = false)
    (hch : w.life.chain = if p.kind.isChain then 1 else 0) (hw : w.life.waits = 0) : (w.taken p).Stopped where
  generation := h.generation
  ran := h.ran
  closed := hc
  starts := h.starts
  scheduled := hs
  chain := by rw [life_taken hp hg]; simp [Life.take, hch]
  waits := by rw [life_taken hp hg]; simp [Life.take, hw]

theorem Begun.connecting (h : w.Begun) (hp : p ∈ w.pending) (hg : p.gen = w.generation)
    (hk : p.kind.isChain = true) : w.life.Connecting ∧ (w.current fun p => p.kind = .write) = 0 := by
  have hpos : 0 < w.life.chain := current_pos hp hg (q := fun p => p.kind.isChain) hk
  rcases h.stage with hs | hs | hs
  · exact hs
  · have := hs.chain; omega
  · have := hs.chain; omega

theorem Begun.waiting (h : w.Begun) (hp : p ∈ w.pending) (hg : p.gen = w.generation)
    (hk : p.kind = .reconnectTimer) : w.life.Waiting := by
  have hpos : 0 < w.life.waits := current_pos hp hg (q := fun p => p.kind = .reconnectTimer) (by simp [hk])
  rcases h.stage with ⟨hs, -⟩ | hs | hs
  · have := hs.waits; omega
  · have := hs.waits; omega
  · exact hs

theorem Begun.live_or_waiting (h : w.Begun) (hp : p ∈ w.pending) (hg : p.gen = w.generation)
    (hk : p.kind = .read ∨ p.kind = .pingTimer ∨ p.kind = .write) : w.life.Live ∨ w.life.Waiting := by
  rcases h.stage with ⟨hs, hw⟩ | hs
  · exfalso
    rcases hk with hk | hk | hk
    · have := current_pos hp hg (q := fun p => p.kind = .read) (by simp [hk])
      exact absurd hs.reads (by simp only [life]; omega)
    · have := current_pos hp hg (q := fun p => p.kind = .pingTimer) (by simp [hk])
      exact absurd hs.pings (by simp only [life]; omega)
    · have := current_pos hp hg (q := fun p => p.kind = .write) (by simp [hk])
      omega
  · exact hs

/-- In the stage `Waiting` the completion of anything but the reconnect wait leaves the stage. -/
theorem waiting_taken (hs : w.life.Waiting) (hp : p ∈ w.pending) (hg : p.gen = w.generation)
    (hk : p.kind = .read ∨ p.kind = .pingTimer ∨ p.kind = .write) : (w.taken p).life.Waiting := by
  rw [life_taken hp hg]
  have hc : p.kind.isChain = false := by rcases hk with hk | hk | hk <;> simp [hk, Kind.isChain]
  have hr : p.kind ≠ .reconnectTimer := by rcases hk with hk | hk | hk <;> simp [hk]
  exact ⟨hs.connected, hs.scheduled, by simp [Life.take, hc, hs.chain], by simp [Life.take, hr, hs.waits],
    by simp [Life.take, hr, hs.deadWaits]⟩

end Taken

/-! ### What a handler leaves -/

section Left

variable {w w' : World}

/-- A session that is in a stage, seen from one whose life differs in the counts only. -/
theorem Stopped.begun (h : w.Stopped) (hg : w'.life.generation = w.life.generation)
    (hr : w'.life.ran = w.life.ran)
    (hs : w'.life.starts = w.life.starts) (hst : w'.life.Live ∨ w'.life.Waiting) : w'.Begun :=
  ⟨hg.trans_gt h.generation, hr.trans h.ran, hs.trans h.starts, Or.inr hst⟩

theorem Stopped.start_chain (h : w.Stopped) {k : Kind} (hk : k.isChain = true) (hc : w.connected = false)
    (hr : w.life.reads = 0) (hp : w.life.pings = 0) (hw : (w.current fun p => p.kind = .write) = 0) :
    (w.start k).Begun := by
  have ne : k ≠ .read ∧ k ≠ .pingTimer ∧ k ≠ .reconnectTimer ∧ k ≠ .write := by
    cases k <;> simp_all [Kind.isChain]
  refine ⟨h.generation, h.ran, h.starts, Or.inl ⟨?_, ?_⟩⟩
  · rw [life_start]
    exact ⟨hc, h.scheduled, by simp [Life.start, h.chain, hk], by simp [Life.start, hr, ne],
      by simp [Life.start, hp, ne], by simp [Life.start, h.waits, ne]⟩
  · rw [current_start, hw]
    simp [ne]

theorem Stopped.goUp (h : w.Stopped) (hr : w.life.reads = 0) (hp : w.life.pings = 0) (now : Clock) :
    (w.goUp now).world.life.Live := by
  rw [life_goUp now w]
  exact ⟨rfl, h.scheduled, by simp [Life.start, Life.cancel, h.chain, Kind.isChain],
    by simp [Life.start, Life.cancel, hr], by simp [Life.start, Life.cancel, hp],
    by simp [Life.start, Life.cancel, hp], by simp [Life.start, Life.cancel, h.waits]⟩

/-- The read is armed too, unless `goUp` threw. -/
theorem Stopped.onHandshake (h : w.Stopped) (hr : w.life.reads = 0) (hp : w.life.pings = 0) (now : Clock) :
    (w.onHandshake w.generation false now).world.Begun := by
  have hl := life_goUp now w
  have hup := h.goUp hr hp now
  have hno : (w.goUp now).world.life.reads = 0 := by
    rw [hl]
    simp [Life.start, Life.cancel, hr]
  unfold World.onHandshake
  rw [if_neg (by simp), if_neg (by simp [h.closed])]
  split
  · exact h.begun (by rw [hl]; rfl) (by rw [hl]; rfl) (by rw [hl]; rfl) (Or.inl hup)
  · refine h.begun (by rw [life_start, hl]; rfl) (by rw [life_start, hl]; rfl)
      (by rw [life_start, hl]; rfl) (Or.inl ?_)
    rw [life_start]
    exact ⟨hup.connected, hup.scheduled, hup.chain, by simp [Life.start, hno], hup.pings, hup.deadPings,
      hup.waits⟩

theorem Stopped.readAgain (h : w.Stopped) (hc : w.connected = true) (hr : w.life.reads = 0)
    (hp : w.life.pings = 1) (hd : w.life.deadPings = 0) : (w.readAgain w.generation).Begun := by
  have hl := life_readAgain hc h.scheduled
  refine h.begun (by rw [hl]; rfl) (by rw [hl]; rfl) (by rw [hl]; rfl) (Or.inl ?_)
  rw [hl]
  exact ⟨hc, h.scheduled, by simp [Life.start, h.chain, Kind.isChain], by simp [Life.start, hr],
    by simp [Life.start, hp], by simp [Life.start, hd], by simp [Life.start, h.waits]⟩

theorem Stopped.arm_ping (h : w.Stopped) (hc : w.connected = true) (hr : w.life.reads ≤ 1)
    (hp : w.life.pings = 0) : (w.arm .pingTimer).Begun := by
  have hl := life_arm .pingTimer w
  refine h.begun (by rw [hl]; rfl) (by rw [hl]; rfl) (by rw [hl]; rfl) (Or.inl ?_)
  rw [hl]
  exact ⟨hc, h.scheduled, by simp [Life.start, Life.cancel, h.chain, Kind.isChain],
    by simp [Life.start, Life.cancel, hr], by simp [Life.start, Life.cancel, hp],
    by simp [Life.start, Life.cancel, hp], by simp [Life.start, Life.cancel, h.waits]⟩

end Left

/-! ### The steps -/

section Steps

variable {w : World} {p : Pending} {r : Result}

theorem Begun.complete_chain (h : w.Begun) (hc : w.userClosed = false) (hp : p ∈ w.pending)
    (hg : p.gen = w.generation) (hk : p.kind.isChain = true) (now : Clock) :
    (completion p.kind p.gen r now (w.taken p)).Begun := by
  obtain ⟨hs, hw⟩ := h.connecting hp hg hk
  have hl := life_taken hp hg
  have hst : (w.taken p).Stopped :=
    h.stopped_taken hc hp hg hs.scheduled (by simp [hs.chain, hk]) hs.waits
  have hr : (w.taken p).life.reads = 0 := by rw [hl]; simp [Life.take, hs.reads]
  have hpi : (w.taken p).life.pings = 0 := by rw [hl]; simp [Life.take, hs.pings]
  have hw' : ((w.taken p).current fun p => p.kind = .write) = 0 := by rw [current_taken hp, hw]; simp
  have hg' : p.gen = (w.taken p).generation := hg
  have he := hst.handleError
  unfold completion
  cases hkind : p.kind <;> simp only [hkind, Kind.isChain, Bool.false_eq_true] at hk
  all_goals simp only [hg', ne_eq, not_true_eq_false, if_false]
  case resolve =>
    unfold onResolve
    split
    · exact he
    · exact hst.start_chain rfl hs.connected hr hpi hw'
  case connect =>
    unfold onConnect
    split
    · exact he
    · split
      · exact he
      · exact hst.start_chain rfl hs.connected hr hpi hw'
  case sslHandshake =>
    unfold onSSLHandshake
    split
    · exact he
    · exact Stopped.start_chain (w := (w.taken p).setControlCallback) (k := .handshake) (hst.of_life rfl) rfl
        hs.connected hr hpi hw'
  case handshake =>
    cases hec : r.ec with
    | true =>
      unfold onHandshake
      rw [if_pos rfl]
      exact he
    | false => exact hst.onHandshake hr hpi now

/-- A reconnect wait of a session that is not closed was not cancelled, so it does not fail. -/
theorem Begun.reconnect_done (h : w.Begun) (hp : p ∈ w.pending) (hf : r.fits p) (hg : p.gen = w.generation)
    (hk : p.kind = .reconnectTimer) : r.ec = false := by
  have hs := h.waiting hp hg hk
  have hd : p.cancelled = false := by
    by_contra hcan
    have hpos := current_pos hp hg (q := fun p => p.kind = .reconnectTimer && p.cancelled)
      (by simp [hk, Bool.eq_true_of_not_eq_false hcan])
    exact absurd hs.deadWaits (by simp only [life]; omega)
  cases r <;> simp_all [Result.fits, Result.ec, Kind.isTimer]

theorem Begun.complete_reconnectTimer (h : w.Begun) (hc : w.userClosed = false) (ha : w.life.ahead = 0)
    (hp : p ∈ w.pending) (hf : r.fits p) (hg : p.gen = w.generation) (hk : p.kind = .reconnectTimer)
    (now : Clock) : (completion p.kind p.gen r now (w.taken p)).Begun := by
  have hr := h.reconnect_done hp hf hg hk
  have hg' : p.gen = (w.taken p).generation := hg
  simp only [completion, hk, hg', ne_eq, not_true_eq_false, if_false, onReconnectTimer]
  rw [if_neg (by simp [hr, taken, hc])]
  exact Begun.startConnect (w := (w.taken p).unschedule) hc h.ran h.starts rfl (ahead_taken p ha)

theorem Begun.complete_read (h : w.Begun) (hc : w.userClosed = false) (hp : p ∈ w.pending)
    (hg : p.gen = w.generation) (hk : p.kind = .read) (now : Clock) :
    (completion p.kind p.gen r now (w.taken p)).Begun := by
  have hg' : p.gen = (w.taken p).generation := hg
  simp only [completion, hk, hg', ne_eq, not_true_eq_false, if_false]
  obtain ⟨w₁, hl₁, hcase⟩ := onRead_cases (w.taken p).generation r.ec r.json now (w.taken p)
  have hgen : (w.taken p).generation = w₁.generation := (congrArg Life.generation hl₁).symm
  rw [hgen] at hcase ⊢
  rcases h.live_or_waiting hp hg (Or.inl hk) with hs | hs
  · -- the read loop was running: it goes on, or the connection is torn down
    have hl := life_taken hp hg
    have hst : w₁.Stopped := (h.stopped_taken hc hp hg hs.scheduled (by simp [hs.chain, hk, Kind.isChain])
      hs.waits).of_life hl₁
    have hcon : w₁.connected = true := (congrArg Life.connected hl₁).trans hs.connected
    have hr : w₁.life.reads = 0 := by
      have hone := hs.reads
      rw [hl₁, hl]
      simp only [Life.take, hk, if_true]
      omega
    have hpi : w₁.life.pings = 1 := by rw [hl₁, hl]; simp [Life.take, hk, hs.pings]
    have hd : w₁.life.deadPings = 0 := by rw [hl₁, hl]; simp [Life.take, hs.deadPings]
    rcases hcase with he | he | he
    · rw [he]; exact hst.handleError
    · rw [he]; exact hst.readAgain hcon hr hpi hd
    · rw [he, readAgain_of_scheduled]
      · exact hst.handleError
      · rw [handleError_current hst.scheduled hst.closed]; rfl
  · -- the connection is torn down already: nothing is armed
    have hw₁ : w₁.life.Waiting := by rw [hl₁]; exact waiting_taken hs hp hg (Or.inl hk)
    have hsch : w₁.reconnectScheduled = true := hw₁.scheduled
    have hbeg : w₁.Begun := ⟨hgen ▸ h.generation, (congrArg Life.ran hl₁).trans h.ran,
      (congrArg Life.starts hl₁).trans h.starts, Or.inr (Or.inr hw₁)⟩
    have hne : w₁.handleError w₁.generation = w₁ := handleError_of_scheduled _ hsch
    rcases hcase with he | he | he
    · rw [he, hne]; exact hbeg
    · rw [he, readAgain_of_scheduled _ hsch]; exact hbeg
    · rw [he, hne, readAgain_of_scheduled _ hsch]; exact hbeg

theorem Begun.complete_pingTimer (h : w.Begun) (hc : w.userClosed = false) (hp : p ∈ w.pending)
    (hf : r.fits p) (hg : p.gen = w.generation) (hk : p.kind = .pingTimer) (now : Clock) :
    (completion p.kind p.gen r now (w.taken p)).Begun := by
  have hg' : p.gen = (w.taken p).generation := hg
  have hl := life_taken hp hg
  simp only [completion, hk, hg', onPingTimer, ne_eq, not_true_eq_false, decide_false, Bool.or_false]
  rcases h.live_or_waiting hp hg (Or.inr (Or.inl hk)) with hs | hs
  · have hst : (w.taken p).Stopped := h.stopped_taken hc hp hg hs.scheduled (by simp [hs.chain, hk, Kind.isChain])
      hs.waits
    have hr : (w.taken p).life.reads ≤ 1 := by rw [hl]; simpa [Life.take, hk] using hs.reads
    have hpi : (w.taken p).life.pings = 0 := by rw [hl]; simp [Life.take, hk, hs.pings]
    -- a live ping wait was not cancelled
    have hcan : p.cancelled = false := by
      by_contra hcan
      have hpos := current_pos hp hg (q := fun p => p.kind = .pingTimer && p.cancelled)
        (by simp [hk, Bool.eq_true_of_not_eq_false hcan])
      exact absurd hs.deadPings (by simp only [life]; omega)
    have hec : r.ec = false := by
      cases r <;> simp_all [Result.fits, Result.ec, Kind.isTimer]
    have hcon : (w.taken p).connected = true := hs.connected
    rw [if_neg (by simp [hec]), if_neg (by simp [hst.closed]), if_pos hcon]
    split
    · exact hst.handleError
    · split
      · exact hst.handleError
      · have hle : ((w.taken p).enqueueOp .ping).pump.life = (w.taken p).life := by rw [life_pump, life_enqueueOp]
        exact (hst.of_life hle).arm_ping ((congrArg Life.connected hle).trans hcon) (by rw [hle]; exact hr)
          (by rw [hle, hpi])
  · -- a wait that had expired when the connection was torn down arms another one
    have hw := waiting_taken hs hp hg (Or.inr (Or.inl hk))
    have hbeg : (w.taken p).Begun := ⟨h.generation, h.ran, h.starts, Or.inr (Or.inr hw)⟩
    split
    · exact hbeg
    · split
      · exact hbeg
      · rw [if_neg (by simp [show (w.taken p).connected = false from hw.connected])]
        refine ⟨h.generation, h.ran, h.starts, Or.inr (Or.inr ?_)⟩
        rw [life_arm]
        exact ⟨hw.connected, hw.scheduled, by simp [Life.start, Life.cancel, hw.chain, Kind.isChain],
          by simp [Life.start, Life.cancel, hw.waits], by simp [Life.start, Life.cancel, hw.deadWaits]⟩

theorem Begun.complete_write (h : w.Begun) (hc : w.userClosed = false) (hp : p ∈ w.pending)
    (hg : p.gen = w.generation) (hk : p.kind = .write) (now : Clock) :
    (completion p.kind p.gen r now (w.taken p)).Begun := by
  have hg' : p.gen = (w.taken p).generation := hg
  have hl := life_taken hp hg
  simp only [completion, hk, hg', ne_eq, not_true_eq_false, if_false, onWrite]
  have hsame : (w.taken p).writeDone.life = w.life := by
    rw [life_writeDone, hl]
    simp [Life.take, hk, Kind.isChain]
  rcases h.live_or_waiting hp hg (Or.inr (Or.inr hk)) with hs | hs
  · have hst : (w.taken p).writeDone.Stopped :=
      (h.stopped_taken hc hp hg hs.scheduled (by simp [hs.chain, hk, Kind.isChain]) hs.waits).of_life rfl
    split
    · exact hst.handleError
    · refine hst.begun (by rw [life_pump]) (by rw [life_pump]) (by rw [life_pump]) (Or.inl ?_)
      rw [life_pump, hsame]
      exact hs
  · have hbeg : (w.taken p).writeDone.Begun := ⟨h.generation, h.ran, h.starts, Or.inr (Or.inr (hsame ▸ hs))⟩
    have hsch : (w.taken p).writeDone.reconnectScheduled = true := hs.scheduled
    have hdown : (w.taken p).writeDone.connected = false := hs.connected
    split
    · rw [handleError_of_scheduled _ hsch]; exact hbeg
    · rw [pump_of_down hdown]; exact hbeg

theorem Loop.complete (h : w.Loop) (hp : p ∈ w.pending) (hf : r.fits p) (now : Clock) :
    (completion p.kind p.gen r now (w.taken p)).Loop := by
  have hn := near_completion p.kind p.gen r now (w.taken p)
  refine ⟨hn.ahead (ahead_taken p h.ahead), hn.matched h.matched, fun hc => ?_⟩
  have hc' : w.userClosed = false := hn.closed.symm.trans hc
  by_cases hg : p.gen = w.generation
  · right
    have hb : w.Begun := h.begun hc' hp
    cases hk : p.kind with
    | read => rw [← hk]; exact hb.complete_read hc' hp hg hk now
    | write => rw [← hk]; exact hb.complete_write hc' hp hg hk now
    | pingTimer => rw [← hk]; exact hb.complete_pingTimer hc' hp hf hg hk now
    | reconnectTimer => rw [← hk]; exact hb.complete_reconnectTimer hc' h.ahead hp hf hg hk now
    | close =>
      have hl := life_taken hp hg
      refine ⟨hb.generation, hb.ran, hb.starts, ?_⟩
      have hsame : (w.taken p).life = w.life := by rw [hl]; simp [Life.take, hk, Kind.isChain]
      have hw := current_taken hp (w := w) fun p => p.kind = .write
      simp only [hk, reduceCtorEq, decide_false, Bool.and_false, Bool.false_eq_true, if_false] at hw
      simp only [completion]
      rw [hsame, hw]
      exact hb.stage
    | resolve => rw [← hk]; exact hb.complete_chain hc' hp hg (by rw [hk]; rfl) now
    | connect => rw [← hk]; exact hb.complete_chain hc' hp hg (by rw [hk]; rfl) now
    | sslHandshake => rw [← hk]; exact hb.complete_chain hc' hp hg (by rw [hk]; rfl) now
    | handshake => rw [← hk]; exact hb.complete_chain hc' hp hg (by rw [hk]; rfl) now
  · -- a stale completion does nothing
    rw [completion_stale (show p.gen ≠ (w.taken p).generation from hg)]
    have hl := life_taken_stale hp hg h.ahead
    right
    have hb : w.Begun := h.begun hc' hp
    refine ⟨hb.generation, hb.ran, hb.starts, ?_⟩
    have hw := current_taken hp (w := w) fun p => p.kind = .write
    simp only [hg, decide_false, Bool.false_and, Bool.false_eq_true, if_false] at hw
    rw [hl, hw]
    exact hb.stage

theorem Loop.task {t : Task} (h : w.Loop) (ht : t ∈ w.tasks) : ((w.begin t).runTask t).world.Loop := by
  cases t with
  | flushTopics =>
    refine h.of_life (by rw [runTask, life_flushTopics, life_begin (by simp)]) fun hd => ?_
    rw [runTask, flushTopics_of_down (by exact hd)]; rfl
  | sendUnsubscribe topic =>
    refine h.of_life (by rw [runTask, life_sendUnsubscribe, life_begin (by simp)]) fun hd => ?_
    rw [runTask, sendUnsubscribe_of_down topic (by exact hd)]; rfl
  | closeByUser =>
    change (closeByUser _).Loop
    unfold closeByUser
    split
    · exact h.of_life (life_begin (by simp) w) fun _ => rfl
    · have hcl := closed_closeStream (w.begin .closeByUser)
      exact ⟨ahead_closeStream h.ahead, matched_closeStream h.matched, fun hc' => absurd hcl (by simp [hc'])⟩
  | startConnect =>
    have hn := near_startConnect (w.begin .startConnect)
    refine ⟨hn.ahead h.ahead, hn.matched h.matched, fun hc => ?_⟩
    have hc' : w.userClosed = false := hn.closed.symm.trans hc
    have hpos : 0 < w.tasks.count .startConnect := List.count_pos_iff.2 ht
    rcases h.stage hc' with hi | hb
    · have hstarts := hi.starts
      by_cases hran : w.ran = true
      · rw [if_pos hran] at hstarts
        have hone : (w.begin .startConnect).life.starts = 0 := by
          change (w.tasks.erase .startConnect).count .startConnect = 0
          rw [List.count_erase_self, show w.tasks.count .startConnect = 1 from hstarts]
        exact Or.inr (Begun.startConnect (w := w.begin .startConnect) hc' hran hone hi.scheduled h.ahead)
      · rw [if_neg hran] at hstarts
        exact absurd hstarts (Nat.ne_of_gt hpos)
    · exact absurd hb.starts (Nat.ne_of_gt hpos)

/-- **The loop invariant is kept by every step.** -/
theorem Loop.step {a : Action} {w' : World} (h : w.Loop) (hs : step w a = some w') : w'.Loop := by
  cases a with
  | run f =>
    obtain ⟨hran, -, rfl⟩ := step_run hs
    refine ⟨h.ahead, h.matched, fun hc => ?_⟩
    rcases h.stage hc with hi | hb
    · left
      have hstarts := hi.starts
      rw [if_neg (by simp [hran])] at hstarts
      refine ⟨hi.generation, hi.pending, hi.connected, hi.scheduled, ?_⟩
      have hcount : w.tasks.count .startConnect = 0 := hstarts
      simp [life, World.run, addTopic, post, log, List.count_append, hcount]
    · exact absurd hb.ran (by simp [hran])
  | subscribe topic =>
    obtain rfl := Option.some.inj hs
    exact h.of_life (life_post (by simp) (w.addTopic topic)) fun _ => rfl
  | unsubscribe topic =>
    obtain rfl := Option.some.inj hs
    unfold unsubscribe
    split
    · exact h.of_life (life_post (by simp) (w.removeTopic topic)) fun _ => rfl
    · exact h.of_life rfl fun _ => rfl
  | close =>
    obtain rfl := Option.some.inj hs
    exact h.of_life (life_post (by simp) w) fun _ => rfl
  | task t =>
    obtain ⟨ht, rfl⟩ := step_task hs
    exact h.task ht
  | complete p r now =>
    obtain ⟨hp, hf, rfl⟩ := step_complete hs
    exact h.complete hp hf now
  | control gen isPong now =>
    obtain ⟨-, rfl⟩ := step_control hs
    unfold controlCallback
    split
    · exact h.of_life rfl fun _ => rfl
    · exact h
  | streamCloses =>
    obtain rfl := Option.some.inj hs
    exact h.of_life (life_ws (gen_closed w.ws)) fun _ => rfl

end Steps

/-- A session that is connected, and not closed, is in the stage `Live`. -/
theorem Loop.live {w : World} (h : w.Loop) (hc : w.userClosed = false) (hcon : w.connected = true) :
    w.life.Live := by
  have down : w.life.connected = false → w.life.Live := by
    intro hd
    rw [show w.life.connected = w.connected from rfl, hcon] at hd
    cases hd
  rcases h.stage hc with hi | hb
  · exact down hi.connected
  · rcases hb.stage with ⟨hs, -⟩ | hs | hs
    · exact down hs.connected
    · exact hs
    · exact down hs.connected

theorem Loop.of_reach {apiKey apiSecret : String} {C : World → Action → Prop} {w : World}
    (h : (session apiKey apiSecret).Reach C w) : w.Loop :=
  h.invariant (I := Loop) (Loop.init apiKey apiSecret) fun _ _ _ _ _ hs hI => hI.step hs

end World

end BybitApi.Session
