import BybitApi.Client
import BybitApi.Lib.Within
import BybitApi.Session.Closing
import BybitApi.Session.Open

/-!
# The io thread of the client

`WebSocketClient::run` starts the thread that runs the io_context. Calls of it come from any number of threads,
and each holds `clientLocker` from its first line to its last, so that at most one is under way; the thread
itself takes no lock. The handlers of the session run in `ioContext.run()`, which returns once there is
nothing left to do.

Two things may go wrong here: a `std::thread` that is assigned while it is joinable ends the process, and
a call may return although no thread will run what was posted before it. The first never happens. The
second does not either where each call of `run` comes after a `subscribe`, as all calls in the library do, and
no callback of the user throws into a handler.

Left out: the destructor, so `ioContext.stop()` and the closing of the session.
-/

namespace BybitApi.Client

open Lib Session

/-- Where the io thread is. -/
inductive IoThread where
  /-- At the head of the loop, before `isRunning = true`. -/
  | enters
  /-- Before `if (ioContext.stopped())`. -/
  | restarts
  /-- In `ioContext.run()`. -/
  | runs
  /-- It has returned: before `isRunning = false` and `break`. -/
  | returned
  /-- Before `isRunning = false` behind the loop. -/
  | leaves
  /-- It has ended, and can be joined. -/
  | ended
  deriving DecidableEq

/-- It has not set `isRunning` to false. -/
def IoThread.serves : IoThread → Bool
  | enters | restarts | runs | returned => true
  | leaves | ended => false

/-- Where the call of `run` is that holds `clientLocker`. -/
inductive RunCall where
  /-- Before `if (isRunning)`. -/
  | asks
  /-- Before `isRunning = true`. -/
  | claims
  /-- Before `if (ioThread.joinable())`, or in `join`. -/
  | joins
  /-- Before `ioThread = std::thread(..)`. -/
  | starts
  deriving DecidableEq

/-- A client with its io thread. -/
structure Threads where
  client : Client
  /-- The owner of `clientLocker`. The other calls under it are one step each. -/
  locker : Option RunCall
  isRunning : Bool
  /-- `none` where it is not joinable. -/
  ioThread : Option IoThread
  /-- `ioContext.stopped()` -/
  stopped : Bool
  /-- A joinable thread was assigned, and `std::terminate` was called. -/
  terminated : Bool
  /-- History: the threads that were started. -/
  started : ℕ
  /-- History: where the io thread was when a call of `run` returned, latest first. -/
  returns : List (Option IoThread)

inductive Act where
  | subscribe (subscriptionFilter : Topic)
  | unsubscribe (subscriptionFilter : Topic)
  /-- A call of `run` enters `clientLocker`. -/
  | run
  /-- It goes on. -/
  | call
  /-- The io thread goes on. -/
  | thread
  /-- It runs a handler. Where that throws a `std::exception`, the loop catches it. -/
  | handler (a : Action)
  /-- The handler throws out of a callback, and leaves the session in any state. -/
  | throws (a : Action) (left : World)

/-- What the io_context runs. -/
def onStrand : Action → Bool
  | .task _ | .complete _ _ _ | .control _ _ _ | .streamCloses => true
  | _ => false

namespace Threads

/-- No task and no operation is left. -/
def outOfWork (s : Threads) : Bool :=
  s.client.session.all fun w => w.tasks.isEmpty && w.pending.isEmpty

/-- A call of `run` returns. -/
def release (s : Threads) : Threads := { s with locker := none, returns := s.ioThread :: s.returns }

/-- `run`, to its next access to what the threads share. -/
def call (s : Threads) : Option Threads :=
  match s.locker with
  | none => none
  | some .asks => some (if s.isRunning then s.release else { s with locker := some .claims })
  | some .claims => some { s with isRunning := true, locker := some .joins }
  | some .joins =>
    match s.ioThread with
    | none => some { s with locker := some .starts }
    | some .ended => some { s with ioThread := none, locker := some .starts }
    | some _ => none
  | some .starts =>
    if s.ioThread.isSome then some { s with terminated := true }
    else some { s with ioThread := some .enters, started := s.started + 1 }.release

/-- The io thread, to its next access to what the threads share. -/
def thread (s : Threads) : Option Threads :=
  match s.ioThread with
  | none => none
  | some .enters => some { s with isRunning := true, ioThread := some .restarts }
  | some .restarts => some { s with stopped := false, ioThread := some .runs }
  | some .runs =>
    if s.stopped || s.outOfWork then some { s with stopped := true, ioThread := some .returned } else none
  | some .returned => some { s with isRunning := false, ioThread := some .leaves }
  | some .leaves => some { s with isRunning := false, ioThread := some .ended }
  | some .ended => none

def step (s : Threads) : Act → Option Threads
  | .subscribe f => if s.locker = none then some { s with client := (s.client.subscribe f).1 } else none
  | .unsubscribe f => if s.locker = none then some { s with client := s.client.unsubscribe f } else none
  | .run => if s.locker = none then some { s with locker := some .asks } else none
  | .call => s.call
  | .thread => s.thread
  | .handler a =>
    if s.ioThread = some .runs ∧ onStrand a = true then
      s.client.session.bind fun w => (Session.step w a).map fun w' =>
        { s with
          client := { s.client with session := some w' }
          ioThread := some (if w.throws a then .enters else .runs) }
    else none
  | .throws a left =>
    if s.ioThread = some .runs ∧ onStrand a = true ∧ (s.client.session.bind fun w => Session.step w a).isSome then
      some { s with client := { s.client with session := some left }, ioThread := some .enters }
    else none

end Threads

/-- A client before its first call. -/
def threads (apiKey apiSecret : String) : System Threads Act :=
  ⟨⟨init apiKey apiSecret, none, false, none, false, false, 0, []⟩, Threads.step⟩

namespace Threads

variable {apiKey apiSecret : String} {s s' : Threads} {a : Act}

/-- What a handler leads to. -/
theorem step_handler {a : Action} (hs : s.step (.handler a) = some s') :
    ∃ w w', s.ioThread = some .runs ∧ onStrand a = true ∧ s.client.session = some w ∧ Session.step w a = some w' ∧
      s' = { s with
        client := { s.client with session := some w' }
        ioThread := some (if w.throws a then .enters else .runs) } := by
  dsimp only [Threads.step] at hs
  split at hs
  next hon =>
    obtain ⟨w, hw, hw'⟩ := Option.bind_eq_some_iff.1 hs
    obtain ⟨w', hstep, rfl⟩ := Option.map_eq_some_iff.1 hw'
    exact ⟨w, w', hon.1, hon.2, hw, hstep, rfl⟩
  · cases hs

/-! ## For any use of the client -/

/-- What the threads keep to, however the client is used. -/
structure Safe (s : Threads) : Prop where
  alive : s.terminated = false
  starts : s.locker = some .starts → s.ioThread = none
  /-- The flag is set for a thread that serves, or by a call that is about to start one. -/
  flag : s.isRunning = true → (∃ t, s.ioThread = some t ∧ t.serves = true) ∨ s.locker = some .joins ∨
    s.locker = some .starts
  returns : ∀ left ∈ s.returns, ∃ t, left = some t ∧ t.serves = true

theorem Safe.call (h : s.Safe) (hs : s.call = some s') : s'.Safe := by
  unfold Threads.call at hs
  split at hs
  · cases hs
  next hlocker =>
    obtain rfl := Option.some.inj hs
    split
    next hrunning =>
      obtain hserves | hlock | hlock := h.flag hrunning
      · refine ⟨h.alive, nofun, fun _ => Or.inl hserves, ?_⟩
        exact List.forall_mem_cons.2 ⟨hserves, h.returns⟩
      · cases hlocker.symm.trans hlock
      · cases hlocker.symm.trans hlock
    next hrunning => exact ⟨h.alive, nofun, fun hset => absurd hset hrunning, h.returns⟩
  next => cases hs; exact ⟨h.alive, nofun, fun _ => Or.inr (Or.inl rfl), h.returns⟩
  next =>
    split at hs
    next hthread =>
      cases hs
      exact ⟨h.alive, fun _ => hthread, fun _ => Or.inr (Or.inr rfl), h.returns⟩
    next => cases hs; exact ⟨h.alive, fun _ => rfl, fun _ => Or.inr (Or.inr rfl), h.returns⟩
    next => cases hs
  next hlocker =>
    rw [h.starts hlocker] at hs
    cases hs
    refine ⟨h.alive, nofun, fun _ => Or.inl ⟨.enters, rfl, rfl⟩, ?_⟩
    exact List.forall_mem_cons.2 ⟨⟨.enters, rfl, rfl⟩, h.returns⟩

theorem Safe.thread (h : s.Safe) (hs : s.thread = some s') : s'.Safe := by
  -- a call that is about to start a thread has joined this one
  have hjoined : s.ioThread ≠ none → s.locker ≠ some .starts := fun hthread hlock => hthread (h.starts hlock)
  unfold Threads.thread at hs
  split at hs
  · cases hs
  next hthread =>
    cases hs
    exact ⟨h.alive, fun hlock => absurd hlock (hjoined (by simp [hthread])), fun _ => Or.inl ⟨.restarts, rfl, rfl⟩,
      h.returns⟩
  next hthread =>
    cases hs
    exact ⟨h.alive, fun hlock => absurd hlock (hjoined (by simp [hthread])), fun _ => Or.inl ⟨.runs, rfl, rfl⟩,
      h.returns⟩
  next hthread =>
    split at hs <;> cases hs
    exact ⟨h.alive, fun hlock => absurd hlock (hjoined (by simp [hthread])), fun _ => Or.inl ⟨.returned, rfl, rfl⟩,
      h.returns⟩
  next hthread =>
    cases hs
    exact ⟨h.alive, fun hlock => absurd hlock (hjoined (by simp [hthread])), nofun, h.returns⟩
  next hthread =>
    cases hs
    exact ⟨h.alive, fun hlock => absurd hlock (hjoined (by simp [hthread])), nofun, h.returns⟩
  next => cases hs

theorem Safe.step (h : s.Safe) (hs : s.step a = some s') : s'.Safe := by
  cases a with
  | subscribe f =>
    dsimp only [Threads.step] at hs
    split at hs <;> cases hs
    exact ⟨h.alive, h.starts, h.flag, h.returns⟩
  | unsubscribe f =>
    dsimp only [Threads.step] at hs
    split at hs <;> cases hs
    exact ⟨h.alive, h.starts, h.flag, h.returns⟩
  | run =>
    dsimp only [Threads.step] at hs
    split at hs <;> cases hs
    next hlocker =>
      refine ⟨h.alive, nofun, fun hset => Or.inl ?_, h.returns⟩
      obtain hserves | hlock | hlock := h.flag hset
      · exact hserves
      · cases hlocker.symm.trans hlock
      · cases hlocker.symm.trans hlock
  | call => exact h.call hs
  | thread => exact h.thread hs
  | handler a =>
    obtain ⟨w, w', hthread, -, -, -, rfl⟩ := step_handler hs
    refine ⟨h.alive, fun hlock => ?_, fun _ => Or.inl ⟨_, rfl, ?_⟩, h.returns⟩
    · cases hthread.symm.trans (h.starts hlock)
    · split <;> rfl
  | throws a left =>
    dsimp only [Threads.step] at hs
    split at hs <;> cases hs
    next hran =>
      refine ⟨h.alive, fun hlock => ?_, fun _ => Or.inl ⟨.enters, rfl, rfl⟩, h.returns⟩
      cases hran.1.symm.trans (h.starts hlock)

theorem Safe.of_reach {C : Threads → Act → Prop} (h : (threads apiKey apiSecret).Reach C s) : s.Safe := by
  apply System.Reach.invariant (I := Safe) _ _ h
  · exact ⟨rfl, nofun, nofun, fun left hleft => by cases hleft⟩
  · intro s a s' _ _ hs hI
    exact hI.step hs

/-- **However the client is used**, by any number of threads, with an io_context that runs out of work and handlers
that throw at any time, whatever they leave behind: no thread is assigned over one that is joinable, and every
call of `run` that returned left behind an io thread that had not set `isRunning` to false. -/
theorem io_thread_safe (apiKey apiSecret : String) (s : Threads)
    (h : (threads apiKey apiSecret).Reach System.Free s) :
    s.terminated = false ∧ ∀ left ∈ s.returns, ∃ t, left = some t ∧ t.serves = true := by
  have hsafe := Safe.of_reach h
  exact ⟨hsafe.alive, hsafe.returns⟩

/-- The first call of `run`, up to its return. -/
def firstRun : List Act := [.run, .call, .call, .call, .call]

/-- The io_context has nothing to do, the thread ends, and a second call of `run` joins it and starts another. -/
theorem io_thread_safe_twice : ∃ s : Threads, s.started = 2 ∧ s.returns.length = 2 ∧ s.terminated = false ∧
    ∀ left ∈ s.returns, ∃ t, left = some t ∧ t.serves = true := by
  obtain ⟨s, hs, hstarted, hreturned⟩ := System.Reach.exists_of_exec (S := threads "" "") (C := System.Free)
    (l := firstRun ++ List.replicate 5 .thread ++ firstRun)
    (P := fun s => s.started = 2 ∧ s.returns.length = 2) (by decide +kernel)
  exact ⟨s, hstarted, hreturned, io_thread_safe "" "" s hs⟩

/-! ## Where a call of `subscribe` comes first -/

/-- A `subscribe` has run the session. -/
def hasRun (s : Threads) : Bool := s.client.session.any World.ran

/-- Each call of `run` comes after a `subscribe`, and no callback throws into a handler. -/
def AfterSubscribe (s : Threads) : Act → Prop
  | .run => s.hasRun = true
  | .throws _ _ => False
  | _ => True

instance (s : Threads) (a : Act) : Decidable (s.AfterSubscribe a) := by
  cases a <;> unfold AfterSubscribe <;> infer_instance

/-- The client's session stays open, and it has run where `run` was called. -/
structure Alive (s : Threads) : Prop where
  opened : ∀ w, s.client.session = some w → w.Open
  ran : s.locker ≠ none ∨ s.ioThread ≠ none → s.hasRun = true

theorem Alive.has_work (h : s.Alive) (hthread : s.ioThread ≠ none) :
    ∃ w, s.client.session = some w ∧ (w.tasks ≠ [] ∨ w.pending ≠ []) := by
  have hran := h.ran (Or.inr hthread)
  unfold hasRun at hran
  rw [Option.any_eq_true] at hran
  obtain ⟨w, hw, hran⟩ := hran
  exact ⟨w, hw, (h.opened w hw).has_work hran⟩

/-- The one io thread, and the call that starts it. -/
structure Served (s : Threads) : Prop where
  alive : s.Alive
  loops : ∀ t, s.ioThread = some t → t = .enters ∨ t = .restarts ∨ t = .runs
  set : s.ioThread ≠ none ∨ s.locker = some .joins ∨ s.locker = some .starts → s.isRunning = true
  first : ∀ c, s.locker = some c → c ≠ .asks → s.ioThread = none
  stopped : s.stopped = false
  once : s.started = if s.ioThread = none then 0 else 1
  returns : s.returns ≠ [] → s.ioThread ≠ none

theorem Served.call (h : s.Served) (hsafe : s.Safe) (hs : s.call = some s') : s'.Served := by
  have hran : ∀ c, s.locker = some c → s.hasRun = true := fun c hlocker => h.alive.ran (Or.inl (by simp [hlocker]))
  unfold Threads.call at hs
  split at hs
  · cases hs
  next hlocker =>
    obtain rfl := Option.some.inj hs
    have hran := hran _ hlocker
    split
    next hrunning =>
      have hthread : s.ioThread ≠ none := by
        obtain ⟨t, ht, -⟩ | hlock | hlock := hsafe.flag hrunning
        · simp [ht]
        · cases hlocker.symm.trans hlock
        · cases hlocker.symm.trans hlock
      exact ⟨⟨h.alive.opened, fun _ => hran⟩, h.loops, fun _ => hrunning, nofun, h.stopped, h.once, fun _ => hthread⟩
    next hrunning =>
      have hthread : s.ioThread = none := by
        by_contra hthread
        exact hrunning (h.set (Or.inl hthread))
      refine ⟨⟨h.alive.opened, fun _ => hran⟩, h.loops, ?_, fun _ _ _ => hthread, h.stopped, h.once, h.returns⟩
      rintro (hne | hlock | hlock)
      · exact absurd hthread hne
      · cases hlock
      · cases hlock
  next hlocker =>
    have hthread := h.first .claims hlocker nofun
    cases hs
    exact ⟨⟨h.alive.opened, fun _ => hran _ hlocker⟩, h.loops, fun _ => rfl, fun _ _ _ => hthread, h.stopped,
      h.once, h.returns⟩
  next hlocker =>
    have hthread := h.first .joins hlocker nofun
    have hset := h.set (Or.inr (Or.inl hlocker))
    split at hs
    next => cases hs; exact ⟨⟨h.alive.opened, fun _ => hran _ hlocker⟩, h.loops, fun _ => hset, fun _ _ _ => hthread,
      h.stopped, h.once, h.returns⟩
    next hended => cases hthread.symm.trans hended
    next => cases hs
  next hlocker =>
    have hthread := h.first .starts hlocker nofun
    have hset := h.set (Or.inr (Or.inr hlocker))
    have hnever : s.started = 0 := by rw [h.once, if_pos hthread]
    rw [hthread] at hs
    cases hs
    refine ⟨⟨h.alive.opened, fun _ => hran _ hlocker⟩, ?_, fun _ => hset, nofun, h.stopped, ?_, fun _ => nofun⟩
    · rintro t ⟨⟩
      exact Or.inl rfl
    · exact congrArg (· + 1) hnever

/-- The io thread stays in its loop: there is always something left to do. -/
theorem Served.thread (h : s.Served) (hs : s.thread = some s') : s'.Served := by
  have hrest : ∀ t, s.ioThread = some t → s.hasRun = true ∧ s.isRunning = true ∧ s.started = 1 ∧
      ∀ c, s.locker = some c → c = .asks := by
    intro t ht
    have hne : s.ioThread ≠ none := by simp [ht]
    refine ⟨h.alive.ran (Or.inr hne), h.set (Or.inl hne), by rw [h.once, if_neg hne], fun c hlocker => ?_⟩
    by_contra hc
    exact hne (h.first c hlocker hc)
  unfold Threads.thread at hs
  split at hs
  · cases hs
  next ht =>
    obtain ⟨hran, hset, honce, hasks⟩ := hrest _ ht
    cases hs
    refine ⟨⟨h.alive.opened, fun _ => hran⟩, ?_, fun _ => rfl, ?_, h.stopped, honce, fun _ => nofun⟩
    · rintro t ⟨⟩
      exact Or.inr (Or.inl rfl)
    · intro c hlocker hc
      exact absurd (hasks c hlocker) hc
  next ht =>
    obtain ⟨hran, hset, honce, hasks⟩ := hrest _ ht
    cases hs
    refine ⟨⟨h.alive.opened, fun _ => hran⟩, ?_, fun _ => hset, ?_, rfl, honce, fun _ => nofun⟩
    · rintro t ⟨⟩
      exact Or.inr (Or.inr rfl)
    · intro c hlocker hc
      exact absurd (hasks c hlocker) hc
  next ht =>
    obtain ⟨w, hw, hwork⟩ := h.alive.has_work (by simp [ht])
    have hbusy : (s.stopped || s.outOfWork) = false := by
      rw [h.stopped, Bool.false_or, outOfWork, hw, Option.all_some]
      rcases hwork with hwork | hwork <;> simp [hwork]
    rw [hbusy] at hs
    cases hs
  next ht => exact absurd (h.loops _ ht) (by decide)
  next ht => exact absurd (h.loops _ ht) (by decide)
  next => cases hs

/-! ### The session under the client -/

/-- What a call or a handler leaves of the session. -/
theorem Alive.session {client : Client} (h : s.Alive) (hopen : ∀ w, client.session = some w → w.Open)
    (hran : s.hasRun = true → client.session.any World.ran = true) : ({ s with client := client } : Threads).Alive :=
  ⟨hopen, fun hrest => hran (h.ran hrest)⟩

theorem Alive.subscribe (h : s.Alive) (f : Topic) :
    ({ s with client := (s.client.subscribe f).1 } : Threads).Alive := by
  unfold Client.subscribe
  cases hsession : s.client.session with
  | some w =>
    obtain ⟨hopen, hran⟩ := (h.opened w hsession).step (a := .subscribe f) rfl (by simp)
    refine h.session (fun w' hw' => ?_) fun hrun => ?_
    · cases hw'
      exact hopen
    · unfold hasRun at hrun
      rw [hsession] at hrun
      exact hran hrun
  | none =>
    have hnew : s.client.newSession.Open ∧ s.client.newSession.ran = false := by
      unfold newSession
      split <;> exact ⟨.init _ _, rfl⟩
    have hnever : s.hasRun = true → False := by
      intro hrun
      unfold hasRun at hrun
      rw [hsession] at hrun
      cases hrun
    dsimp only
    split
    · refine h.session (fun w' hw' => ?_) fun hrun => (hnever hrun).elim
      cases hw'
      exact hnew.1
    next hf =>
      refine h.session (fun w' hw' => ?_) fun hrun => (hnever hrun).elim
      cases hw'
      have hstep : Session.step s.client.newSession (.run f) = some (s.client.newSession.run f) := by
        rw [Session.step, if_neg (by simp [hnew.2, hf])]
      exact (hnew.1.step hstep (by simp)).1

theorem Alive.unsubscribe (h : s.Alive) (f : Topic) :
    ({ s with client := s.client.unsubscribe f } : Threads).Alive := by
  refine h.session (fun w' hw' => ?_) fun hrun => ?_
  · obtain ⟨w, hw, rfl⟩ := Option.map_eq_some_iff.1 hw'
    exact ((h.opened w hw).step (a := .unsubscribe f) rfl (by simp)).1
  · unfold hasRun at hrun
    obtain ⟨w, hw, hran⟩ := (Option.any_eq_true _ _).1 hrun
    apply (Option.any_eq_true _ _).2
    refine ⟨w.unsubscribe f, Option.map_eq_some_iff.2 ⟨w, hw, rfl⟩, ?_⟩
    exact ((h.opened w hw).step (a := .unsubscribe f) rfl (by simp)).2 hran

theorem Alive.handler (h : s.Alive) {a : Action} (ha : onStrand a = true) {w w' : World}
    (hw : s.client.session = some w) (hs : Session.step w a = some w') :
    ({ s with client := { s.client with session := some w' } } : Threads).Alive := by
  have hclose : a ≠ .close := by
    rintro rfl
    cases ha
  obtain ⟨hopen, hran⟩ := (h.opened w hw).step hs hclose
  refine h.session (fun w'' hw'' => ?_) fun hrun => ?_
  · cases hw''
    exact hopen
  · unfold hasRun at hrun
    rw [hw] at hrun
    exact hran hrun

theorem Served.of_alive {client : Client} (h : s.Served) (halive : ({ s with client := client } : Threads).Alive) :
    ({ s with client := client } : Threads).Served :=
  ⟨halive, h.loops, h.set, h.first, h.stopped, h.once, h.returns⟩

theorem Served.step (h : s.Served) (hsafe : s.Safe) (hC : s.AfterSubscribe a) (hs : s.step a = some s') :
    s'.Served := by
  cases a with
  | subscribe f =>
    dsimp only [Threads.step] at hs
    split at hs <;> cases hs
    exact h.of_alive (h.alive.subscribe f)
  | unsubscribe f =>
    dsimp only [Threads.step] at hs
    split at hs <;> cases hs
    exact h.of_alive (h.alive.unsubscribe f)
  | run =>
    dsimp only [Threads.step] at hs
    split at hs <;> cases hs
    next hlocker =>
      have hset : s.ioThread ≠ none → s.isRunning = true := fun hthread => h.set (Or.inl hthread)
      refine ⟨⟨h.alive.opened, fun _ => hC⟩, h.loops, ?_, ?_, h.stopped, h.once, h.returns⟩
      · rintro (hthread | hlock | hlock)
        · exact hset hthread
        · cases hlock
        · cases hlock
      · rintro c ⟨⟩ hc
        exact absurd rfl hc
  | call => exact h.call hsafe hs
  | thread => exact h.thread hs
  | handler a =>
    obtain ⟨w, w', hthread, hon, hw, hstep, rfl⟩ := step_handler hs
    have hne : s.ioThread ≠ none := by simp [hthread]
    have halive := h.alive.handler hon hw hstep
    refine ⟨⟨halive.opened, fun _ => halive.ran (Or.inr hne)⟩, ?_, fun _ => h.set (Or.inl hne), ?_, h.stopped, ?_,
      fun _ => nofun⟩
    · rintro t ⟨⟩
      split
      · exact Or.inl rfl
      · exact Or.inr (Or.inr rfl)
    · intro c hlocker hc
      exact absurd (h.first c hlocker hc) hne
    · exact h.once.trans (if_neg hne)
  | throws a left => exact hC.elim

theorem Served.init (apiKey apiSecret : String) : (threads apiKey apiSecret).init.Served := by
  have hfresh : ∀ {P : Prop}, (none : Option RunCall) ≠ none ∨ (none : Option IoThread) ≠ none → P := by
    rintro P (hne | hne) <;> exact absurd rfl hne
  have hnone : ∀ w, (Client.init apiKey apiSecret).session = some w → w.Open := by
    intro w hw
    cases hw
  refine ⟨⟨hnone, hfresh⟩, ?_, ?_, ?_, rfl, rfl, fun hne => absurd rfl hne⟩
  · intro t ht
    cases ht
  · rintro (hne | hlock | hlock)
    · exact absurd rfl hne
    · cases hlock
    · cases hlock
  · intro c hlocker
    cases hlocker

theorem Served.of_reach (h : (threads apiKey apiSecret).Reach AfterSubscribe s) : s.Served := by
  apply h.invariant (Served.init apiKey apiSecret)
  intro s a s' hreach hC hs hI
  exact hI.step (Safe.of_reach hreach) hC hs

/-- The io thread gets to its `ioContext.run()`. -/
theorem Served.enters (h : s.Served) (apiKey apiSecret : String) (hne : s.ioThread ≠ none) :
    ∃ s', (threads apiKey apiSecret).Within (fun _ a => a = .thread) 2 s s' ∧ s'.client = s.client ∧
      s'.ioThread = some .runs := by
  have hfirst : ∀ {s s₁ : Threads}, s.thread = some s₁ →
      (threads apiKey apiSecret).Within (fun _ a => a = .thread) 1 s s₁ := fun hs => .one .thread rfl hs
  obtain ⟨t, ht⟩ := Option.ne_none_iff_exists'.1 hne
  have hrestarts : ∀ s : Threads, s.ioThread = some .restarts → ∃ s',
      (threads apiKey apiSecret).Within (fun _ a => a = .thread) 1 s s' ∧ s'.client = s.client ∧
        s'.ioThread = some .runs := by
    intro s ht
    have hs : s.thread = some { s with stopped := false, ioThread := some .runs } := by
      unfold Threads.thread
      rw [ht]
    exact ⟨_, hfirst hs, rfl, rfl⟩
  obtain rfl | rfl | rfl := h.loops t ht
  · have hs : s.thread = some { s with isRunning := true, ioThread := some .restarts } := by
      unfold Threads.thread
      rw [ht]
    obtain ⟨s', hwithin, hclient, hruns⟩ := hrestarts { s with isRunning := true, ioThread := some .restarts } rfl
    exact ⟨s', (hfirst hs).trans hwithin, hclient, hruns⟩
  · obtain ⟨s', hwithin, hclient, hruns⟩ := hrestarts s ht
    exact ⟨s', hwithin.le (by decide), hclient, hruns⟩
  · exact ⟨s, .here 2 s, rfl, ht⟩

/-- **Where `subscribe` comes first** and no callback throws, one io thread is started and no call ever waits for
it, and it stays with the session until that is closed, a topic that is no UTF-8 or not: at any time after a call of
`run` returned, two steps of the thread at most bring it to where it can run a handler, whatever the peer does, and
there is one. -/
theorem session_served (apiKey apiSecret : String) (s : Threads)
    (h : (threads apiKey apiSecret).Reach AfterSubscribe s) :
    s.started ≤ 1 ∧ (s.locker = some .joins → s.ioThread = none) ∧
      (s.returns ≠ [] → ∃ s', (threads apiKey apiSecret).Within (fun _ a => a = .thread) 2 s s' ∧
        s'.client = s.client ∧ ∃ a s'', a.brings = 0 ∧ s'.step (.handler a) = some s'') := by
  have hserved := Served.of_reach h
  refine ⟨?_, fun hlocker => hserved.first _ hlocker nofun, fun hreturned => ?_⟩
  · rw [hserved.once]
    split <;> decide
  · have hthread := hserved.returns hreturned
    obtain ⟨s', hwithin, hclient, hruns⟩ := hserved.enters apiKey apiSecret hthread
    obtain ⟨w, hw, hwork⟩ := hserved.alive.has_work hthread
    obtain ⟨htasks, hpending⟩ | ⟨a, w', hran, hbrings, hstep⟩ := w.runs_on
    · rcases hwork with hne | hne
      · exact absurd htasks hne
      · exact absurd hpending hne
    · have hon : onStrand a = true := by
        cases a <;> first | rfl | cases hran
      have hs : s'.step (.handler a) = some
          { s' with
            client := { s'.client with session := some w' }
            ioThread := some (if w.throws a then .enters else .runs) } := by
        dsimp only [Threads.step]
        rw [if_pos ⟨hruns, hon⟩, hclient, hw, Option.bind_some, hstep, Option.map_some]
      exact ⟨s', hwithin, hclient, a, _, hbrings, hs⟩

/-- Two threads, each of which subscribes and then calls `run`. -/
theorem session_served_two : ∃ s : Threads, s.returns.length = 2 ∧ s.started ≤ 1 ∧
    ∃ s' : Threads, s'.client = s.client ∧ ∃ a s'', a.brings = 0 ∧ s'.step (.handler a) = some s'' := by
  obtain ⟨s, hs, hreturned⟩ := System.Reach.exists_of_exec (S := threads "" "") (C := AfterSubscribe)
    (l := .subscribe "tickers.BTCUSDT" :: firstRun ++ [.thread, .subscribe "tickers.ETHUSDT", .run, .call])
    (P := fun s => s.returns.length = 2) (by decide +kernel)
  obtain ⟨hstarted, -, hserved⟩ := session_served "" "" s hs
  obtain ⟨s', -, hclient, hhandler⟩ := hserved (by rintro hnone; rw [hnone] at hreturned; cases hreturned)
  exact ⟨s, hreturned, hstarted, s', hclient, hhandler⟩

/-- Where `run` comes first, the thread may be about to leave when the session is made, and `run` sees the flag that it
has not reset yet: the session is served by nobody. -/
theorem unserved : ∃ s, (threads "" "").Reach System.Free s ∧ s.returns.length = 2 ∧ s.locker = none ∧
    s.ioThread = some .ended ∧ s.outOfWork = false :=
  System.Reach.exists_of_exec (S := threads "" "") (C := System.Free)
    (l := firstRun ++ [.thread, .thread, .thread, .subscribe "tickers.BTCUSDT", .run, .call, .thread, .thread])
    (P := fun s => s.returns.length = 2 ∧ s.locker = none ∧ s.ioThread = some .ended ∧ s.outOfWork = false)
    (by decide +kernel)

end Threads

end BybitApi.Client
