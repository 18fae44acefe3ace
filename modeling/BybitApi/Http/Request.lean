import BybitApi.Lib.Within
import BybitApi.Rest.Response

/-!
# One request

`HTTPSession::P::request`: it resolves the host, connects, shakes hands, writes, reads until the response
is complete, and closes. Each of these is an asynchronous operation that `runTimedOperation` runs against
a timer, and either handler may come first. The model is the event loop: the timer expires, the operation
completes, the handlers run in any order, and the loop returns when none is left.
-/

namespace BybitApi.Http

open Lib Rest

/-- A `boost::system::error_code`: the text of the error, and `none` for success. -/
abbrev ErrorCode := Option String

inductive Timer where
  | armed
  /-- Its handler is queued, without an error. -/
  | expired
  /-- Its handler is queued with `operation_aborted`. -/
  | cancelled
  | done
  deriving DecidableEq

inductive Operation where
  | running
  /-- Its handler is queued. -/
  | completed (ec : ErrorCode)
  | done
  deriving DecidableEq

inductive Handler where
  | timer | operation
  deriving DecidableEq

/-- The variables of `runTimedOperation`. -/
structure Timed where
  timer : Timer := .armed
  operation : Operation := .running
  operationError : ErrorCode := some "Operation canceled"
  finished : Bool := false
  timedOut : Bool := false
  /-- History: the handlers that ran, latest first. -/
  handlers : List Handler := []
  deriving DecidableEq

namespace Timed

/-- An expired timer cancels the operation, whose handler still runs. -/
def runTimer (t : Timed) : Option Timed :=
  match t.timer with
  | .expired => some { t with timer := .done, timedOut := t.timedOut || !t.finished, handlers := .timer :: t.handlers }
  | .cancelled => some { t with timer := .done, handlers := .timer :: t.handlers }
  | _ => none

/-- A timer whose handler is queued is not cancelled any more. -/
def runOperation (t : Timed) : Option Timed :=
  match t.operation with
  | .completed ec => some { t with
      operation := .done
      operationError := ec
      finished := true
      timer := if t.timer = .armed then .cancelled else t.timer
      handlers := .operation :: t.handlers }
  | _ => none

/-- No handler is left, and `ioc.run()` returns. -/
def isDone (t : Timed) : Bool := t.timer = .done && t.operation = .done

def result (t : Timed) : ErrorCode := if t.timedOut then some "Connection timed out" else t.operationError

end Timed

inductive Phase where
  | resolve | connect | handshake | write | read | shutdown
  deriving DecidableEq

/-- An operation that `runTimedOperation` has run. -/
structure Ran where
  phase : Phase
  timed : Timed
  deriving DecidableEq

structure Req where
  target : String
  timeoutMs : ℤ
  phase : Phase
  timed : Timed
  /-- The response, once the parser is done. -/
  parsed : Option HttpResponse
  lastSuccessMs : ℤ
  ended : Option (Except Exception HttpResponse)
  /-- History, latest first. -/
  ran : List Ran

inductive Event where
  | expire
  /-- The operation completes; a read that completes the response leaves it in the parser. -/
  | complete (ec : ErrorCode) (response : Option HttpResponse)
  | runTimer
  | runOperation
  /-- `runTimedOperation` returns. -/
  | leave (now : ℤ)

namespace Req

def goTo (r : Req) (phase : Phase) : Req := { r with phase := phase, timed := {} }

def transportFailure (r : Req) (what : String) : Exception :=
  .transportError ("Transport failure for " ++ r.target ++ ": " ++ shown what)

/-- What `request` does with the result of an operation. -/
def next (r : Req) (now : ℤ) : Req :=
  match r.phase, r.timed.result with
  | .shutdown, _ => { r with ended := r.parsed.map .ok }
  | _, some what => { r with ended := some (.error (r.transportFailure what)) }
  | .resolve, none => r.goTo .connect
  | .connect, none => r.goTo .handshake
  | .handshake, none => r.goTo .write
  | .write, none => r.goTo .read
  | .read, none =>
    match r.parsed with
    | none => r.goTo .read
    | some _ => { r.goTo .shutdown with lastSuccessMs := now }

def step (r : Req) (e : Event) : Option Req :=
  if r.ended.isSome then none
  else
    match e with
    | .expire => if r.timed.timer = .armed ∧ 0 < r.timeoutMs then some { r with timed.timer := .expired } else none
    | .complete ec response =>
      if r.timed.operation = .running then
        some { r with
          timed.operation := .completed ec
          parsed := if r.phase = .read ∧ ec = none then response else r.parsed }
      else none
    | .runTimer => r.timed.runTimer.map fun timed => { r with timed := timed }
    | .runOperation => r.timed.runOperation.map fun timed => { r with timed := timed }
    | .leave now => if r.timed.isDone then some { r.next now with ran := ⟨r.phase, r.timed⟩ :: r.ran } else none

end Req

/-- A request, sent at a time when the last success was `lastSuccessMs`. -/
def request (target : String) (timeoutMs lastSuccessMs : ℤ) : System Req Event :=
  ⟨⟨target, timeoutMs, .resolve, {}, none, lastSuccessMs, none, []⟩, Req.step⟩

/-! ## The race of the two handlers -/

namespace Timed

/-- The states of `runTimedOperation`. -/
inductive Sound : Timed → Prop
  | waiting {timer : Timer} {operation : Operation} (ht : timer = .armed ∨ timer = .expired)
      (ho : operation ≠ .done) : Sound ⟨timer, operation, some "Operation canceled", false, false, []⟩
  | finished {timer : Timer} (ec : ErrorCode) (ht : timer = .cancelled ∨ timer = .expired) :
      Sound ⟨timer, .done, ec, true, false, [.operation]⟩
  | timedOut {operation : Operation} (ho : operation ≠ .done) :
      Sound ⟨.done, operation, some "Operation canceled", false, true, [.timer]⟩
  | inTime (ec : ErrorCode) : Sound ⟨.done, .done, ec, true, false, [.timer, .operation]⟩
  | late (ec : ErrorCode) : Sound ⟨.done, .done, ec, true, true, [.operation, .timer]⟩

/-- The operation had no error, and its handler came first. -/
def Succeeded (t : Timed) : Prop := t.operationError = none ∧ t.handlers = [.timer, .operation]

variable {t t' : Timed}

theorem Sound.init : Sound {} := .waiting (Or.inl rfl) (by decide)

theorem Sound.expire (h : t.Sound) (ht : t.timer = .armed) : Sound { t with timer := .expired } := by
  cases h with
  | waiting _ ho => exact .waiting (Or.inr rfl) ho
  | finished ec hq =>
    dsimp only at ht
    rcases hq with rfl | rfl <;> cases ht
  | timedOut => cases ht
  | inTime => cases ht
  | late => cases ht

theorem Sound.complete (h : t.Sound) (ht : t.operation = .running) (ec : ErrorCode) :
    Sound { t with operation := .completed ec } := by
  cases h with
  | waiting hq => exact .waiting hq (by simp)
  | finished => cases ht
  | timedOut => exact .timedOut (by simp)
  | inTime => cases ht
  | late => cases ht

theorem Sound.runTimer (h : t.Sound) (hs : t.runTimer = some t') : t'.Sound := by
  cases h with
  | waiting hq ho =>
    rcases hq with rfl | rfl <;> cases hs
    exact .timedOut ho
  | finished ec hq =>
    rcases hq with rfl | rfl <;> cases hs <;> exact .inTime ec
  | timedOut => cases hs
  | inTime => cases hs
  | late => cases hs

theorem Sound.runOperation (h : t.Sound) (hs : t.runOperation = some t') : t'.Sound := by
  cases h with
  | @waiting _ operation hq ho =>
    cases operation with
    | running => cases hs
    | completed ec => rcases hq with rfl | rfl <;> cases hs <;> exact .finished ec (by simp)
    | done => cases hs
  | finished => cases hs
  | @timedOut operation ho =>
    cases operation with
    | running => cases hs
    | completed ec => cases hs; exact .late ec
    | done => cases hs
  | inTime => cases hs
  | late => cases hs

/-- What `runTimedOperation` returns. -/
theorem Sound.result_iff (h : t.Sound) (hd : t.isDone = true) : t.result = none ↔ t.Succeeded := by
  cases h with
  | waiting hq ho => rcases hq with rfl | rfl <;> simp [isDone] at hd
  | finished ec hq => rcases hq with rfl | rfl <;> simp [isDone] at hd
  | timedOut ho => simp [isDone, ho] at hd
  | inTime ec => simp [result, Succeeded]
  | late ec => simp [result, Succeeded]

end Timed

/-! ## How a request ends -/

/-- What was run before a phase, latest first. -/
def Phase.Behind (ran : List Phase) : Phase → Prop
  | resolve => ran = []
  | connect => ran = [.resolve]
  | handshake => ran = [.connect, .resolve]
  | write => ran = [.handshake, .connect, .resolve]
  | read => ∃ n, ran = List.replicate n .read ++ [.write, .handshake, .connect, .resolve]
  | shutdown => ∃ n, ran = List.replicate (n + 1) .read ++ [.write, .handshake, .connect, .resolve]

/-- Under way, after a number of operations that succeeded. -/
structure Req.Going (target : String) (lastSuccessMs : ℤ) (r : Req) : Prop where
  target : r.target = target
  timed : r.timed.Sound
  behind : r.phase.Behind (r.ran.map Ran.phase)
  succeeded : ∀ ran ∈ r.ran, ran.timed.Succeeded
  parsed : r.phase = .shutdown → r.parsed.isSome
  last : r.phase ≠ .shutdown → r.lastSuccessMs = lastSuccessMs

/-- What a request has done that ended so. -/
def Req.Ended (target : String) (lastSuccessMs : ℤ) (r : Req) : Except Exception HttpResponse → Prop
  | .ok response => r.parsed = some response ∧ ∃ close before n, r.ran = close :: before ∧ close.phase = .shutdown ∧
      before.map Ran.phase = List.replicate (n + 1) .read ++ [.write, .handshake, .connect, .resolve] ∧
      ∀ ran ∈ before, ran.timed.Succeeded
  | .error e => r.lastSuccessMs = lastSuccessMs ∧ ∃ failed before what, r.ran = failed :: before ∧
      failed.phase ≠ .shutdown ∧ failed.phase.Behind (before.map Ran.phase) ∧ ¬ failed.timed.Succeeded ∧
      failed.timed.result = some what ∧ (∀ ran ∈ before, ran.timed.Succeeded) ∧
      e = .transportError ("Transport failure for " ++ target ++ ": " ++ shown what)

section Runs

variable {target : String} {timeoutMs lastSuccessMs : ℤ} {r r' : Req} {e : Event}

theorem Req.Going.timedStep (h : r.Going target lastSuccessMs) {timed : Timed} (ht : timed.Sound) :
    ({ r with timed := timed } : Req).Going target lastSuccessMs :=
  ⟨h.target, ht, h.behind, h.succeeded, h.parsed, h.last⟩

/-- What is known of a request at any time. -/
def Req.Known (target : String) (lastSuccessMs : ℤ) (r : Req) : Prop :=
  match r.ended with
  | none => r.Going target lastSuccessMs
  | some result => r.Ended target lastSuccessMs result

/-- An operation that returned with an error ends the request. -/
theorem Req.Going.fails (h : r.Going target lastSuccessMs) (hd : r.timed.isDone = true) {what : String}
    (hresult : r.timed.result = some what) (hne : r.phase ≠ .shutdown) :
    ({ r with ended := some (.error (r.transportFailure what)), ran := ⟨r.phase, r.timed⟩ :: r.ran } : Req).Known
      target lastSuccessMs := by
  refine ⟨h.last hne, ⟨r.phase, r.timed⟩, r.ran, what, rfl, hne, h.behind, fun hok => ?_, hresult, h.succeeded, ?_⟩
  · cases ((h.timed.result_iff hd).2 hok).symm.trans hresult
  · rw [← h.target]
    rfl

/-- A response that is complete is returned, however the closing ends. -/
theorem Req.Going.closes (h : r.Going target lastSuccessMs) (hphase : r.phase = .shutdown) :
    ({ r with ended := r.parsed.map .ok, ran := ⟨r.phase, r.timed⟩ :: r.ran } : Req).Known target lastSuccessMs := by
  have hbehind := h.behind
  rw [hphase] at hbehind
  obtain ⟨n, hn⟩ := hbehind
  cases hparsed : r.parsed with
  | none => simpa [hparsed] using h.parsed hphase
  | some response => exact ⟨rfl, ⟨r.phase, r.timed⟩, r.ran, n, rfl, hphase, hn, h.succeeded⟩

/-- The phases up to the last read. -/
theorem Req.next_of_ok (hended : r.ended = none) (hne : r.phase ≠ .shutdown) (hresult : r.timed.result = none)
    (now : ℤ) : ∃ phase last, r.next now = { r.goTo phase with lastSuccessMs := last, ended := none } ∧
      (phase ≠ .shutdown → last = r.lastSuccessMs) ∧ (phase = .shutdown → r.parsed.isSome) ∧
      ∀ ran, r.phase.Behind ran → phase.Behind (r.phase :: ran) := by
  have hsame : ∀ phase, r.goTo phase = { r.goTo phase with lastSuccessMs := r.lastSuccessMs, ended := none } :=
    fun phase => by rw [← hended]; rfl
  unfold Req.next
  cases hphase : r.phase with
  | resolve =>
    refine ⟨.connect, _, by rw [hresult]; exact hsame _, fun _ => rfl, nofun, fun ran hran => ?_⟩
    exact congrArg (Phase.resolve :: ·) hran
  | connect =>
    refine ⟨.handshake, _, by rw [hresult]; exact hsame _, fun _ => rfl, nofun, fun ran hran => ?_⟩
    exact congrArg (Phase.connect :: ·) hran
  | handshake =>
    refine ⟨.write, _, by rw [hresult]; exact hsame _, fun _ => rfl, nofun, fun ran hran => ?_⟩
    exact congrArg (Phase.handshake :: ·) hran
  | write =>
    refine ⟨.read, _, by rw [hresult]; exact hsame _, fun _ => rfl, nofun, fun ran hran => ⟨0, ?_⟩⟩
    exact congrArg (Phase.write :: ·) hran
  | read =>
    cases hparsed : r.parsed with
    | none =>
      refine ⟨.read, _, by rw [hresult]; exact hsame _, fun _ => rfl, nofun, fun ran hran => ?_⟩
      obtain ⟨n, hn⟩ := hran
      exact ⟨n + 1, congrArg (Phase.read :: ·) hn⟩
    | some response =>
      refine ⟨.shutdown, now, by rw [hresult, ← hended]; rfl, fun h => absurd rfl h, fun _ => rfl,
        fun ran hran => ?_⟩
      obtain ⟨n, hn⟩ := hran
      exact ⟨n, congrArg (Phase.read :: ·) hn⟩
  | shutdown => exact absurd hphase hne

theorem Req.Going.leave (h : r.Going target lastSuccessMs) (hended : r.ended = none)
    (hd : r.timed.isDone = true) (now : ℤ) :
    ({ r.next now with ran := ⟨r.phase, r.timed⟩ :: r.ran } : Req).Known target lastSuccessMs := by
  by_cases hphase : r.phase = .shutdown
  · have hnext : r.next now = { r with ended := r.parsed.map .ok } := by simp only [Req.next, hphase]
    rw [hnext]
    exact h.closes hphase
  cases hresult : r.timed.result with
  | some what =>
    have hnext : r.next now = { r with ended := some (.error (r.transportFailure what)) } := by
      unfold Req.next
      split <;> simp_all
    rw [hnext]
    exact h.fails hd hresult hphase
  | none =>
    obtain ⟨phase, last, hnext, hlast, hparsed, hbehind⟩ := Req.next_of_ok hended hphase hresult now
    rw [hnext]
    have hok := (h.timed.result_iff hd).1 hresult
    exact ⟨h.target, .init, hbehind _ h.behind, List.forall_mem_cons.2 ⟨hok, h.succeeded⟩, hparsed,
      fun hne => (hlast hne).trans (h.last hphase)⟩

theorem Req.Known.step (h : r.Known target lastSuccessMs) (hs : r.step e = some r') :
    r'.Known target lastSuccessMs := by
  unfold Req.step at hs
  split at hs
  · cases hs
  next hgoing =>
    have hended : r.ended = none := by simpa using hgoing
    have hgoing : r.Going target lastSuccessMs := by simpa only [Req.Known, hended] using h
    have timed : ∀ {timed : Timed}, timed.Sound → ({ r with timed := timed } : Req).Known target lastSuccessMs := by
      intro timed ht
      simpa only [Req.Known, hended] using hgoing.timedStep ht
    cases e with
    | expire =>
      dsimp only at hs
      split at hs <;> cases hs
      next hq => exact timed (hgoing.timed.expire hq.1)
    | complete ec response =>
      dsimp only at hs
      split at hs <;> cases hs
      next hq =>
        have ht := hgoing.timed.complete hq ec
        have hparsed : r.phase = .shutdown → (if r.phase = .read ∧ ec = none then response else r.parsed).isSome := by
          intro hphase
          rw [if_neg (by simp [hphase])]
          exact hgoing.parsed hphase
        simp only [Req.Known, hended]
        exact ⟨hgoing.target, ht, hgoing.behind, hgoing.succeeded, hparsed, hgoing.last⟩
    | runTimer =>
      obtain ⟨t, ht, rfl⟩ := Option.map_eq_some_iff.1 hs
      exact timed (hgoing.timed.runTimer ht)
    | runOperation =>
      obtain ⟨t, ht, rfl⟩ := Option.map_eq_some_iff.1 hs
      exact timed (hgoing.timed.runOperation ht)
    | leave now =>
      dsimp only at hs
      split at hs <;> cases hs
      next hq => exact hgoing.leave hended hq now

theorem known_of_reach (h : (request target timeoutMs lastSuccessMs).Reach System.Free r) :
    r.Known target lastSuccessMs := by
  have hinit : (request target timeoutMs lastSuccessMs).init.Known target lastSuccessMs :=
    ⟨rfl, .init, rfl, fun _ hmem => absurd hmem List.not_mem_nil, nofun, fun _ => rfl⟩
  exact h.invariant hinit fun _ _ _ _ _ hs hI => hI.step hs

theorem going_of_reach (h : (request target timeoutMs lastSuccessMs).Reach System.Free r) (hended : r.ended = none) :
    r.Going target lastSuccessMs := by
  simpa only [Req.Known, hended] using known_of_reach h

/-- **How a request ends.** Whatever handlers come first: it returns a response only if the parser has it whole,
and every operation before the closing, in their order, completed without an error before its timer; then
a closing that fails changes nothing. Otherwise it throws a `TransportError` that names the target, the one
operation that failed is the last one run, and the time of the last success is what it was. -/
theorem request_ended (target : String) (timeoutMs lastSuccessMs : ℤ) (r : Req)
    (h : (request target timeoutMs lastSuccessMs).Reach System.Free r) (result : Except Exception HttpResponse)
    (hended : r.ended = some result) : r.Ended target lastSuccessMs result := by
  simpa only [Req.Known, hended] using known_of_reach h

/-- An operation that completes without an error, and its timer is cancelled in time. -/
def completes (response : Option HttpResponse) : List Event :=
  [.complete none response, .runOperation, .runTimer, .leave 0]

/-- The response is complete, but the handler of the timer runs first. -/
theorem request_ended_late : ∃ (r : Req) (failed : Ran) (before : List Ran), r.parsed.isSome ∧ r.lastSuccessMs = 7 ∧
    r.ran = failed :: before ∧ ¬ failed.timed.Succeeded ∧ ∀ ran ∈ before, ran.timed.Succeeded := by
  obtain ⟨r, hr, hparsed, hended⟩ := System.Reach.exists_of_exec (S := request "/v5/order/create" 15000 7)
    (C := System.Free)
    (l := (List.replicate 4 (completes none)).flatten ++
      [.complete none (some (HttpResponse.ok "OK")), .expire, .runTimer, .runOperation, .leave 0])
    (P := fun r => r.parsed.isSome = true ∧ (r.ended.any fun result =>
      match result with
      | .ok _ => false
      | .error e => e = .transportError "Transport failure for /v5/order/create: Connection timed out") = true)
    (by decide +kernel)
  obtain ⟨result, hresult, herror⟩ := Option.any_eq_true _ _ |>.1 hended
  cases result with
  | ok response => cases herror
  | error e =>
    obtain ⟨hlast, failed, before, -, hran, -, -, hfailed, -, hbefore, -⟩ :=
      request_ended "/v5/order/create" 15000 7 r hr _ hresult
    exact ⟨r, failed, before, hparsed, hlast, hran, hfailed, hbefore⟩

end Runs

/-! ## A silent peer -/

/-- The peer does nothing; an operation completes only because it was cancelled, with an error. A connect that
is cancelled goes on to the endpoints that are left, inside Boost, and completes after the last of them. -/
def Silent (r : Req) : Event → Prop
  | .complete ec _ => r.timed.timedOut = true ∧ ec ≠ none
  | _ => True

/-- The steps of the event loop that are left to an operation. -/
def Timed.left (t : Timed) : ℕ :=
  (match t.timer with
    | .armed => 2
    | .expired | .cancelled => 1
    | .done => 0) +
  match t.operation with
    | .running => 2
    | .completed _ => 1
    | .done => 0

/-- It can only be timed out, unless the peer answers. -/
def Timed.Stalled (t : Timed) : Prop := t.operation = .running ∨ t.timedOut = true

instance (t : Timed) : Decidable t.Stalled := inferInstanceAs (Decidable (_ ∨ _))

/-- The steps that are left to a request: those of its operation, and the five of the next one if there may be
one. -/
def Req.left (r : Req) : ℕ :=
  if r.ended.isSome then 0 else r.timed.left + 1 + if r.timed.Stalled then 0 else 5

section Silent

variable {target : String} {timeoutMs lastSuccessMs : ℤ} {r r' : Req} {e : Event} {t t' : Timed}

theorem Req.left_le (r : Req) : r.left ≤ 9 := by
  obtain ⟨target, timeoutMs, phase, ⟨timer, operation, error, finished, timedOut, handlers⟩, parsed, last, ended,
    ran⟩ := r
  unfold Req.left Timed.left Timed.Stalled
  cases ended <;> cases timer <;> cases operation <;> cases timedOut <;> simp

/-- A step within an operation. -/
structure Timed.Shrinks (t t' : Timed) : Prop where
  left : t'.left < t.left
  stalled : t.Stalled → t'.Stalled

theorem Timed.shrinks_expire (ht : t.timer = .armed) : t.Shrinks { t with timer := .expired } :=
  ⟨by simp [Timed.left, ht], id⟩

theorem Timed.shrinks_complete (ho : t.operation = .running) (ht : t.timedOut = true) (ec : ErrorCode) :
    t.Shrinks { t with operation := .completed ec } :=
  ⟨by simp [Timed.left, ho], fun _ => Or.inr ht⟩

theorem Timed.shrinks_runTimer (hs : t.runTimer = some t') : t.Shrinks t' := by
  unfold Timed.runTimer at hs
  split at hs <;> cases hs
  next ht => exact ⟨by simp [Timed.left, ht], fun h => h.imp id fun h => by simp [h]⟩
  next ht => exact ⟨by simp [Timed.left, ht], id⟩

theorem Timed.shrinks_runOperation (hs : t.runOperation = some t') : t.Shrinks t' := by
  unfold Timed.runOperation at hs
  split at hs <;> cases hs
  next ec ho =>
    refine ⟨?_, fun h => ?_⟩
    · cases ht : t.timer <;> simp [Timed.left, ho, ht]
    · exact h.imp (fun h => by rw [ho] at h; cases h) id

theorem Req.left_of_shrinks (hended : r.ended = none) (hended' : r'.ended = none) (h : r.timed.Shrinks r'.timed) :
    r'.left < r.left := by
  have hleft := h.left
  simp only [Req.left, hended, hended', Option.isSome_none, Bool.false_eq_true, if_false]
  by_cases hstalled : r.timed.Stalled
  · rw [if_pos hstalled, if_pos (h.stalled hstalled)]
    omega
  · rw [if_neg hstalled]
    split <;> omega

/-- What returns is followed by the end of the request or by an operation that stalls. -/
theorem Req.left_of_leave (h : r.Going target lastSuccessMs) (hended : r.ended = none)
    (hd : r.timed.isDone = true) (now : ℤ) :
    ({ r.next now with ran := ⟨r.phase, r.timed⟩ :: r.ran } : Req).left < r.left := by
  have hleft : 0 < r.left := by
    simp only [Req.left, hended, Option.isSome_none, Bool.false_eq_true, if_false]
    omega
  by_cases hphase : r.phase = .shutdown
  · have hnext : (r.next now).ended.isSome = true := by
      simpa only [Req.next, hphase, Option.isSome_map] using h.parsed hphase
    simpa only [Req.left, hnext, if_true] using hleft
  cases hresult : r.timed.result with
  | some what =>
    have hnext : (r.next now).ended.isSome = true := by
      unfold Req.next
      split <;> simp_all
    simpa only [Req.left, hnext, if_true] using hleft
  | none =>
    -- It has succeeded, and the next one starts afresh.
    have hstalled : ¬ r.timed.Stalled := by
      rintro (hrunning | htimedOut)
      · simp [Timed.isDone, hrunning] at hd
      · simp [Timed.result, htimedOut] at hresult
    obtain ⟨phase, last, hnext, -⟩ := Req.next_of_ok hended hphase hresult now
    have hfresh : (r.goTo phase).timed.left = 4 := rfl
    have hwaits : (r.goTo phase).timed.Stalled := Or.inl rfl
    simp only [Req.left, hnext, hended, Option.isSome_none, Bool.false_eq_true, if_false, hfresh, if_pos hwaits,
      if_neg hstalled]
    omega

theorem Req.left_of_step (h : r.Known target lastSuccessMs) (hC : Silent r e) (hs : r.step e = some r') :
    r'.left < r.left := by
  unfold Req.step at hs
  split at hs
  · cases hs
  next hgoing =>
    have hended : r.ended = none := by simpa using hgoing
    have hgoing : r.Going target lastSuccessMs := by simpa only [Req.Known, hended] using h
    cases e with
    | expire =>
      dsimp only at hs
      split at hs <;> cases hs
      next hq => exact Req.left_of_shrinks hended hended (Timed.shrinks_expire hq.1)
    | complete ec response =>
      dsimp only at hs
      split at hs <;> cases hs
      next hq => exact Req.left_of_shrinks hended hended (Timed.shrinks_complete hq hC.1 ec)
    | runTimer =>
      obtain ⟨t, ht, rfl⟩ := Option.map_eq_some_iff.1 hs
      exact Req.left_of_shrinks hended hended (Timed.shrinks_runTimer ht)
    | runOperation =>
      obtain ⟨t, ht, rfl⟩ := Option.map_eq_some_iff.1 hs
      exact Req.left_of_shrinks hended hended (Timed.shrinks_runOperation ht)
    | leave now =>
      dsimp only at hs
      split at hs <;> cases hs
      next hq => exact Req.left_of_leave hgoing hended hq now

/-- The event loop of a request with a timeout always has a step to take. -/
theorem Timed.Sound.advances (h : r.timed.Sound) (hended : r.ended = none) (htimeout : 0 < r.timeoutMs) :
    ∃ e r', Silent r e ∧ r.step e = some r' := by
  obtain ⟨target', timeoutMs', phase, timed, parsed, last, ended, ran⟩ := r
  cases hended
  cases h with
  | @waiting timer operation hq ho =>
    rcases hq with rfl | rfl
    · exact ⟨.expire, _, trivial, (if_neg (by simp)).trans (if_pos ⟨rfl, htimeout⟩)⟩
    · exact ⟨.runTimer, _, trivial, rfl⟩
  | finished ec hq => rcases hq with rfl | rfl <;> exact ⟨.runTimer, _, trivial, rfl⟩
  | @timedOut operation ho =>
    cases operation with
    | running =>
      exact ⟨.complete (some "Operation canceled") none, _, ⟨rfl, by simp⟩, (if_neg (by simp)).trans (if_pos rfl)⟩
    | completed ec => exact ⟨.runOperation, _, trivial, rfl⟩
    | done => exact absurd rfl ho
  | inTime ec => exact ⟨.leave 0, _, trivial, rfl⟩
  | late ec => exact ⟨.leave 0, _, trivial, rfl⟩

theorem Req.timeoutMs_next (r : Req) (now : ℤ) : (r.next now).timeoutMs = r.timeoutMs := by
  unfold Req.next
  split
  case h_7 => split <;> rfl
  all_goals rfl

theorem timeoutMs_of_reach (h : (request target timeoutMs lastSuccessMs).Reach System.Free r) :
    r.timeoutMs = timeoutMs := by
  refine h.invariant (I := fun r => r.timeoutMs = timeoutMs) rfl fun r e r' _ _ hs hI => ?_
  have hs : r.step e = some r' := hs
  unfold Req.step at hs
  split at hs
  · cases hs
  cases e with
  | expire =>
    dsimp only at hs
    split at hs <;> cases hs
    exact hI
  | complete ec response =>
    dsimp only at hs
    split at hs <;> cases hs
    exact hI
  | runTimer =>
    obtain ⟨timed, -, rfl⟩ := Option.map_eq_some_iff.1 hs
    exact hI
  | runOperation =>
    obtain ⟨timed, -, rfl⟩ := Option.map_eq_some_iff.1 hs
    exact hI
  | leave now =>
    dsimp only at hs
    split at hs <;> cases hs
    exact (r.timeoutMs_next now).trans hI

/-- **A request with a timeout ends**, even if the peer never answers again: from every state it reaches, whatever
the order of the handlers, the event loop has at most nine steps to take, and it has one to take until the
request has ended. -/
theorem request_ends (target : String) (timeoutMs lastSuccessMs : ℤ) (htimeout : 0 < timeoutMs) (r : Req)
    (h : (request target timeoutMs lastSuccessMs).Reach System.Free r) (n : ℕ) (r' : Req)
    (hsilent : (request target timeoutMs lastSuccessMs).Stretch Silent n r r') :
    n ≤ 9 ∧ (r'.ended.isSome ∨
      ∃ e r'', Silent r' e ∧ (request target timeoutMs lastSuccessMs).step r' e = some r'') := by
  let S := request target timeoutMs lastSuccessMs
  have hreach : ∀ r e r', S.Reach System.Free r → Silent r e → S.step r e = some r' → S.Reach System.Free r' :=
    fun _ _ _ hr _ hs => hr.step trivial hs
  refine ⟨?_, ?_⟩
  · have hle : n + r'.left ≤ r.left := hsilent.lowered
      (fun _ _ _ hr hC hs => ⟨hreach _ _ _ hr hC hs, Req.left_of_step (known_of_reach hr) hC hs⟩) h
    exact (Nat.le_add_right _ _).trans (hle.trans r.left_le)
  · have hr' : S.Reach System.Free r' := hsilent.invariant hreach h
    cases hended : r'.ended with
    | some result => exact Or.inl rfl
    | none =>
      have htime : 0 < r'.timeoutMs := (timeoutMs_of_reach hr').symm ▸ htimeout
      exact Or.inr ((going_of_reach hr' hended).timed.advances hended htime)

/-- The name server never answers; the timer has expired. -/
theorem request_ends_silent :
    ∃ r, (request "/v5/order/create" 15000 7).Stretch Silent 1 (request "/v5/order/create" 15000 7).init r ∧
      ∃ e r', Silent r e ∧ (request "/v5/order/create" 15000 7).step r e = some r' := by
  have hexpires : (request "/v5/order/create" 15000 7).Stretch Silent 1 (request "/v5/order/create" 15000 7).init
      { (request "/v5/order/create" 15000 7).init with timed.timer := .expired } :=
    .next .expire trivial rfl (.here _)
  obtain ⟨-, hended | hnext⟩ := request_ends "/v5/order/create" 15000 7 (by decide) _ System.Reach.init 1 _ hexpires
  · cases hended
  · exact ⟨_, hexpires, hnext⟩

end Silent

end BybitApi.Http
