import BybitApi.Lib.Runs
import BybitApi.Lib.Series
import Mathlib.Data.List.TakeWhile

/-!
# The rate limiter

`RateLimiter::wait` holds its mutex while it sleeps, so the calls come one after the other. Without
rate limit headers from the server it keeps the times of the requests of the last second. What it
keeps of a call that slept is the time the call began, not the time it returned.

The times are in ms. Between its last reading of the clock and its return a call takes no time.
-/

namespace BybitApi.Rest

open Lib

structure RateLimiter where
  remaining : ℤ
  resetTime : ℤ
  serverHeadersFound : Bool
  /-- The oldest is the front. -/
  requestTimes : List ℤ

namespace RateLimiter

/-- 10 requests per second. -/
def localLimit : ℕ := 10

def windowSizeMs : ℤ := 1000

def init : RateLimiter := ⟨50, 0, false, []⟩

/-- The headers `X-Bapi-Limit-Status` and `X-Bapi-Limit-Reset` of a response: `none` is a header that
is missing, `some none` one that `std::stoi` or `std::stoll` throws on. -/
def update (status reset : Option (Option ℤ)) (r : RateLimiter) : RateLimiter :=
  match status, reset with
  | some (some n), some (some t) => { r with remaining := n, resetTime := t, serverHeadersFound := true }
  | some (some n), some none => { r with remaining := n }
  | _, _ => r

/-- Remove the old requests. -/
def dropExpired (now : ℤ) (requestTimes : List ℤ) : List ℤ :=
  requestTimes.dropWhile fun time => now - time > windowSizeMs

/-- How long a call that begins at `now` sleeps. -/
def waitTime (now : ℤ) (r : RateLimiter) : Option ℤ :=
  if r.serverHeadersFound then
    if r.remaining ≤ 2 && r.resetTime > now then some (r.resetTime - now + 50) else none
  else
    match dropExpired now r.requestTimes with
    | [] => none
    | oldest :: times =>
      if localLimit ≤ (oldest :: times).length && oldest + windowSizeMs - now + 10 > 0 then
        some (oldest + windowSizeMs - now + 10)
      else none

/-- `wait()`, begun at `now`. `nowAfterWait` is the time after the sleep, if there is one. -/
def wait (now nowAfterWait : ℤ) (r : RateLimiter) : RateLimiter :=
  if r.serverHeadersFound then r
  else
    match r.waitTime now with
    | none => { r with requestTimes := dropExpired now r.requestTimes ++ [now] }
    | some _ =>
      { r with requestTimes := dropExpired nowAfterWait (dropExpired now r.requestTimes) ++ [now] }

/-! ## Calls -/

/-- The limiter after some calls. -/
structure Calls where
  limiter : RateLimiter
  clock : ℤ
  /-- History: when the calls of `wait` returned, latest first. -/
  returns : List ℤ

inductive Call where
  | wait (now nowAfterWait : ℤ)
  | update (status reset : Option (Option ℤ))

/-- The clock does not go back, and a sleep lasts at least as long as asked. -/
def step (c : Calls) : Call → Option Calls
  | .wait now nowAfterWait =>
    if c.clock ≤ now ∧ now + (c.limiter.waitTime now).getD 0 ≤ nowAfterWait ∧
        (c.limiter.waitTime now = none → nowAfterWait = now) then
      some ⟨c.limiter.wait now nowAfterWait, nowAfterWait, nowAfterWait :: c.returns⟩
    else none
  | .update status reset => some { c with limiter := c.limiter.update status reset }

def calls : System Calls Call := ⟨⟨init, 0, []⟩, step⟩

/-- No rate limit headers have been seen when a call of `wait` begins. -/
def LocalMode (c : Calls) : Call → Prop
  | .wait _ _ => c.limiter.serverHeadersFound = false
  | .update _ _ => True

/-- Fewer than `localLimit` of the recorded calls are left when a call begins, so it does not sleep. -/
def NoSleep (c : Calls) : Call → Prop
  | .wait now _ => (dropExpired now c.limiter.requestTimes).length < localLimit
  | .update _ _ => True

instance (c : Calls) : (a : Call) → Decidable (LocalMode c a)
  | .wait _ _ => inferInstanceAs (Decidable (c.limiter.serverHeadersFound = false))
  | .update _ _ => inferInstanceAs (Decidable True)

instance (c : Calls) : (a : Call) → Decidable (NoSleep c a)
  | .wait now _ => Nat.decLt (dropExpired now c.limiter.requestTimes).length localLimit
  | .update _ _ => inferInstanceAs (Decidable True)

/-- At most `localLimit` calls returned in any interval of `windowSizeMs`, both ends included. -/
def Limited (returns : List ℤ) : Prop :=
  ∀ t, (between id t (t + windowSizeMs) returns).length ≤ localLimit

/-! ## The record of the calls -/

section Record

variable {c c' : Calls} {now nowAfterWait : ℤ} {r : RateLimiter}

theorem waitTime_of_short (hlocal : r.serverHeadersFound = false)
    (h : (dropExpired now r.requestTimes).length < localLimit) : r.waitTime now = none := by
  unfold waitTime
  rw [hlocal]
  cases hd : dropExpired now r.requestTimes with
  | nil => rfl
  | cons oldest times =>
    rw [hd] at h
    simp only [Bool.false_eq_true, if_false, ite_eq_right_iff]
    intro hlong
    simp only [Bool.and_eq_true, decide_eq_true_eq] at hlong
    omega

theorem step_wait (h : step c (.wait now nowAfterWait) = some c') :
    c.clock ≤ now ∧ (c.limiter.waitTime now = none → nowAfterWait = now) ∧
      c' = ⟨c.limiter.wait now nowAfterWait, nowAfterWait, nowAfterWait :: c.returns⟩ := by
  simp only [step] at h
  split at h
  · next hw => exact ⟨hw.1, hw.2.2, (Option.some.inj h).symm⟩
  · cases h

/-- The record holds the calls that returned in the last `windowSizeMs`. -/
structure Recorded (c : Calls) : Prop where
  short : c.limiter.requestTimes.length ≤ localLimit
  recent : ∃ old, c.returns = c.limiter.requestTimes.reverse ++ old ∧
    ∀ time ∈ old, time + windowSizeMs < c.clock
  limited : Limited c.returns

theorem dropExpired_append (now : ℤ) (times : List ℤ) : ∃ expired, times = expired ++ dropExpired now times ∧
    ∀ time ∈ expired, time + windowSizeMs < now := by
  refine ⟨_, List.takeWhile_append_dropWhile.symm, fun time htime => ?_⟩
  have := List.mem_takeWhile_imp htime
  simp only [gt_iff_lt, decide_eq_true_eq] at this
  omega

theorem Recorded.wait (h : Recorded c) (hclock : c.clock ≤ now) (hlocal : c.limiter.serverHeadersFound = false)
    (hshort : (dropExpired now c.limiter.requestTimes).length < localLimit) :
    Recorded ⟨c.limiter.wait now now, now, now :: c.returns⟩ := by
  obtain ⟨old, hreturns, hold⟩ := h.recent
  obtain ⟨expired, htimes, hexpired⟩ := dropExpired_append now c.limiter.requestTimes
  have hwait : (c.limiter.wait now now).requestTimes = dropExpired now c.limiter.requestTimes ++ [now] := by
    simp [RateLimiter.wait, hlocal, waitTime_of_short hlocal hshort]
  have hlen : (dropExpired now c.limiter.requestTimes ++ [now]).length ≤ localLimit := by
    rw [List.length_append, List.length_singleton]
    omega
  have hrecent : now :: c.returns =
      (dropExpired now c.limiter.requestTimes ++ [now]).reverse ++ (expired.reverse ++ old) := by
    rw [hreturns]
    nth_rewrite 1 [htimes]
    simp
  have hold' : ∀ time ∈ expired.reverse ++ old, time + windowSizeMs < now := by
    intro time htime
    rcases List.mem_append.1 htime with htime | htime
    · exact hexpired time (List.mem_reverse.1 htime)
    · exact (hold time htime).trans_le hclock
  refine ⟨hwait ▸ hlen, ⟨_, by rw [hwait]; exact hrecent, hold'⟩, fun t => ?_⟩
  by_cases hin : t ≤ now ∧ now ≤ t + windowSizeMs
  · -- the interval ends after what is not in the record any more
    have hnone : between id t (t + windowSizeMs) (expired.reverse ++ old) = [] :=
      List.filter_eq_nil_iff.2 fun time htime => by
        have := hold' time htime
        simp only [id_eq, decide_eq_true_eq]
        omega
    change (between id t (t + windowSizeMs) (now :: c.returns)).length ≤ localLimit
    rw [hrecent, between, List.filter_append, List.length_append]
    change _ + (between id t (t + windowSizeMs) (expired.reverse ++ old)).length ≤ _
    rw [hnone, List.length_nil, Nat.add_zero]
    refine (List.length_filter_le _ _).trans ?_
    rw [List.length_reverse]
    exact hlen
  · have hsame : between id t (t + windowSizeMs) (now :: c.returns) =
        between id t (t + windowSizeMs) c.returns := List.filter_cons_of_neg (by simpa using hin)
    change (between id t (t + windowSizeMs) (now :: c.returns)).length ≤ localLimit
    rw [hsame]
    exact h.limited t

theorem Recorded.step {a : Call} (h : Recorded c) (hlocal : LocalMode c a) (hno : NoSleep c a)
    (hs : step c a = some c') : Recorded c' := by
  cases a with
  | wait now nowAfterWait =>
    obtain ⟨hclock, hsame, rfl⟩ := step_wait hs
    obtain rfl := hsame (waitTime_of_short hlocal hno)
    exact h.wait hclock hlocal hno
  | update status reset =>
    obtain rfl := Option.some.inj hs
    have htimes : (c.limiter.update status reset).requestTimes = c.limiter.requestTimes := by
      unfold RateLimiter.update
      split <;> rfl
    exact ⟨by rw [htimes]; exact h.short, by rw [htimes]; exact h.recent, h.limited⟩

end Record

/-- **Local rate limit.** In a run without rate limit headers in which no call has to sleep, no
interval of `windowSizeMs` has the returns of more than `localLimit` calls. -/
theorem local_limit (c : Calls) (h : calls.Reach (fun c a => LocalMode c a ∧ NoSleep c a) c) :
    Limited c.returns :=
  (System.Reach.invariant (I := Recorded) ⟨by decide, ⟨[], rfl, by simp⟩, fun t => by simp [calls, between]⟩
    (fun _ _ _ _ hC hs hI => hI.step hC.1 hC.2 hs) h).limited

theorem local_limit_burst : ∃ c : Calls, c.returns.length = 10 ∧ Limited c.returns := by
  obtain ⟨c, hc, hlen⟩ := System.Reach.exists_of_exec (S := calls)
    (C := fun c a => LocalMode c a ∧ NoSleep c a) (l := List.replicate 10 (.wait 0 0))
    (P := fun c => c.returns.length = 10) (by decide)
  exact ⟨c, hlen, local_limit c hc⟩

/-- The eleventh call of a burst sleeps for 1010 ms and is recorded as one of the burst. So the next
one, right after it, drops the whole record, and ten more calls go through at once. -/
theorem local_limit_after_sleep : ¬ ∀ c, calls.Reach LocalMode c → Limited c.returns := by
  intro h
  obtain ⟨c, hc, hmany⟩ := System.Reach.exists_of_exec (S := calls) (C := LocalMode)
    (l := List.replicate 10 (.wait 0 0) ++ [.wait 0 1010] ++ List.replicate 10 (.wait 1010 1010))
    (P := fun c => localLimit < (between id 1010 (1010 + windowSizeMs) c.returns).length) (by decide)
  exact absurd (h c hc 1010) (not_le.2 hmany)

end RateLimiter

end BybitApi.Rest
