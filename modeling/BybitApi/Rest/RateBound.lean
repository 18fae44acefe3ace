import BybitApi.Rest.RateLimiter

/-!
# How much the rate limiter lets through

A call that slept is recorded as of the time it began, so the record lags behind the returns. Not by much: what is
recorded of a call is the time it began, and no call begins before the one before it has returned. So of the
returns in an interval only the first can be missing from the record (`Tracked.covered`), and any second has at
most one return more than the limit.
-/

namespace BybitApi.Rest

open Lib

namespace RateLimiter

section Wait

variable {now nowAfterWait : ℤ} {r : RateLimiter}

/-- What is not expired is left at the front. -/
theorem dropExpired_cons {times rest : List ℤ} {oldest : ℤ} (h : dropExpired now times = oldest :: rest) :
    now - oldest ≤ windowSizeMs := by
  have hfront := List.head?_dropWhile_not (fun time => decide (now - time > windowSizeMs)) times
  unfold dropExpired at h
  rw [h] at hfront
  simpa using hfront

/-- Its call may begin before the last reading of the clock, but it is asked to sleep for no more than this. -/
theorem waitTime_cases (hlocal : r.serverHeadersFound = false) {asked : ℤ} (h : r.waitTime now = some asked) :
    ∃ oldest times, dropExpired now r.requestTimes = oldest :: times ∧ asked = oldest + windowSizeMs - now + 10 := by
  unfold waitTime at h
  rw [hlocal] at h
  cases hrest : dropExpired now r.requestTimes with
  | nil => simp [hrest] at h
  | cons oldest times =>
    simp only [hrest, Bool.false_eq_true, if_false] at h
    obtain ⟨-, hasked⟩ := Option.ite_none_right_eq_some.1 h
    exact ⟨oldest, times, rfl, (Option.some.inj hasked).symm⟩

theorem waitTime_nonneg (now : ℤ) (hlocal : r.serverHeadersFound = false) : 0 ≤ (r.waitTime now).getD 0 := by
  cases hwait : r.waitTime now with
  | none => exact le_refl 0
  | some asked =>
    obtain ⟨oldest, times, hrest, rfl⟩ := waitTime_cases hlocal hwait
    have hfront := dropExpired_cons hrest
    simp only [Option.getD_some]
    omega

/-- **What a call leaves of the record**: it drops what is expired when it returns, and there is room for one more. -/
theorem wait_kept (hlocal : r.serverHeadersFound = false) (hshort : r.requestTimes.length ≤ localLimit)
    (hslept : now + (r.waitTime now).getD 0 ≤ nowAfterWait) : ∃ expired kept, r.requestTimes = expired ++ kept ∧
      (r.wait now nowAfterWait).requestTimes = kept ++ [now] ∧ kept.length < localLimit ∧
        ∀ time ∈ expired, time + windowSizeMs < nowAfterWait := by
  obtain ⟨expired, htimes, hexpired⟩ := dropExpired_append now r.requestTimes
  cases hwait : r.waitTime now with
  | none =>
    rw [hwait] at hslept
    refine ⟨expired, dropExpired now r.requestTimes, htimes, by simp [wait, hlocal, hwait], ?_, ?_⟩
    · unfold waitTime at hwait
      rw [hlocal] at hwait
      cases hrest : dropExpired now r.requestTimes with
      | nil => decide
      | cons oldest times =>
        have hfront := dropExpired_cons hrest
        simp only [hrest, Bool.false_eq_true, if_false, ite_eq_right_iff, reduceCtorEq, imp_false, Bool.and_eq_true,
          decide_eq_true_eq, not_and] at hwait
        by_contra hfull
        exact hwait (by omega) (by omega)
    · intro time htime
      have hold := hexpired time htime
      simp only [Option.getD_none] at hslept
      omega
  | some asked =>
    rw [hwait] at hslept
    obtain ⟨oldest, times, hrest, rfl⟩ := waitTime_cases hlocal hwait
    -- the sleep lasts until the oldest of them is expired
    have hdrop : dropExpired nowAfterWait (oldest :: times) = dropExpired nowAfterWait times := by
      unfold dropExpired
      apply List.dropWhile_cons_of_pos
      simp only [Option.getD_some] at hslept
      simp only [decide_eq_true_eq]
      omega
    obtain ⟨expired', htimes', hexpired'⟩ := dropExpired_append nowAfterWait (oldest :: times)
    rw [hdrop] at htimes'
    refine ⟨expired ++ expired', dropExpired nowAfterWait times, ?_, ?_, ?_, ?_⟩
    · rw [List.append_assoc, ← htimes', ← hrest]
      exact htimes
    · simp only [wait, hlocal, hwait, Bool.false_eq_true, if_false, hrest, hdrop]
    · have hle := (List.dropWhile_suffix (l := times) fun time => decide (nowAfterWait - time > windowSizeMs)).length_le
      have hlength := congrArg List.length htimes
      rw [List.length_append, hrest, List.length_cons] at hlength
      change (dropExpired nowAfterWait times).length ≤ times.length at hle
      omega
    · intro time htime
      have hfront := dropExpired_cons hrest
      simp only [Option.getD_some] at hslept
      rcases List.mem_append.1 htime with htime | htime
      · have hold := hexpired time htime
        omega
      · exact hexpired' time htime

end Wait

/-! ## Runs -/

/-- What the record still tells of the returns. -/
structure Tracked (c : Calls) : Prop where
  short : c.limiter.requestTimes.length ≤ localLimit
  past : ∀ time ∈ c.limiter.requestTimes, time ≤ c.clock
  returned : ∀ time ∈ c.returns, time ≤ c.clock
  /-- Of the returns since `t` the record has all but one. -/
  covered : ∀ t, c.clock ≤ t + windowSizeMs → c.returns.countP (fun time => decide (t ≤ time)) ≤
    c.limiter.requestTimes.countP (fun time => decide (t ≤ time)) + 1
  bounded : ∀ t, (between id t (t + windowSizeMs) c.returns).length ≤ localLimit + 1

section Runs

variable {c c' : Calls} {now nowAfterWait : ℤ} {a : Call}

theorem step_slept (h : step c (.wait now nowAfterWait) = some c') :
    now + (c.limiter.waitTime now).getD 0 ≤ nowAfterWait := by
  simp only [step] at h
  split at h
  · next hw => exact hw.2.1
  · cases h

theorem length_between_le (t : ℤ) (returns : List ℤ) : (between id t (t + windowSizeMs) returns).length ≤
    returns.countP fun time => decide (t ≤ time) := by
  unfold between
  rw [← List.countP_eq_length_filter]
  apply List.countP_mono_left
  intro time _ hin
  simp only [id_eq, decide_eq_true_eq] at hin ⊢
  exact hin.1

theorem Tracked.wait (h : Tracked c) (hlocal : c.limiter.serverHeadersFound = false)
    (hs : step c (.wait now nowAfterWait) = some c') : Tracked c' := by
  obtain ⟨hclock, -, rfl⟩ := step_wait hs
  have hslept := step_slept hs
  obtain ⟨expired, kept, htimes, hwait, hroom, hexpired⟩ := wait_kept hlocal h.short hslept
  have hnow : now ≤ nowAfterWait := by
    have hpos := waitTime_nonneg now hlocal
    omega
  have hshort : ((c.limiter.wait now nowAfterWait).requestTimes).length ≤ localLimit := by
    rw [hwait, List.length_append, List.length_singleton]
    omega
  have hcovered : ∀ t, nowAfterWait ≤ t + windowSizeMs →
      (nowAfterWait :: c.returns).countP (fun time => decide (t ≤ time)) ≤
        (c.limiter.wait now nowAfterWait).requestTimes.countP (fun time => decide (t ≤ time)) + 1 := by
    intro t ht
    have hgone : expired.countP (fun time => decide (t ≤ time)) = 0 := by
      apply List.countP_eq_zero.2
      intro time htime
      have hold := hexpired time htime
      simp only [decide_eq_true_eq, not_le]
      omega
    have hbefore := h.covered t (by omega)
    rw [htimes, List.countP_append, hgone, Nat.zero_add] at hbefore
    rw [hwait, List.countP_append, List.countP_singleton, List.countP_cons]
    by_cases hrecorded : t ≤ now
    · rw [if_pos (decide_eq_true hrecorded), if_pos (decide_eq_true (hrecorded.trans hnow))]
      omega
    · -- the calls before this one had returned when it began
      have hnone : c.returns.countP (fun time => decide (t ≤ time)) = 0 := by
        apply List.countP_eq_zero.2
        intro time htime
        have hpast := h.returned time htime
        simp only [decide_eq_true_eq, not_le]
        omega
      rw [hnone, Nat.zero_add]
      split
      · exact Nat.le_add_left 1 _
      · exact Nat.zero_le _
  refine ⟨hshort, ?_, ?_, hcovered, ?_⟩
  · intro time htime
    rw [hwait, List.mem_append, List.mem_singleton] at htime
    change time ≤ nowAfterWait
    rcases htime with htime | rfl
    · have hpast := h.past time (by rw [htimes]; exact List.mem_append_right _ htime)
      omega
    · exact hnow
  · intro time htime
    change time ≤ nowAfterWait
    rcases List.mem_cons.1 htime with rfl | htime
    · exact le_refl time
    · have hpast := h.returned time htime
      omega
  · intro t
    change (between id t (t + windowSizeMs) (nowAfterWait :: c.returns)).length ≤ _
    by_cases hlate : t + windowSizeMs < nowAfterWait
    · have hsame : between id t (t + windowSizeMs) (nowAfterWait :: c.returns) =
          between id t (t + windowSizeMs) c.returns := by
        apply List.filter_cons_of_neg
        simp only [id_eq, decide_eq_true_eq, not_and, not_le]
        intro _
        exact hlate
      rw [hsame]
      exact h.bounded t
    · have hle := length_between_le t (nowAfterWait :: c.returns)
      have hcount := hcovered t (by omega)
      have hrecord : (c.limiter.wait now nowAfterWait).requestTimes.countP (fun time => decide (t ≤ time)) ≤
          (c.limiter.wait now nowAfterWait).requestTimes.length := List.countP_le_length
      omega

theorem Tracked.step (h : Tracked c) (hlocal : LocalMode c a) (hs : step c a = some c') : Tracked c' := by
  cases a with
  | wait now nowAfterWait => exact h.wait hlocal hs
  | update status reset =>
    obtain rfl := Option.some.inj hs
    have htimes : (c.limiter.update status reset).requestTimes = c.limiter.requestTimes := by
      unfold RateLimiter.update
      split <;> rfl
    apply Tracked.mk
    · rw [htimes]
      exact h.short
    · rw [htimes]
      exact h.past
    · exact h.returned
    · rw [htimes]
      exact h.covered
    · exact h.bounded

theorem Tracked.of_reach (h : calls.Reach LocalMode c) : Tracked c := by
  apply System.Reach.invariant (I := Tracked) _ _ h
  · apply Tracked.mk
    · decide
    · intro time htime
      cases htime
    · intro time htime
      cases htime
    · intro t _
      exact Nat.zero_le _
    · intro t
      exact Nat.zero_le _
  · intro c a c' _ hC hs hI
    exact hI.step hC hs

/-- **What the limiter always keeps to**, whether calls sleep or not: no interval of `windowSizeMs` has the returns of
more than one call above the limit, and no call is asked to sleep for more than 10 ms above it. -/
theorem local_bound (c : Calls) (h : calls.Reach LocalMode c) :
    (∀ t, (between id t (t + windowSizeMs) c.returns).length ≤ localLimit + 1) ∧
      ∀ now asked, c.clock ≤ now → c.limiter.serverHeadersFound = false → c.limiter.waitTime now = some asked →
        asked ≤ windowSizeMs + 10 := by
  have htracked := Tracked.of_reach h
  refine ⟨htracked.bounded, ?_⟩
  intro now asked hclock hlocal hwait
  obtain ⟨oldest, times, hrest, rfl⟩ := waitTime_cases hlocal hwait
  have hmem : oldest ∈ c.limiter.requestTimes := by
    apply (List.dropWhile_suffix fun time => decide (now - time > windowSizeMs)).mem
    change oldest ∈ dropExpired now c.limiter.requestTimes
    rw [hrest]
    exact List.mem_cons_self
  have hpast := htracked.past oldest hmem
  omega

/-- A burst of ten, a call that sleeps, and ten more at once: there are as many returns as there can be. The call after
them sleeps for as long as any. -/
theorem local_bound_burst : ∃ c : Calls, (between id 1010 (1010 + windowSizeMs) c.returns).length = localLimit + 1 ∧
    (∀ t, (between id t (t + windowSizeMs) c.returns).length ≤ localLimit + 1) ∧
      ∃ asked, c.limiter.waitTime 1010 = some asked ∧ asked ≤ windowSizeMs + 10 := by
  obtain ⟨c, hc, hmany, hclock, hlocal, hwait⟩ := System.Reach.exists_of_exec (S := calls) (C := LocalMode)
    (l := List.replicate 10 (.wait 0 0) ++ [.wait 0 1010] ++ List.replicate 10 (.wait 1010 1010))
    (P := fun c => (between id 1010 (1010 + windowSizeMs) c.returns).length = localLimit + 1 ∧ c.clock ≤ 1010 ∧
      c.limiter.serverHeadersFound = false ∧ c.limiter.waitTime 1010 = some (windowSizeMs + 10)) (by decide)
  obtain ⟨hbound, hsleep⟩ := local_bound c hc
  exact ⟨c, hmany, hbound, _, hwait, hsleep 1010 _ hclock hlocal hwait⟩

end Runs

end RateLimiter

end BybitApi.Rest
