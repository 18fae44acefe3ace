import BybitApi.Rest.CandleRounds

/-!
# The history of a symbol

What `getHistoricalPrices` returns where the answers come from a series of candles with gaps of any
length. After every request that is done with, it has all candles of the series from the start of
the range to the start of the next request (`Progress`).
-/

namespace BybitApi.Rest

open Lib

/-- The candles of a symbol, oldest first. None begins before the one before it is over. -/
structure CandleSeries (interval : CandleInterval) where
  candles : List Candle
  increasing : Increasing Candle.startTime candles
  spaced : candles.Pairwise fun c c' => nextCandleStart c.startTime interval ≤ c'.startTime

namespace CandleSeries

variable {interval : CandleInterval} (series : CandleSeries interval)

/-- The candles that begin from `s` to `e`, both inclusive. -/
def range (s e : ℤ) : List Candle := between Candle.startTime s e series.candles

/-- What the venue may answer. -/
structure Allows (request : KlineRequest) (answer : List Candle) : Prop where
  listed : Increasing Candle.startTime answer.reverse
  venue : ∀ c ∈ answer, c ∈ series.candles
  /-- (i) Of the candles from `start` on, those up to some time, and older ones. -/
  run : request.endTime = none → kept request.start answer ≠ [] →
    ∃ e, kept request.start answer = series.range request.start e
  /-- (ii) Up to `end`, and if the limit allows for it everything from `start` on. -/
  not_after : ∀ e, request.endTime = some e → ∀ c ∈ answer, c.startTime ≤ e
  window : ∀ e, request.endTime = some e → (series.range request.start e).length ≤ request.limit.getD 200 →
    ∀ c ∈ series.range request.start e, c ∈ answer
  /-- (iii) Nothing only where there is nothing. -/
  empty : request.endTime = none → answer = [] → ∀ c ∈ series.candles, c.startTime < request.start

variable {series} {s e m : ℤ} {c : Candle} {answer : List Candle} {request : KlineRequest}

@[simp] theorem mem_range : c ∈ series.range s e ↔ c ∈ series.candles ∧ s ≤ c.startTime ∧ c.startTime ≤ e :=
  mem_between

theorem increasing_range (s e : ℤ) : Increasing Candle.startTime (series.range s e) :=
  series.increasing.between s e

theorem Allows.newestFirst (h : series.Allows request answer) : NewestFirst answer :=
  List.pairwise_reverse.1 (h.listed.imp fun hlt => hlt.le)

theorem Allows.increasing_kept (h : series.Allows request answer) (s : ℤ) :
    Increasing Candle.startTime (kept s answer) := h.listed.sublist List.filter_sublist

theorem range_split (hs : s ≤ m + 1) (he : m ≤ e) :
    series.range s e = series.range s m ++ series.range (m + 1) e :=
  series.increasing.between_split hs he

/-- The last candle of a window, and what is before it. -/
theorem range_last {older : List Candle} {last : Candle} (h : series.range s e = older ++ [last]) :
    last ∈ series.candles ∧ s ≤ last.startTime ∧ series.range s (last.startTime - 1) = older ∧
      series.range s last.startTime = older ++ [last] := by
  have hlast := mem_range.1 (h ▸ List.mem_append_right older List.mem_cons_self)
  have hsorted := List.pairwise_append.1 (h ▸ increasing_range s e)
  refine ⟨hlast.1, hlast.2.1, series.increasing.between_before h, ?_⟩
  rw [← h]
  refine (increasing_range _ _).eq_of_mem_iff (increasing_range _ _) fun c => ?_
  rw [mem_range, mem_range]
  refine and_congr_right fun hc => and_congr_right fun hs => ⟨fun hle => hle.trans hlast.2.2, fun hle => ?_⟩
  have hmem : c ∈ older ++ [last] := h ▸ mem_range.2 ⟨hc, hs, hle⟩
  rcases List.mem_append.1 hmem with hc | hc
  · exact (hsorted.2.2 c hc last List.mem_cons_self).le
  · exact (List.mem_singleton.1 hc) ▸ le_rfl

/-- Between a candle and the time when it is over, none begins. -/
theorem next_le {c c' : Candle} (hc : c ∈ series.candles) (hc' : c' ∈ series.candles)
    (hlt : c.startTime < c'.startTime) : nextCandleStart c.startTime interval ≤ c'.startTime := by
  obtain ⟨before, after, hsplit⟩ := List.append_of_mem hc
  have hspaced := hsplit ▸ series.spaced
  have hinc := hsplit ▸ series.increasing
  rw [hsplit] at hc'
  rcases List.mem_append.1 hc' with h | h
  · have := (List.pairwise_append.1 hinc).2.2 c' h c List.mem_cons_self
    omega
  · rcases List.mem_cons.1 h with rfl | h
    · omega
    · exact List.rel_of_pairwise_cons (List.pairwise_append.1 hspaced).2.1 h

theorem range_next (hc : c ∈ series.candles) (hlt : c.startTime < nextCandleStart c.startTime interval) :
    series.range s (nextCandleStart c.startTime interval - 1) = series.range s c.startTime := by
  refine (increasing_range _ _).eq_of_mem_iff (increasing_range _ _) fun c' => ?_
  rw [mem_range, mem_range]
  refine and_congr_right fun hc' => and_congr_right fun _ => ⟨fun hle => ?_, fun hle => by omega⟩
  by_contra hgt
  have := next_le hc hc' (not_le.1 hgt)
  omega

/-! ## A window holds no more than `limit` candles -/

theorem length_range_of_ms {ms n : ℤ} (hms : 0 < ms) (hspaced : (series.range s e).Pairwise fun c c' =>
    c.startTime + ms ≤ c'.startTime) (he : e ≤ s + (n - 1) * ms) (hn : 1 ≤ n) :
    ((series.range s e).length : ℤ) ≤ n := by
  by_cases hne : series.range s e = []
  · rw [hne]
    simp only [List.length_nil, Nat.cast_zero]
    omega
  · obtain ⟨c, hc, c', hc', hfar⟩ := exists_far_apart hspaced hne
    have h₁ := (mem_range.1 hc).2.1
    have h₂ := (mem_range.1 hc').2.2
    have hle : ms * ((series.range s e).length - 1 : ℤ) ≤ ms * (n - 1) := by linarith [mul_comm (n - 1) ms]
    have := le_of_mul_le_mul_left hle hms
    omega

/-- Months have fewer days than 30 by two at most, and then only one of them. -/
theorem length_range_of_month {n : ℤ} (hmonth : ∀ c ∈ series.range s e,
      ∃ m, c.startTime = millisecondsPerDay * Calendar.firstDay m)
    (he : e ≤ s + (n - 1) * (millisecondsPerDay * 30)) (hn : 1 ≤ n) :
    ((series.range s e).length : ℤ) ≤ n := by
  by_cases hne : series.range s e = []
  · rw [hne]
    simp only [List.length_nil, Nat.cast_zero]
    omega
  · have hstart : ∀ c ∈ series.range s e, c.startTime =
        millisecondsPerDay * Calendar.firstDay (Calendar.monthOf (c.startTime / millisecondsPerDay)) := by
      intro c hc
      obtain ⟨m, hm⟩ := hmonth c hc
      rw [hm, Int.mul_ediv_cancel_left _ (by decide), Calendar.monthOf_firstDay]
    have hmonths : (series.range s e).Pairwise fun c c' => Calendar.monthOf (c.startTime / millisecondsPerDay) + 1 ≤
        Calendar.monthOf (c'.startTime / millisecondsPerDay) := by
      refine List.Pairwise.imp_of_mem (fun {c c'} hc hc' hlt => ?_) (increasing_range s e)
      by_contra hgt
      have hle := Calendar.firstDay_le_iff.2 (show Calendar.monthOf (c'.startTime / millisecondsPerDay) ≤
        Calendar.monthOf (c.startTime / millisecondsPerDay) by omega)
      rw [hstart c hc, hstart c' hc'] at hlt
      unfold millisecondsPerDay at *
      omega
    obtain ⟨c, hc, c', hc', hfar⟩ := exists_far_apart hmonths hne
    have h₁ := (mem_range.1 hc).2.1
    have h₂ := (mem_range.1 hc').2.2
    have hpos := List.length_pos_iff.2 hne
    have hadd := Calendar.firstDay_add (Calendar.monthOf (c.startTime / millisecondsPerDay))
      (show 0 ≤ ((series.range s e).length - 1 : ℤ) by omega)
    have hle := Calendar.firstDay_le_iff.2 hfar
    rw [one_mul] at hle
    rw [hstart c hc] at h₁
    rw [hstart c' hc'] at h₂
    unfold millisecondsPerDay at *
    omega

end CandleSeries

/-! ## One delivery -/

/-- What is assumed of the candles from the start of the range on: they begin after 1970-01-01, and
those of months begin with a month, and before the last one that the calendar has. -/
structure Usual (query : PriceQuery) (series : CandleSeries query.interval) (fromTime : ℤ) : Prop where
  epoch : ∀ c ∈ series.candles, fromTime ≤ c.startTime → 0 < c.startTime
  month : query.interval = ._M → ∀ c ∈ series.candles, fromTime ≤ c.startTime →
    ∃ m, c.startTime = millisecondsPerDay * Calendar.firstDay m
  calendar : query.interval = ._M → ∀ c ∈ series.candles, fromTime ≤ c.startTime → c.startTime < lastMonthStart

theorem Usual.lt_next {query : PriceQuery} {series : CandleSeries query.interval} {fromTime : ℤ} {c : Candle}
    (h : Usual query series fromTime) (hc : c ∈ series.candles) (hle : fromTime ≤ c.startTime) :
    c.startTime < query.next c := by
  refine lt_nextCandleStart_iff.2 ?_
  by_cases hM : query.interval = ._M
  · exact Or.inr (h.calendar hM c hc hle)
  · exact Or.inl hM

/-- What is to be returned for a range. -/
structure Complete (query : PriceQuery) (series : CandleSeries query.interval) (fromTime : ℤ)
    (retVal : List Candle) : Prop where
  increasing : Increasing Candle.startTime retVal
  venue : ∀ c ∈ retVal, c ∈ series.candles ∧ fromTime ≤ c.startTime ∧ c.startTime ≤ query.toTime
  all : ∀ c ∈ series.candles, fromTime ≤ c.startTime → query.next c ≤ query.toTime → retVal.count c = 1

/-- All candles of the range are there up to the next request. -/
structure Progress (query : PriceQuery) (series : CandleSeries query.interval) (fromTime : ℤ) (s : Prices) :
    Prop where
  retVal : s.retVal = series.range fromTime (s.fromTime - 1)
  le_to : ∀ c ∈ s.retVal, c.startTime ≤ query.toTime
  from_le : fromTime ≤ s.fromTime

section Delivery

variable {query : PriceQuery} {series : CandleSeries query.interval} {fromTime e : ℤ} {s s' : Prices}
  {klines : ℕ → KlineRequest → Except Exception (List Candle)} {batch older : List Candle} {last : Candle}

theorem complete_range {retVal : List Candle} (h : retVal = series.range fromTime e)
    (hto : ∀ c ∈ retVal, c.startTime ≤ query.toTime)
    (hall : ∀ c ∈ series.candles, fromTime ≤ c.startTime → query.next c ≤ query.toTime → c.startTime ≤ e) :
    Complete query series fromTime retVal where
  increasing := h ▸ CandleSeries.increasing_range _ _
  venue := fun c hc => by
    have hmem := CandleSeries.mem_range.1 (h ▸ hc)
    exact ⟨hmem.1, hmem.2.1, hto c hc⟩
  all := fun c hc hle hnext => by
    have hmem : c ∈ retVal := h ▸ CandleSeries.mem_range.2 ⟨hc, hle, hall c hc hle hnext⟩
    have hnodup : retVal.Nodup := h ▸ (CandleSeries.increasing_range _ _).nodup
    exact List.count_eq_one_of_mem hnodup hmem

/-- The candles from the next request on can be left out where none of them is over at the end of the
range. -/
theorem Progress.complete (h : Progress query series fromTime s)
    (hrest : ∀ c ∈ series.candles, s.fromTime ≤ c.startTime → query.toTime < query.next c) :
    Complete query series fromTime s.retVal := by
  refine complete_range h.retVal h.le_to fun c hc _ hnext => ?_
  by_contra hgt
  have := hrest c hc (by omega)
  omega

theorem popOverlapping_append : popOverlapping query (older ++ [last]) =
    if query.toTime < query.next last then older else older ++ [last] := by
  simp [popOverlapping]

/-- Of a window, what is left without the last candle is again a window. -/
theorem popOverlapping_range (hbatch : batch = series.range s.fromTime e)
    (hpop : popOverlapping query batch = older ++ [last]) :
    last ∈ series.candles ∧ s.fromTime ≤ last.startTime ∧
      older ++ [last] = series.range s.fromTime last.startTime := by
  rcases List.eq_nil_or_concat batch with hnil | ⟨before, back, hback⟩
  · rw [hnil] at hpop
    cases older <;> cases hpop
  · rw [List.concat_eq_append] at hback
    rw [hback, popOverlapping_append] at hpop
    have hrange := CandleSeries.range_last (hbatch ▸ hback)
    split at hpop
    · obtain ⟨hmem, hle, -, heq⟩ := CandleSeries.range_last (hrange.2.2.1.trans hpop)
      exact ⟨hmem, hle, heq.symm⟩
    · obtain ⟨-, hlast⟩ := List.append_inj' hpop rfl
      obtain rfl := List.singleton_inj.1 hlast
      exact ⟨hrange.1, hrange.2.1, by rw [← hpop]; exact hrange.2.2.2.symm⟩

/-- If nothing is left, the one candle of the window is not over at the end of the range. -/
theorem popOverlapping_range_nil
    (hnext : ∀ c ∈ series.candles, s.fromTime ≤ c.startTime → c.startTime < query.next c)
    (hbatch : batch = series.range s.fromTime e) (hne : batch ≠ []) (hpop : popOverlapping query batch = []) :
    ∀ c ∈ series.candles, s.fromTime ≤ c.startTime → query.toTime < query.next c := by
  rcases List.eq_nil_or_concat batch with hnil | ⟨before, back, hback⟩
  · exact absurd hnil hne
  · rw [List.concat_eq_append] at hback
    rw [hback, popOverlapping_append] at hpop
    split at hpop
    next hto =>
      subst hpop
      obtain ⟨hmem, -, hbefore, -⟩ := CandleSeries.range_last (hbatch ▸ hback)
      intro c hc hle
      have hge : back.startTime ≤ c.startTime := by
        by_contra hlt
        have hin : c ∈ series.range s.fromTime (back.startTime - 1) :=
          CandleSeries.mem_range.2 ⟨hc, hle, by omega⟩
        rw [hbefore] at hin
        cases hin
      rcases hge.eq_or_lt with heq | hlt
      · rwa [PriceQuery.next, ← heq]
      · have h₁ := CandleSeries.next_le hmem hc hlt
        have h₂ := hnext c hc hle
        unfold PriceQuery.next at *
        omega
    · exact absurd hpop (by simp)

/-- **A batch that ends the download** leaves the range complete. -/
theorem Progress.delivery_ends {p : Prices} (h : Progress query series fromTime s)
    (hu : Usual query series fromTime) (hbatch : batch = series.range s.fromTime e) (hne : batch ≠ [])
    (hd : Delivery klines query s batch (.ok (.inr p))) : Complete query series fromTime p.retVal := by
  cases hd with
  | nothing hpop =>
    exact h.complete (popOverlapping_range_nil (fun c hc hle => hu.lt_next hc (h.from_le.trans hle)) hbatch hne hpop)
  | @beyond older last hpop hlast =>
    obtain ⟨hmem, hle, hrange⟩ := popOverlapping_range hbatch hpop
    have hfilter : ((older ++ [last]).filter fun candle => candle.startTime ≤ query.toTime) =
        series.range s.fromTime (max query.toTime (s.fromTime - 1)) := by
      refine Increasing.eq_of_mem_iff ?_ (CandleSeries.increasing_range _ _) fun c => ?_
      · rw [hrange]
        exact (CandleSeries.increasing_range _ _).sublist List.filter_sublist
      · rw [hrange, List.mem_filter, CandleSeries.mem_range, CandleSeries.mem_range, decide_eq_true_eq]
        constructor
        · rintro ⟨⟨hc, h₁, -⟩, h₂⟩
          exact ⟨hc, h₁, h₂.trans (le_max_left _ _)⟩
        · rintro ⟨hc, h₁, h₂⟩
          exact ⟨⟨hc, h₁, by omega⟩, by omega⟩
    have hret : (s.finish query (older ++ [last])).retVal =
        series.range fromTime (max query.toTime (s.fromTime - 1)) := by
      have hfrom := h.from_le
      rw [CandleSeries.range_split (m := s.fromTime - 1) (by omega) (le_max_right _ _), sub_add_cancel,
        ← hfilter, ← h.retVal]
      rfl
    refine complete_range hret (fun c hc => ?_) fun c hc hle hnext => ?_
    · rcases List.mem_append.1 hc with hc | hc
      · exact h.le_to c hc
      · simpa using (List.mem_filter.1 hc).2
    · exact ((hu.lt_next hc hle).trans_le hnext).le.trans (le_max_left _ _)

/-- **A batch within the range** takes the download on to a later request. -/
theorem Progress.delivery_goes (h : Progress query series fromTime s)
    (hu : Usual query series fromTime) (hbatch : batch = series.range s.fromTime e)
    (hd : Delivery klines query s batch (.ok (.inl s'))) :
    Progress query series fromTime s' ∧
      ∃ n answer, s'.candles = some answer ∧ klines n (query.request s'.fromTime 0) = .ok answer := by
  cases hd with
  | @within older last answer hpop hlast hask =>
    obtain ⟨hmem, hle, hrange⟩ := popOverlapping_range hbatch hpop
    have hlt := hu.lt_next hmem (h.from_le.trans hle)
    refine ⟨⟨?_, fun c hc => ?_, ?_⟩, _, answer, rfl, hask⟩
    · have hfrom := h.from_le
      change s.retVal ++ (older ++ [last]) =
        series.range fromTime (nextCandleStart last.startTime query.interval - 1)
      rw [CandleSeries.range_next hmem hlt, CandleSeries.range_split (m := s.fromTime - 1) (by omega) (by omega),
        sub_add_cancel, ← hrange, ← h.retVal]
    · rcases List.mem_append.1 hc with hc | hc
      · exact h.le_to c hc
      · rw [hrange] at hc
        exact (CandleSeries.mem_range.1 hc).2.2.trans hlast
    · exact h.from_le.trans (hle.trans hlt.le)

end Delivery

/-! ## The whole download -/

section Download

variable {query : PriceQuery} {series : CandleSeries query.interval} {fromTime e windowEnd : ℤ} {s s' : Prices}
  {klines : ℕ → KlineRequest → Except Exception (List Candle)} {answer : List Candle}

theorem getD_limit (query : PriceQuery) (startTime endTime : ℤ) :
    (query.request startTime endTime).limit.getD 200 = query.limit := by
  unfold PriceQuery.request
  by_cases h : query.limit = 200 <;> simp [h]

theorem Usual.length_window (h : Usual query series fromTime) (hlimit : 1 ≤ query.limit)
    (hfrom : fromTime ≤ s.fromTime) (hend : windowEnd ≤ s.fromTime + query.windowMs) :
    ((series.range s.fromTime windowEnd).length : ℤ) ≤ query.limit := by
  by_cases hM : query.interval = ._M
  · refine CandleSeries.length_range_of_month (fun c hc => ?_) ?_ hlimit
    · obtain ⟨hmem, hle, -⟩ := CandleSeries.mem_range.1 hc
      exact h.month hM c hmem (hfrom.trans hle)
    · simpa [PriceQuery.windowMs, hM, numberOfMsForCandleInterval] using hend
  · refine CandleSeries.length_range_of_ms (numberOfMs_pos query.interval) ?_ hend hlimit
    refine (series.spaced.sublist List.filter_sublist).imp fun hnext => ?_
    simpa [nextCandleStart, hM] using hnext

/-- An answer to a probe that is not too old is a window of the series. -/
theorem probe_kept (hu : Usual query series fromTime) (hlimit : 1 ≤ query.limit) (hfrom : fromTime ≤ s.fromTime)
    (hend : windowEnd ≤ s.fromTime + query.windowMs)
    (ha : series.Allows (query.request s.fromTime windowEnd) answer) (hkept : kept s.fromTime answer ≠ []) :
    ∃ e, kept s.fromTime answer = series.range s.fromTime e := by
  by_cases hpos : windowEnd > 0
  · have hanchor : (query.request s.fromTime windowEnd).endTime = some windowEnd := by
      simp [PriceQuery.request, hpos]
    refine ⟨windowEnd, (ha.increasing_kept _).eq_of_mem_iff (CandleSeries.increasing_range _ _) fun c => ?_⟩
    rw [mem_kept, CandleSeries.mem_range]
    constructor
    · rintro ⟨hc, hle⟩
      exact ⟨ha.venue c hc, hle, ha.not_after _ hanchor c hc⟩
    · rintro ⟨hc, hle, hle'⟩
      refine ⟨ha.window _ hanchor ?_ c (CandleSeries.mem_range.2 ⟨hc, hle, hle'⟩), hle⟩
      rw [getD_limit]
      exact hu.length_window hlimit hfrom hend
  · exact ha.run (by simp [PriceQuery.request, hpos]) hkept

/-- If they are all too old, no candle begins in the window. -/
theorem probe_empty (hu : Usual query series fromTime) (hlimit : 1 ≤ query.limit) (hfrom : fromTime ≤ s.fromTime)
    (hend : windowEnd ≤ s.fromTime + query.windowMs)
    (ha : series.Allows (query.request s.fromTime windowEnd) answer) (hkept : kept s.fromTime answer = []) :
    series.range s.fromTime windowEnd = [] := by
  refine List.eq_nil_iff_forall_not_mem.2 fun c hc => ?_
  obtain ⟨hmem, hle, hle'⟩ := CandleSeries.mem_range.1 hc
  have hpos : windowEnd > 0 := (hu.epoch c hmem (hfrom.trans hle)).trans_le hle'
  have hin : c ∈ answer := by
    refine ha.window windowEnd (by simp [PriceQuery.request, hpos]) ?_ c hc
    rw [getD_limit]
    exact hu.length_window hlimit hfrom hend
  have : c ∈ kept s.fromTime answer := mem_kept.2 ⟨hin, hle⟩
  rw [hkept] at this
  cases this

/-- A window without a candle is passed over. -/
theorem Progress.skip {t : Prices} (h : Progress query series fromTime s) (hret : t.retVal = s.retVal)
    (ht : t.fromTime = windowEnd + 1) (hle : s.fromTime ≤ windowEnd)
    (hnil : series.range s.fromTime windowEnd = []) : Progress query series fromTime t where
  retVal := by
    have hfrom := h.from_le
    rw [hret, ht, add_sub_cancel_right, CandleSeries.range_split (m := s.fromTime - 1) (by omega) (by omega),
      sub_add_cancel, hnil, List.append_nil, h.retVal]
  le_to := hret ▸ h.le_to
  from_le := by
    have := h.from_le
    omega

/-- The invariant of the loop: progress, and the batch at hand is the answer to an open-ended
request. -/
structure Loaded (query : PriceQuery) (series : CandleSeries query.interval) (fromTime : ℤ) (s : Prices) : Prop
    extends Progress query series fromTime s where
  answer : ∀ answer, s.candles = some answer → series.Allows (query.request s.fromTime 0) answer

theorem round_of_loaded (h : Loaded query series fromTime s)
    (hklines : ∀ n request answer, klines n request = .ok answer → series.Allows request answer) :
    Round klines query s (s.round klines query) := by
  cases hc : s.candles with
  | none => exact probe_round hc fun n request answer ha => (hklines n request answer ha).newestFirst
  | some answer => exact page_round hc (h.answer answer hc).newestFirst

/-- An answer to an open-ended request that is not too old is a window of the series. -/
theorem Loaded.kept (h : Loaded query series fromTime s) (hc : s.candles = some answer)
    (hkept : kept s.fromTime answer ≠ []) : ∃ e, Rest.kept s.fromTime answer = series.range s.fromTime e :=
  (h.answer answer hc).run (by simp [PriceQuery.request]) hkept

/-- **A round that goes on** keeps the invariant. -/
theorem Loaded.goes (h : Loaded query series fromTime s) (hu : Usual query series fromTime)
    (hlimit : 1 ≤ query.limit)
    (hklines : ∀ n request answer, klines n request = .ok answer → series.Allows request answer)
    (hr : Round klines query s (.ok (.inl s'))) : Loaded query series fromTime s' := by
  cases hr with
  | stale hc hkept => exact ⟨⟨h.retVal, h.le_to, h.from_le⟩, fun answer ha => by cases ha⟩
  | page hc hkept hd =>
    obtain ⟨e, hrange⟩ := h.kept hc hkept
    obtain ⟨hp, n, answer', hc', hask⟩ := h.toProgress.delivery_goes hu hrange hd
    refine ⟨hp, fun a ha => ?_⟩
    rw [hc'] at ha
    obtain rfl := Option.some.inj ha
    exact hklines _ _ _ hask
  | @skip answer windowEnd hc hto hend hask hkept =>
    have hms := windowMs_nonneg hlimit
    have hle : s.fromTime ≤ windowEnd := by omega
    have hnil := probe_empty hu hlimit h.from_le (by omega) (hklines _ _ _ hask) hkept
    exact ⟨h.toProgress.skip rfl rfl hle hnil, fun a ha => by cases ha⟩
  | @found answer windowEnd _ hc hto hend hask hkept hd =>
    obtain ⟨e, hrange⟩ := probe_kept hu hlimit h.from_le (by omega) (hklines _ _ _ hask) hkept
    have hp : Progress query series fromTime (s.asked query windowEnd answer) := ⟨h.retVal, h.le_to, h.from_le⟩
    obtain ⟨hp', n, answer', hc', hask'⟩ := hp.delivery_goes hu hrange hd
    refine ⟨hp', fun a ha => ?_⟩
    rw [hc'] at ha
    obtain rfl := Option.some.inj ha
    exact hklines _ _ _ hask'

/-- **A round that ends the loop** leaves the range complete. -/
theorem Loaded.ends (h : Loaded query series fromTime s) (hu : Usual query series fromTime)
    (hlimit : 1 ≤ query.limit)
    (hklines : ∀ n request answer, klines n request = .ok answer → series.Allows request answer)
    (hr : Round klines query s (.ok (.inr s'))) : Complete query series fromTime s'.retVal := by
  cases hr with
  | empty hc =>
    refine h.toProgress.complete fun c hmem hle => ?_
    have hlt := (h.answer [] hc).empty (by simp [PriceQuery.request]) rfl c hmem
    exact absurd hlt (not_lt.2 hle)
  | page hc hkept hd =>
    obtain ⟨e, hrange⟩ := h.kept hc hkept
    exact h.toProgress.delivery_ends hu hrange hkept hd
  | exhausted hc hto =>
    refine h.toProgress.complete fun c hmem hle => ?_
    exact (hto.trans_le hle).trans (hu.lt_next hmem (h.from_le.trans hle))
  | @found answer windowEnd _ hc hto hend hask hkept hd =>
    obtain ⟨e, hrange⟩ := probe_kept hu hlimit h.from_le (by omega) (hklines _ _ _ hask) hkept
    have hp : Progress query series fromTime (s.asked query windowEnd answer) := ⟨h.retVal, h.le_to, h.from_le⟩
    exact hp.delivery_ends hu hrange hkept hd

/-- It throws only where a request fails. -/
theorem Round.error {e : Exception} (hr : Round klines query s (.error e)) :
    ∃ n request, klines n request = .error e := by
  have hdelivery : ∀ {s : Prices} {batch : List Candle}, Delivery klines query s batch (.error e) →
      ∃ n request, klines n request = .error e := by
    intro s batch hd
    cases hd with
    | failed hpop hlast hask => exact ⟨_, _, hask⟩
  cases hr with
  | page hc hkept hd => exact hdelivery hd
  | failed hc hto hask => exact ⟨_, _, hask⟩
  | found hc hto hend hask hkept hd => exact hdelivery hd

/-- **Historical prices.** Where every request is answered, the download ends, and what it returns
is complete. -/
theorem getHistoricalPrices_complete (query : PriceQuery) (series : CandleSeries query.interval) (fromTime : ℤ)
    (klines : ℕ → KlineRequest → Except Exception (List Candle)) (hlimit : 1 ≤ query.limit)
    (hklines : ∀ n request, ∃ answer, klines n request = .ok answer ∧ series.Allows request answer)
    (hu : Usual query series fromTime) :
    ∃ rounds prices, getHistoricalPrices klines query fromTime rounds = some (.ok prices) ∧
      Complete query series fromTime prices.retVal := by
  have hallows : ∀ n request answer, klines n request = .ok answer → series.Allows request answer := by
    intro n request answer ha
    obtain ⟨answer', ha', hallows⟩ := hklines n request
    rw [ha] at ha'
    exact Except.ok.inj ha' ▸ hallows
  have hnofail : ∀ n request e, klines n request ≠ .error e := by
    intro n request e he
    obtain ⟨answer, ha, -⟩ := hklines n request
    rw [he] at ha
    cases ha
  obtain ⟨answer, hask, hanswer⟩ := hklines 0 (query.request fromTime 0)
  have hloaded : Loaded query series fromTime (Prices.first query fromTime answer) := by
    refine ⟨⟨(between_of_lt (show fromTime - 1 < fromTime by omega)).symm, fun c hc => absurd hc List.not_mem_nil,
      le_rfl⟩, ?_⟩
    rintro a ⟨⟩
    exact hanswer
  have hround : ∀ {s r}, Loaded query series fromTime s → s.round klines query = r → Round klines query s r :=
    fun hs hr => hr ▸ round_of_loaded hs hallows
  have honward : ∀ {s answer request}, Loaded query series fromTime s → series.Allows request answer →
      Onward query s.fromTime answer :=
    fun hs ha c hc hle _ => hu.lt_next (ha.venue c hc) (hs.from_le.trans hle)
  obtain ⟨r, hends⟩ := Ends.of_variant (remaining query) hloaded fun s s' hs hr =>
    ⟨hs.goes hu hlimit hallows (hround hs hr), (hround hs hr).remaining_lt hlimit
      (fun answer hc => honward hs (hs.answer answer hc))
      fun n request answer ha => honward hs (hallows n request answer ha)⟩
  obtain ⟨p, rfl, hcomplete⟩ : ∃ p, r = .ok p ∧ Complete query series fromTime p.retVal := by
    refine hends.invariant (Q := fun r => ∃ p, r = .ok p ∧ Complete query series fromTime p.retVal) hloaded
      (fun s s' hs hr => hs.goes hu hlimit hallows (hround hs hr)) (fun s p hs hr => ?_) (fun s e hs hr => ?_)
    · exact ⟨p, rfl, hs.ends hu hlimit hallows (hround hs hr)⟩
    · obtain ⟨n, request, he⟩ := (hround hs hr).error
      exact absurd he (hnofail n request e)
  obtain ⟨rounds, hrounds⟩ := hends
  exact ⟨rounds, p, (getHistoricalPrices_of_first rounds hask).trans hrounds, hcomplete⟩

end Download

/-! ## Downloads -/

/-- A venue that answers an open-ended request with its first candle, whatever the start. -/
def CandleSeries.answer {interval : CandleInterval} (series : CandleSeries interval) (request : KlineRequest) :
    List Candle :=
  match request.endTime with
  | some e => (series.candles.filter fun c => c.startTime ≤ e).reverse.take (request.limit.getD 200).toNat
  | none => series.candles.take 1

namespace CandleSeries

variable {interval : CandleInterval} (series : CandleSeries interval) {request : KlineRequest}

theorem allows_open (h : request.endTime = none) : series.Allows request (series.answer request) := by
  have hanchor : ∀ e, request.endTime ≠ some e := fun e he => by rw [h] at he; cases he
  have hanswer : series.answer request = series.candles.take 1 := by simp only [answer, h]
  rw [hanswer]
  cases hc : series.candles with
  | nil =>
    exact ⟨List.Pairwise.nil, fun c hmem => absurd hmem List.not_mem_nil, fun _ hne => absurd rfl hne,
      fun e he => absurd he (hanchor e), fun e he => absurd he (hanchor e),
      fun _ _ c hmem => absurd (hc ▸ hmem) List.not_mem_nil⟩
  | cons first later =>
    have hinc := hc ▸ series.increasing
    have hfirst : first ∈ series.candles := hc ▸ List.mem_cons_self
    refine ⟨List.pairwise_singleton _ _, fun c hmem => ?_, fun _ hne => ⟨first.startTime, ?_⟩,
      fun e he => absurd he (hanchor e), fun e he => absurd he (hanchor e), fun _ hnil => by cases hnil⟩
    · obtain rfl := List.mem_singleton.1 hmem
      exact hfirst
    · have hsingle : Increasing Candle.startTime (kept request.start [first]) :=
        (List.pairwise_singleton _ _).sublist List.filter_sublist
      refine hsingle.eq_of_mem_iff (increasing_range _ _) fun c => ?_
      rw [mem_kept, mem_range, List.mem_singleton]
      constructor
      · rintro ⟨rfl, hle⟩
        exact ⟨hfirst, hle, le_rfl⟩
      · rintro ⟨hmem, hle, hle'⟩
        rcases List.mem_cons.1 (hc ▸ hmem) with rfl | hlater
        · exact ⟨rfl, hle⟩
        · exact absurd (List.rel_of_pairwise_cons hinc hlater) (not_lt.2 hle')

theorem allows_anchored {e : ℤ} (h : request.endTime = some e) :
    series.Allows request (series.answer request) := by
  obtain ⟨older, holder⟩ : ∃ older, older = series.candles.filter fun c => c.startTime ≤ e := ⟨_, rfl⟩
  have hanswer : series.answer request = older.reverse.take (request.limit.getD 200).toNat := by
    simp only [answer, h, holder]
  have hinc : Increasing Candle.startTime older := holder ▸ series.increasing.sublist List.filter_sublist
  have hmem : ∀ c ∈ series.answer request, c ∈ series.candles ∧ c.startTime ≤ e := fun c hc => by
    have := List.mem_reverse.1 (List.mem_of_mem_take (hanswer ▸ hc))
    simpa [holder] using this
  have hanchor : request.endTime ≠ none := by rw [h]; exact Option.some_ne_none e
  refine ⟨?_, fun c hc => (hmem c hc).1, fun hnone => absurd hnone hanchor, fun e' he' c hc => ?_,
    fun e' he' hlen c hc => ?_, fun hnone => absurd hnone hanchor⟩
  · rw [hanswer]
    refine hinc.sublist ?_
    simpa using (List.take_sublist _ older.reverse).reverse
  · rw [h] at he'
    obtain rfl := Option.some.inj he'
    exact (hmem c hc).2
  · rw [h] at he'
    obtain rfl := Option.some.inj he'
    have hrange : series.range request.start e = older.dropWhile fun c => c.startTime < request.start := by
      rw [dropWhile_eq_filter (hinc.imp fun hlt => hlt.le), holder, List.filter_filter]
      refine List.filter_congr fun c _ => ?_
      simp
    have hsplit := List.takeWhile_append_dropWhile (p := fun c : Candle => c.startTime < request.start) (l := older)
    rw [← hrange] at hsplit
    rw [hanswer, ← hsplit, List.reverse_append, List.take_append, List.mem_append]
    refine Or.inl ?_
    rw [List.take_of_length_le (by rw [List.length_reverse]; omega), List.mem_reverse]
    exact hc

theorem allows_answer (request : KlineRequest) : series.Allows request (series.answer request) := by
  cases h : request.endTime with
  | none => exact series.allows_open h
  | some e => exact series.allows_anchored h

end CandleSeries

/-- A symbol that was delisted on 2021-11-29 and is listed again on 2021-12-07. -/
def relisted : CandleSeries ._D where
  candles := [candleAt (18960 * 86400000), candleAt (18968 * 86400000)]
  increasing := List.pairwise_pair.2 (by decide)
  spaced := List.pairwise_pair.2 (by decide)

def relistedQuery : PriceQuery := ⟨.linear, "SHIB1000USDT", ._D, 18970 * 86400000, 3⟩

/-- From the gap between the two listings, the second one is found. -/
theorem getHistoricalPrices_complete_relisted : ∃ rounds prices,
    getHistoricalPrices (fun _ request => .ok (relisted.answer request)) relistedQuery (18962 * 86400000) rounds =
        some (.ok prices) ∧
      Complete relistedQuery relisted (18962 * 86400000) prices.retVal :=
  getHistoricalPrices_complete relistedQuery relisted _ _ (by decide)
    (fun _ request => ⟨_, rfl, relisted.allows_answer request⟩)
    ⟨by decide, nofun, nofun⟩

/-- Months, the second of which begins on 2023-01-31 at noon. -/
def offMonth : CandleSeries ._M where
  candles := [candleAt (19327 * 86400000), candleAt (19388 * 86400000 + 43200000), candleAt (19389 * 86400000),
    candleAt (19417 * 86400000)]
  increasing := by decide
  spaced := by decide

def offMonthQuery : PriceQuery := ⟨.linear, "BTCUSDT", ._M, 19500 * 86400000, 2⟩

/-- A symbol that is listed again at the first millisecond of 1970. -/
def atEpoch : CandleSeries ._1 where
  candles := [candleAt (-120000), candleAt 0]
  increasing := by decide
  spaced := by decide

def atEpochQuery : PriceQuery := ⟨.linear, "BTCUSDT", ._1, 60000, 2⟩

/-- A symbol that is listed in the last month that the calendar has. -/
def atCalendarEnd : CandleSeries ._M where
  candles := [candleAt lastMonthStart]
  increasing := by decide
  spaced := by decide

def atCalendarEndQuery : PriceQuery := ⟨.linear, "BTCUSDT", ._M, lastMonthStart, 200⟩

/-- All requests are answered as assumed, and the download is not complete. -/
def Loses (query : PriceQuery) (series : CandleSeries query.interval) (fromTime : ℤ) : Prop :=
  1 ≤ query.limit ∧ fromTime ≤ query.toTime ∧
    (∀ request, series.Allows request (series.answer request)) ∧
      ¬ ∃ rounds prices, getHistoricalPrices (fun _ request => .ok (series.answer request)) query fromTime rounds =
        some (.ok prices) ∧ Complete query series fromTime prices.retVal

theorem loses_of_run {query : PriceQuery} {series : CandleSeries query.interval} {fromTime : ℤ} {prices : Prices}
    (rounds : ℕ) (c : Candle) (hlimit : 1 ≤ query.limit) (hto : fromTime ≤ query.toTime)
    (hrun : getHistoricalPrices (fun _ request => .ok (series.answer request)) query fromTime rounds =
      some (.ok prices))
    (hc : c ∈ series.candles) (hfrom : fromTime ≤ c.startTime) (hnext : query.next c ≤ query.toTime)
    (hlost : c ∉ prices.retVal) : Loses query series fromTime := by
  refine ⟨hlimit, hto, series.allows_answer, ?_⟩
  rintro ⟨rounds', prices', hrun', hcomplete⟩
  obtain ⟨answer, hask, hends⟩ := getHistoricalPrices_ok hrun
  obtain ⟨answer', hask', hends'⟩ := getHistoricalPrices_ok hrun'
  obtain rfl := Except.ok.inj (hask.symm.trans hask')
  obtain rfl := Except.ok.inj (hends.unique hends')
  have hcount := hcomplete.all c hc hfrom hnext
  rw [List.count_eq_zero.2 hlost] at hcount
  cases hcount

/-- A window of 30 days has three of these months, a window that ends at 0 is not asked for, and behind
the last month the download begins again. -/
theorem candle_lost : Loses offMonthQuery offMonth (19388 * 86400000) ∧ Loses atEpochQuery atEpoch (-60000) ∧
    Loses atCalendarEndQuery atCalendarEnd lastMonthStart := by
  refine ⟨?_, ?_, ?_⟩
  · exact loses_of_run 10 (candleAt (19388 * 86400000 + 43200000)) (by decide) (by decide) rfl
      (by decide) (by decide) (by decide) (by decide)
  · exact loses_of_run 10 (candleAt 0) (by decide) (by decide) rfl
      (by decide) (by decide) (by decide) (by decide)
  · refine ⟨by decide, le_rfl, atCalendarEnd.allows_answer, ?_⟩
    rintro ⟨rounds, prices, hrun, -⟩
    have hnever : atCalendarEndQuery.next (candleAt lastMonthStart) ≤ lastMonthStart := by decide
    cases hrun.symm.trans (getHistoricalPrices_never (fun _ _ => rfl) le_rfl le_rfl hnever rounds)

end BybitApi.Rest
