import BybitApi.Rest.Candles

/-!
# The rounds of a download

What one round of `getHistoricalPrices` does with an answer that is sorted newest first. Of an
answer it uses the candles that are not too old, oldest first; a batch of them is delivered in one
of the ways of `Delivery`.
-/

namespace BybitApi.Rest

open Lib

def NewestFirst (answer : List Candle) : Prop := answer.Pairwise fun c c' => c'.startTime ≤ c.startTime

/-- The candles of an answer that are not too old, oldest first. -/
def kept (fromTime : ℤ) (answer : List Candle) : List Candle :=
  answer.reverse.filter fun candle => fromTime ≤ candle.startTime

section Kept

variable {answer : List Candle} {fromTime : ℤ}

theorem NewestFirst.reverse (h : NewestFirst answer) :
    answer.reverse.Pairwise fun c c' => c.startTime ≤ c'.startTime := List.pairwise_reverse.2 h

theorem mem_kept {c : Candle} : c ∈ kept fromTime answer ↔ c ∈ answer ∧ fromTime ≤ c.startTime := by
  simp [kept]

theorem NewestFirst.trimmed_eq (h : NewestFirst answer) : trimmed fromTime answer.reverse = kept fromTime answer :=
  dropWhile_eq_filter h.reverse

/-- Nothing is too old where the oldest is not. -/
theorem NewestFirst.kept_of_front {front : Candle} (h : NewestFirst answer)
    (hfront : answer.reverse.head? = some front) (hle : fromTime ≤ front.startTime) :
    kept fromTime answer = answer.reverse := by
  refine List.filter_eq_self.2 fun c hc => ?_
  obtain ⟨rest, hrev⟩ := List.head?_eq_some_iff.1 hfront
  have hsorted := hrev ▸ h.reverse
  rw [hrev] at hc
  rcases List.mem_cons.1 hc with rfl | hc
  · simpa using hle
  · have := List.rel_of_pairwise_cons hsorted hc
    simp only [decide_eq_true_eq]
    omega

/-- Everything is too old where the newest is. -/
theorem NewestFirst.kept_eq_nil_iff {back : Candle} (h : NewestFirst answer)
    (hback : answer.reverse.getLast? = some back) : kept fromTime answer = [] ↔ back.startTime < fromTime := by
  obtain ⟨older, hrev⟩ := List.getLast?_eq_some_iff.1 hback
  have hsorted := List.pairwise_append.1 (hrev ▸ h.reverse)
  rw [kept, List.filter_eq_nil_iff, hrev]
  constructor
  · intro hall
    simpa using hall back (by simp)
  · intro hlt c hc
    rcases List.mem_append.1 hc with hc | hc
    · have := hsorted.2.2 c hc back List.mem_cons_self
      simp only [decide_eq_true_eq]
      omega
    · obtain rfl := List.mem_singleton.1 hc
      simpa using hlt

end Kept

section Rounds

variable {klines : ℕ → KlineRequest → Except Exception (List Candle)} {query : PriceQuery} {s : Prices}
  {answer batch : List Candle} {r : Except Exception (Prices ⊕ Prices)}

/-- The state after a request and its answer. -/
def Prices.asked (query : PriceQuery) (s : Prices) (endTime : ℤ) (answer : List Candle) : Prices :=
  { s with answers := s.answers ++ [(query.request s.fromTime endTime, answer)], candles := some answer }

/-- The state after a batch within the range. -/
def Prices.append (query : PriceQuery) (s : Prices) (candles : List Candle) (last : Candle) : Prices :=
  { s with retVal := s.retVal ++ candles, written := s.written ++ [candles], fromTime := query.next last }

/-- The state after a batch that goes beyond the range. -/
def Prices.finish (query : PriceQuery) (s : Prices) (candles : List Candle) : Prices :=
  { s with
    retVal := s.retVal ++ candles.filter fun candle => candle.startTime ≤ query.toTime
    written := s.written ++ [candles] }

theorem ask_eq (s : Prices) (endTime : ℤ) : s.ask klines query endTime =
    (klines s.answers.length (query.request s.fromTime endTime)).map fun answer =>
      (answer, s.asked query endTime answer) := rfl

/-- The state after the first request. -/
def Prices.first (query : PriceQuery) (fromTime : ℤ) (answer : List Candle) : Prices :=
  Prices.asked query ⟨[], [], [], fromTime, none⟩ 0 answer

theorem getHistoricalPrices_eq (fromTime : ℤ) (rounds : ℕ) : getHistoricalPrices klines query fromTime rounds =
    match klines 0 (query.request fromTime 0) with
    | .error e => some (.error e)
    | .ok answer => loop (Prices.round klines query) rounds (Prices.first query fromTime answer) := by
  cases hask : klines 0 (query.request fromTime 0) <;>
    simp only [getHistoricalPrices, ask_eq, List.length_nil, hask, Except.map, Prices.first]

theorem getHistoricalPrices_of_first {fromTime : ℤ} (rounds : ℕ)
    (hask : klines 0 (query.request fromTime 0) = .ok answer) : getHistoricalPrices klines query fromTime rounds =
      loop (Prices.round klines query) rounds (Prices.first query fromTime answer) := by
  rw [getHistoricalPrices_eq, hask]

/-- A download that returns had an answer to its first request, and its loop ended. -/
theorem getHistoricalPrices_ok {fromTime : ℤ} {rounds : ℕ} {p : Prices}
    (h : getHistoricalPrices klines query fromTime rounds = some (.ok p)) :
    ∃ answer, klines 0 (query.request fromTime 0) = .ok answer ∧
      Ends (Prices.round klines query) (Prices.first query fromTime answer) (.ok p) := by
  cases hask : klines 0 (query.request fromTime 0) with
  | error e =>
    rw [getHistoricalPrices_eq, hask] at h
    cases h
  | ok answer => exact ⟨answer, rfl, rounds, (getHistoricalPrices_of_first rounds hask).symm.trans h⟩

/-- How a batch is delivered. -/
inductive Delivery (klines : ℕ → KlineRequest → Except Exception (List Candle)) (query : PriceQuery)
    (s : Prices) (batch : List Candle) : Except Exception (Prices ⊕ Prices) → Prop where
  | nothing (hpop : popOverlapping query batch = []) : Delivery klines query s batch (.ok (.inr s))
  | beyond {older : List Candle} {last : Candle} (hpop : popOverlapping query batch = older ++ [last])
      (hlast : query.toTime < last.startTime) :
    Delivery klines query s batch (.ok (.inr (s.finish query (older ++ [last]))))
  | failed {older : List Candle} {last : Candle} {e : Exception}
      (hpop : popOverlapping query batch = older ++ [last]) (hlast : last.startTime ≤ query.toTime)
      (hask : klines s.answers.length (query.request (query.next last) 0) = .error e) :
    Delivery klines query s batch (.error e)
  | within {older : List Candle} {last : Candle} {answer : List Candle}
      (hpop : popOverlapping query batch = older ++ [last]) (hlast : last.startTime ≤ query.toTime)
      (hask : klines s.answers.length (query.request (query.next last) 0) = .ok answer) :
    Delivery klines query s batch (.ok (.inl ((s.append query (older ++ [last]) last).asked query 0 answer)))

theorem delivery (s : Prices) (batch : List Candle) :
    Delivery klines query s batch (s.deliver klines query batch) := by
  cases hlast : (popOverlapping query batch).getLast? with
  | none =>
    simp only [Prices.deliver, hlast]
    exact .nothing (List.getLast?_eq_none_iff.1 hlast)
  | some last =>
    obtain ⟨older, hpop⟩ := List.getLast?_eq_some_iff.1 hlast
    simp only [Prices.deliver, hlast]
    split
    next hlt =>
      rw [hpop]
      exact .beyond hpop hlt
    next hle =>
      rw [ask_eq, hpop]
      change Delivery klines query s batch (Except.map _ (Except.map _ (klines s.answers.length
        (query.request (query.next last) 0))))
      cases hask : klines s.answers.length (query.request (query.next last) 0) with
      | error e => exact .failed hpop (not_lt.1 hle) hask
      | ok answer => exact .within hpop (not_lt.1 hle) hask

/-- What a round does. -/
inductive Round (klines : ℕ → KlineRequest → Except Exception (List Candle)) (query : PriceQuery) (s : Prices) :
    Except Exception (Prices ⊕ Prices) → Prop where
  | empty (h : s.candles = some []) : Round klines query s (.ok (.inr s))
  | stale {answer : List Candle} (h : s.candles = some answer) (hkept : kept s.fromTime answer = []) :
    Round klines query s (.ok (.inl { s with candles := none }))
  | page {answer : List Candle} {r : Except Exception (Prices ⊕ Prices)} (h : s.candles = some answer)
      (hkept : kept s.fromTime answer ≠ []) (hr : Delivery klines query s (kept s.fromTime answer) r) :
    Round klines query s r
  | exhausted (h : s.candles = none) (hto : query.toTime < s.fromTime) : Round klines query s (.ok (.inr s))
  | failed {windowEnd : ℤ} {e : Exception} (h : s.candles = none) (hto : s.fromTime ≤ query.toTime)
      (hask : klines s.answers.length (query.request s.fromTime windowEnd) = .error e) :
    Round klines query s (.error e)
  | skip {answer : List Candle} {windowEnd : ℤ} (h : s.candles = none) (hto : s.fromTime ≤ query.toTime)
      (hend : windowEnd = min query.toTime (s.fromTime + query.windowMs))
      (hask : klines s.answers.length (query.request s.fromTime windowEnd) = .ok answer)
      (hkept : kept s.fromTime answer = []) :
    Round klines query s
      (.ok (.inl { s.asked query windowEnd answer with fromTime := windowEnd + 1, candles := none }))
  | found {answer : List Candle} {windowEnd : ℤ} {r : Except Exception (Prices ⊕ Prices)} (h : s.candles = none)
      (hto : s.fromTime ≤ query.toTime) (hend : windowEnd = min query.toTime (s.fromTime + query.windowMs))
      (hask : klines s.answers.length (query.request s.fromTime windowEnd) = .ok answer)
      (hkept : kept s.fromTime answer ≠ [])
      (hr : Delivery klines query (s.asked query windowEnd answer) (kept s.fromTime answer) r) :
    Round klines query s r

/-- The first and the last of a list that is not empty. -/
theorem exists_front_back (hne : batch ≠ []) :
    ∃ front back, batch.head? = some front ∧ batch.getLast? = some back :=
  ⟨batch.head hne, batch.getLast hne, List.head?_eq_some_head hne, List.getLast?_eq_some_getLast hne⟩

theorem page_round (h : s.candles = some answer) (hsorted : NewestFirst answer) :
    Round klines query s (s.round klines query) := by
  by_cases hnil : answer = []
  · subst hnil
    simp only [Prices.round, h, List.reverse_nil, List.head?_nil]
    exact .empty h
  · obtain ⟨front, back, hfront, hback⟩ :=
      exists_front_back (show answer.reverse ≠ [] from fun hrev => hnil (List.reverse_eq_nil_iff.1 hrev))
    have hkept : kept s.fromTime answer = [] ↔ back.startTime < s.fromTime := hsorted.kept_eq_nil_iff hback
    simp only [Prices.round, h, hfront, hback]
    split
    next hlt =>
      split
      next hback' => exact .stale h (hkept.2 hback')
      next hback' =>
        rw [hsorted.trimmed_eq]
        exact .page h (fun hk => hback' (hkept.1 hk)) (delivery s _)
    next hle =>
      have heq := hsorted.kept_of_front hfront (not_lt.1 hle)
      rw [← heq]
      refine .page h (fun hk => ?_) (delivery s _)
      rw [heq, List.reverse_eq_nil_iff] at hk
      exact hnil hk

theorem probe_round (h : s.candles = none) (hsorted : ∀ n request answer, klines n request = .ok answer →
    NewestFirst answer) : Round klines query s (s.round klines query) := by
  simp only [Prices.round, h, ask_eq]
  split
  next hlt => exact .exhausted h hlt
  next hle =>
    cases hask : klines s.answers.length
        (query.request s.fromTime (min query.toTime (s.fromTime + query.windowMs))) with
    | error e => exact .failed h (not_lt.1 hle) hask
    | ok answer =>
      have hanswer := hsorted _ _ _ hask
      simp only [Except.map]
      cases hback : answer.reverse.getLast? with
      | none =>
        have hnil : answer = [] := List.reverse_eq_nil_iff.1 (List.getLast?_eq_none_iff.1 hback)
        simp only [Option.any_none, Bool.false_eq_true, if_false]
        exact .skip h (not_lt.1 hle) rfl hask (by simp [kept, hnil])
      | some back =>
        have hkept : kept s.fromTime answer = [] ↔ back.startTime < s.fromTime := hanswer.kept_eq_nil_iff hback
        simp only [Option.any_some, decide_eq_true_eq]
        split
        next hfound =>
          rw [hanswer.trimmed_eq]
          exact .found h (not_lt.1 hle) rfl hask (fun hk => absurd (hkept.1 hk) (not_lt.2 hfound)) (delivery _ _)
        next hnot => exact .skip h (not_lt.1 hle) rfl hask (hkept.2 (not_le.1 hnot))

end Rounds

/-! ## Every round brings the end nearer -/

section Remaining

variable {klines : ℕ → KlineRequest → Except Exception (List Candle)} {query : PriceQuery} {s s' : Prices}
  {answer batch : List Candle} {c : Candle}

theorem windowMs_nonneg (hlimit : 1 ≤ query.limit) : 0 ≤ query.windowMs :=
  mul_nonneg (sub_nonneg.2 hlimit) (numberOfMs_pos _).le

/-- It grows less with every round: twice what is left of the range, and one for the batch at hand. -/
def remaining (query : PriceQuery) (s : Prices) : ℕ :=
  2 * (query.toTime + 2 - s.fromTime).toNat + if s.candles.isSome then 1 else 0

theorem mem_of_popOverlapping (h : c ∈ popOverlapping query batch) : c ∈ batch := by
  unfold popOverlapping at h
  split at h
  · split at h
    · exact List.dropLast_subset batch h
    · exact h
  · exact h

/-- The candles of an answer that the download may go on behind are followed by a later one. -/
def Onward (query : PriceQuery) (fromTime : ℤ) (answer : List Candle) : Prop :=
  ∀ c ∈ answer, fromTime ≤ c.startTime → c.startTime ≤ query.toTime → c.startTime < query.next c

/-- The next request begins behind a candle of the batch. -/
theorem Delivery.goes (hd : Delivery klines query s (kept s.fromTime answer) (.ok (.inl s')))
    (hon : Onward query s.fromTime answer) :
    s.fromTime ≤ query.toTime ∧ s.fromTime < s'.fromTime ∧ s'.candles.isSome := by
  cases hd with
  | @within older last next hpop hlast hask =>
    have hmem : last ∈ popOverlapping query (kept s.fromTime answer) :=
      hpop ▸ List.mem_append_right older List.mem_cons_self
    obtain ⟨hin, hle⟩ := mem_kept.1 (mem_of_popOverlapping hmem)
    exact ⟨hle.trans hlast, hle.trans_lt (hon last hin hle hlast), rfl⟩

theorem Round.remaining_lt (hr : Round klines query s (.ok (.inl s'))) (hlimit : 1 ≤ query.limit)
    (hatHand : ∀ answer, s.candles = some answer → Onward query s.fromTime answer)
    (hklines : ∀ n request answer, klines n request = .ok answer → Onward query s.fromTime answer) :
    remaining query s' < remaining query s := by
  unfold remaining
  cases hr with
  | stale hc hkept => simp [hc]
  | page hc hkept hd =>
    obtain ⟨hto, hlt, hsome⟩ := hd.goes (hatHand _ hc)
    simp only [hc, hsome, Option.isSome_some, if_true]
    omega
  | @skip answer windowEnd hc hto hend hask hkept =>
    have hms := windowMs_nonneg hlimit
    simp only [hc, Option.isSome_none, Bool.false_eq_true, if_false]
    omega
  | found hc hto hend hask hkept hd =>
    have hgoes := Delivery.goes (s := s.asked query _ _) hd (hklines _ _ _ hask)
    obtain ⟨-, hlt, hsome⟩ := hgoes
    have hlt : s.fromTime < s'.fromTime := hlt
    simp only [hc, hsome, Option.isSome_none, Bool.false_eq_true, if_true, if_false]
    omega

end Remaining

/-! ## A candle that is followed by an earlier one -/

section Standstill

variable {klines : ℕ → KlineRequest → Except Exception (List Candle)} {query : PriceQuery} {fromTime : ℤ}
  {c : Candle}

/-- A venue that goes on to answer it keeps the download going. -/
theorem getHistoricalPrices_never (hklines : ∀ n startTime, klines n (query.request startTime 0) = .ok [c])
    (hfrom : fromTime ≤ c.startTime) (hto : c.startTime ≤ query.toTime) (hnext : query.next c ≤ c.startTime)
    (rounds : ℕ) : getHistoricalPrices klines query fromTime rounds = none := by
  have hround : ∀ s : Prices, s.candles = some [c] ∧ s.fromTime ≤ c.startTime → ∃ s',
      s.round klines query = .ok (.inl s') ∧ s'.candles = some [c] ∧ s'.fromTime ≤ c.startTime := by
    rintro s ⟨hc, hle⟩
    have hpop : popOverlapping query [c] = [c] := by
      simp [popOverlapping, not_lt.2 (hnext.trans hto)]
    refine ⟨(s.append query [c] c).asked query 0 [c], ?_, rfl, hnext⟩
    simp only [Prices.round, hc, List.reverse_singleton, List.head?_cons, List.getLast?_singleton, not_lt.2 hle,
      if_false, Prices.deliver, hpop, not_lt.2 hto, ask_eq, hklines]
    rfl
  rw [getHistoricalPrices_of_first rounds (hklines 0 fromTime)]
  cases hrun : loop (Prices.round klines query) rounds (Prices.first query fromTime [c]) with
  | none => rfl
  | some r => exact absurd ⟨rounds, hrun⟩ (not_ends_of_goes (by exact ⟨rfl, hfrom⟩) hround)

end Standstill

def candleAt (startTime : ℤ) : Candle := ⟨startTime, 0, 0, 0, 0, 0, 0⟩

end BybitApi.Rest
