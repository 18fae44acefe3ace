import BybitApi.Rest.CandleRounds

/-!
# The requests of a download

`getHistoricalPrices` ends whatever is answered, as long as every answer is sorted newest first: an
answer may lie before the start that was asked for or behind the end of the range, and no two of them
need to fit together. Each request of the outer loop starts later than the one before it.

That is so but for months that reach December 32767 (`Forward`): the candle behind that one is an earlier
one, and a venue that answers it again keeps the download going.
-/

namespace BybitApi.Rest

open Lib

/-- A request of a download. -/
inductive Sent where
  /-- Of the outer loop: the candles from a start on. -/
  | batch (request : KlineRequest)
  /-- Of the loop inside it: the candles of a window. -/
  | probe (request : KlineRequest)
  deriving DecidableEq

def Sent.batchStart : Sent → Option ℤ
  | .batch request => some request.start
  | .probe _ => none

/-- The values of `from` that the outer loop requests with. -/
def batchStarts (sent : List Sent) : List ℤ := sent.filterMap Sent.batchStart

section Sent

variable (klines : ℕ → KlineRequest → Except Exception (List Candle)) (query : PriceQuery)

/-- `Prices.deliver` with the requests it sends. -/
def Prices.deliverSent (s : Prices) (batch : List Candle) : List Sent × Except Exception (Prices ⊕ Prices) :=
  let candles := popOverlapping query batch
  match candles.getLast? with
  | none => ([], .ok (.inr s))
  | some last =>
    if query.toTime < last.startTime then
      ([], .ok (.inr { s with
        retVal := s.retVal ++ candles.filter fun candle => candle.startTime ≤ query.toTime
        written := s.written ++ [candles] }))
    else
      let s : Prices := { s with
        retVal := s.retVal ++ candles
        written := s.written ++ [candles]
        fromTime := query.next last }
      ([.batch (query.request s.fromTime 0)], (s.ask klines query 0).map fun (_, s') => .inl s')

/-- `Prices.round` with the requests it sends. -/
def Prices.roundSent (s : Prices) : List Sent × Except Exception (Prices ⊕ Prices) :=
  match s.candles with
  | some answer =>
    match answer.reverse.head?, answer.reverse.getLast? with
    | some front, some back =>
      if front.startTime < s.fromTime then
        if back.startTime < s.fromTime then ([], .ok (.inl { s with candles := none }))
        else s.deliverSent klines query (trimmed s.fromTime answer.reverse)
      else s.deliverSent klines query answer.reverse
    | _, _ => ([], .ok (.inr s))
  | none =>
    if query.toTime < s.fromTime then ([], .ok (.inr s))
    else
      let windowEnd := min query.toTime (s.fromTime + query.windowMs)
      let probe : Sent := .probe (query.request s.fromTime windowEnd)
      match s.ask klines query windowEnd with
      | .error e => ([probe], .error e)
      | .ok (answer, s') =>
        if answer.reverse.getLast?.any (fun back => s.fromTime ≤ back.startTime) then
          let (sent, r) := s'.deliverSent klines query (trimmed s.fromTime answer.reverse)
          (probe :: sent, r)
        else ([probe], .ok (.inl { s' with fromTime := windowEnd + 1, candles := none }))

/-- `getHistoricalPrices` with the requests it sends, in their order. -/
def sentHistoricalPrices (fromTime : ℤ) (rounds : ℕ) : List Sent × Option (Except Exception Prices) :=
  let first : Sent := .batch (query.request fromTime 0)
  match Prices.ask klines query ⟨[], [], [], fromTime, none⟩ 0 with
  | .error e => ([first], some (.error e))
  | .ok (_, s) =>
    let (sent, r) := loopOut (Prices.roundSent klines query) rounds s
    (first :: sent, r)

end Sent

/-! ## It is the same download -/

section Same

variable (klines : ℕ → KlineRequest → Except Exception (List Candle)) (query : PriceQuery)

theorem deliverSent_snd (s : Prices) (batch : List Candle) :
    (s.deliverSent klines query batch).2 = s.deliver klines query batch := by
  simp only [Prices.deliverSent, Prices.deliver]
  cases (popOverlapping query batch).getLast? with
  | none => rfl
  | some last =>
    dsimp only
    split
    · rfl
    · rfl

theorem roundSent_snd (s : Prices) : (s.roundSent klines query).2 = s.round klines query := by
  simp only [Prices.roundSent, Prices.round]
  cases s.candles with
  | some answer =>
    dsimp only
    cases answer.reverse.head? with
    | none => rfl
    | some front =>
      cases answer.reverse.getLast? with
      | none => rfl
      | some back =>
        dsimp only
        split
        · split
          · rfl
          · exact deliverSent_snd klines query s _
        · exact deliverSent_snd klines query s _
  | none =>
    dsimp only
    split
    · rfl
    · cases s.ask klines query (min query.toTime (s.fromTime + query.windowMs)) with
      | error e => rfl
      | ok next =>
        dsimp only
        split
        · exact deliverSent_snd klines query next.2 _
        · rfl

theorem sentHistoricalPrices_of_first {fromTime : ℤ} {answer : List Candle} (rounds : ℕ)
    (hask : klines 0 (query.request fromTime 0) = .ok answer) :
    sentHistoricalPrices klines query fromTime rounds =
      let out := loopOut (Prices.roundSent klines query) rounds (Prices.first query fromTime answer)
      (.batch (query.request fromTime 0) :: out.1, out.2) := by
  simp only [sentHistoricalPrices, ask_eq, List.length_nil, hask, Except.map, Prices.first]

theorem sentHistoricalPrices_of_error {fromTime : ℤ} {e : Exception} (rounds : ℕ)
    (hask : klines 0 (query.request fromTime 0) = .error e) :
    sentHistoricalPrices klines query fromTime rounds = ([.batch (query.request fromTime 0)], some (.error e)) := by
  simp only [sentHistoricalPrices, ask_eq, List.length_nil, hask, Except.map]

theorem sentHistoricalPrices_snd (fromTime : ℤ) (rounds : ℕ) :
    (sentHistoricalPrices klines query fromTime rounds).2 = getHistoricalPrices klines query fromTime rounds := by
  simp only [sentHistoricalPrices, getHistoricalPrices]
  cases Prices.ask klines query ⟨[], [], [], fromTime, none⟩ 0 with
  | error e => rfl
  | ok next =>
    have hbody : (fun s => (Prices.roundSent klines query s).2) = Prices.round klines query :=
      funext (roundSent_snd klines query)
    dsimp only
    rw [loopOut_snd, hbody]

end Same

/-! ## How far a round gets -/

/-- No candle of a month that can be gone on behind is the last one of the calendar, or behind it. -/
def Forward (query : PriceQuery) (fromTime : ℤ) : Prop :=
  query.interval ≠ ._M ∨ query.toTime < lastMonthStart ∨ query.toTime < fromTime

section Forward

variable {query : PriceQuery} {fromTime fromTime' : ℤ}

theorem Forward.onward (h : Forward query fromTime) (answer : List Candle) : Onward query fromTime answer := by
  intro c _ hle hto
  apply lt_nextCandleStart_iff.2
  rcases h with hM | hlast | hpast
  · exact Or.inl hM
  · exact Or.inr (hto.trans_lt hlast)
  · omega

theorem Forward.mono (h : Forward query fromTime) (hle : fromTime ≤ fromTime') : Forward query fromTime' := by
  rcases h with hM | hlast | hpast
  · exact Or.inl hM
  · exact Or.inr (Or.inl hlast)
  · exact Or.inr (Or.inr (hpast.trans_le hle))

end Forward

/-- The starts that a round requests with, and how it ends: without a request of the outer loop the
start does not go back, and with one it is the start of that request. -/
inductive Advance (fromTime : ℤ) : List ℤ → Except Exception (Prices ⊕ Prices) → Prop where
  | none {r : Except Exception (Prices ⊕ Prices)} (hnext : ∀ s', r = .ok (.inl s') → fromTime ≤ s'.fromTime) :
    Advance fromTime [] r
  | one {start : ℤ} {r : Except Exception (Prices ⊕ Prices)} (hlt : fromTime < start)
      (hnext : ∀ s', r = .ok (.inl s') → s'.fromTime = start) :
    Advance fromTime [start] r

section Advance

variable {klines : ℕ → KlineRequest → Except Exception (List Candle)} {query : PriceQuery} {s s' : Prices}
  {fromTime : ℤ} {answer batch : List Candle} {starts later : List ℤ} {r : Except Exception (Prices ⊕ Prices)}

theorem Advance.increasing (h : Advance fromTime starts r) : (fromTime :: starts).Pairwise (· < ·) := by
  cases h with
  | none hnext => exact List.pairwise_singleton _ _
  | one hlt hnext => exact List.pairwise_pair.2 hlt

/-- The starts of the rounds behind it follow. -/
theorem Advance.append (h : Advance fromTime starts (.ok (.inl s')))
    (hlater : (s'.fromTime :: later).Pairwise (· < ·)) : (fromTime :: (starts ++ later)).Pairwise (· < ·) := by
  obtain ⟨hhead, htail⟩ := List.pairwise_cons.1 hlater
  cases h with
  | none hnext =>
    have hle := hnext s' rfl
    exact List.pairwise_cons.2 ⟨fun t ht => hle.trans_lt (hhead t ht), htail⟩
  | one hlt hnext =>
    rw [← hnext s' rfl] at hlt ⊢
    refine List.pairwise_cons.2 ⟨?_, hlater⟩
    intro t ht
    rcases List.mem_cons.1 ht with rfl | ht
    · exact hlt
    · exact hlt.trans (hhead t ht)

/-- A batch that is not too old leads to a request behind one of its candles. -/
theorem deliverSent_advance (hbatch : ∀ c ∈ batch, s.fromTime ≤ c.startTime) (hon : Onward query s.fromTime batch) :
    Advance s.fromTime (batchStarts (s.deliverSent klines query batch).1) (s.deliverSent klines query batch).2 := by
  simp only [Prices.deliverSent]
  cases hlast : (popOverlapping query batch).getLast? with
  | none =>
    refine .none fun s' h => ?_
    cases h
  | some last =>
    dsimp only
    split
    next hto =>
      refine .none fun s' h => ?_
      cases h
    next hto =>
      have hmem := mem_of_popOverlapping (List.mem_of_getLast? hlast)
      have hle := hbatch last hmem
      have hlt : last.startTime < query.next last := hon last hmem hle (not_lt.1 hto)
      refine .one (hle.trans_lt hlt) fun s' h => ?_
      rw [ask_eq] at h
      cases hask : klines s.answers.length (query.request (query.next last) 0) with
      | error e =>
        simp only [hask, Except.map] at h
        cases h
      | ok answer =>
        simp only [hask, Except.map] at h
        cases h
        rfl

theorem le_of_mem_trimmed (hsorted : NewestFirst answer) :
    ∀ c ∈ trimmed fromTime answer.reverse, fromTime ≤ c.startTime := by
  intro c hc
  rw [hsorted.trimmed_eq] at hc
  exact (mem_kept.1 hc).2

theorem page_advance (h : s.candles = some answer) (hsorted : NewestFirst answer)
    (hforward : Forward query s.fromTime) :
    Advance s.fromTime (batchStarts (s.roundSent klines query).1) (s.roundSent klines query).2 := by
  simp only [Prices.roundSent, h]
  cases hfront : answer.reverse.head? with
  | none =>
    refine .none fun s' hs' => ?_
    cases hs'
  | some front =>
    cases hback : answer.reverse.getLast? with
    | none =>
      refine .none fun s' hs' => ?_
      cases hs'
    | some back =>
      dsimp only
      split
      next hlt =>
        split
        next hstale =>
          refine .none fun s' hs' => ?_
          cases hs'
          exact le_rfl
        next hfresh => exact deliverSent_advance (le_of_mem_trimmed hsorted) (hforward.onward _)
      next hle =>
        refine deliverSent_advance (fun c hc => ?_) (hforward.onward _)
        rw [← hsorted.kept_of_front hfront (not_lt.1 hle)] at hc
        exact (mem_kept.1 hc).2

/-- A window is stepped over, or its candles are a batch. -/
theorem probe_advance (h : s.candles = none) (hlimit : 1 ≤ query.limit) (hforward : Forward query s.fromTime)
    (hklines : ∀ n request answer, klines n request = .ok answer → NewestFirst answer) :
    Advance s.fromTime (batchStarts (s.roundSent klines query).1) (s.roundSent klines query).2 := by
  have hms := windowMs_nonneg hlimit
  simp only [Prices.roundSent, h, ask_eq]
  split
  next hto =>
    refine .none fun s' hs' => ?_
    cases hs'
  next hto =>
    cases hask : klines s.answers.length
        (query.request s.fromTime (min query.toTime (s.fromTime + query.windowMs))) with
    | error e =>
      refine .none fun s' hs' => ?_
      cases hs'
    | ok answer =>
      simp only [Except.map]
      split
      next hfound =>
        have hsorted := hklines _ _ _ hask
        exact deliverSent_advance (s := s.asked query _ answer) (le_of_mem_trimmed hsorted) (hforward.onward _)
      next hskip =>
        refine .none fun s' hs' => ?_
        cases hs'
        change s.fromTime ≤ min query.toTime (s.fromTime + query.windowMs) + 1
        omega

theorem roundSent_advance (hlimit : 1 ≤ query.limit) (hforward : Forward query s.fromTime)
    (hsorted : ∀ answer, s.candles = some answer → NewestFirst answer)
    (hklines : ∀ n request answer, klines n request = .ok answer → NewestFirst answer) :
    Advance s.fromTime (batchStarts (s.roundSent klines query).1) (s.roundSent klines query).2 := by
  cases hc : s.candles with
  | none => exact probe_advance hc hlimit hforward hklines
  | some answer => exact page_advance hc (hsorted answer hc) hforward

/-! ## How many requests -/

theorem length_deliverSent (s : Prices) (batch : List Candle) : (s.deliverSent klines query batch).1.length ≤ 1 := by
  simp only [Prices.deliverSent]
  cases (popOverlapping query batch).getLast? with
  | none => exact Nat.zero_le 1
  | some last =>
    dsimp only
    split
    · exact Nat.zero_le 1
    · exact le_rfl

theorem length_roundSent (s : Prices) : (s.roundSent klines query).1.length ≤ 2 := by
  have hdeliver : ∀ (s : Prices) (batch : List Candle), (s.deliverSent klines query batch).1.length ≤ 2 :=
    fun s batch => (length_deliverSent s batch).trans one_le_two
  simp only [Prices.roundSent]
  cases s.candles with
  | some answer =>
    dsimp only
    cases answer.reverse.head? with
    | none => exact Nat.zero_le 2
    | some front =>
      cases answer.reverse.getLast? with
      | none => exact Nat.zero_le 2
      | some back =>
        dsimp only
        split
        · split
          · exact Nat.zero_le 2
          · exact hdeliver s _
        · exact hdeliver s _
  | none =>
    dsimp only
    split
    · exact Nat.zero_le 2
    · cases s.ask klines query (min query.toTime (s.fromTime + query.windowMs)) with
      | error e => exact one_le_two
      | ok next =>
        dsimp only
        split
        · exact Nat.succ_le_succ (length_deliverSent next.2 _)
        · exact one_le_two

end Advance

/-! ## Every download ends -/

section Termination

variable {klines : ℕ → KlineRequest → Except Exception (List Candle)} {query : PriceQuery} {s s' : Prices}
  {answer : List Candle} {out : List Sent}

/-- The invariant of the loop: the answer at hand is sorted, and the download goes forward. -/
structure Ready (query : PriceQuery) (s : Prices) : Prop where
  sorted : ∀ answer, s.candles = some answer → NewestFirst answer
  forward : Forward query s.fromTime

theorem Ready.round (h : Ready query s)
    (hklines : ∀ n request answer, klines n request = .ok answer → NewestFirst answer) :
    Round klines query s (s.round klines query) := by
  cases hc : s.candles with
  | none => exact probe_round hc hklines
  | some answer => exact page_round hc (h.sorted answer hc)

theorem Delivery.ready (hd : Delivery klines query s (kept s.fromTime answer) (.ok (.inl s')))
    (hforward : Forward query s.fromTime)
    (hklines : ∀ n request answer, klines n request = .ok answer → NewestFirst answer) : Ready query s' := by
  have hlt := (hd.goes (hforward.onward answer)).2.1
  refine ⟨?_, hforward.mono hlt.le⟩
  cases hd with
  | within hpop hlast hask =>
    rintro answer ⟨⟩
    exact hklines _ _ _ hask

theorem Round.ready (hr : Round klines query s (.ok (.inl s'))) (h : Ready query s) (hlimit : 1 ≤ query.limit)
    (hklines : ∀ n request answer, klines n request = .ok answer → NewestFirst answer) : Ready query s' := by
  cases hr with
  | stale hc hkept =>
    refine ⟨fun answer ha => ?_, h.forward⟩
    cases ha
  | page hc hkept hd => exact hd.ready h.forward hklines
  | @skip answer windowEnd hc hto hend hask hkept =>
    have hms := windowMs_nonneg hlimit
    refine ⟨fun answer ha => ?_, h.forward.mono (show s.fromTime ≤ windowEnd + 1 by omega)⟩
    cases ha
  | found hc hto hend hask hkept hd => exact Delivery.ready (s := s.asked query _ _) hd h.forward hklines

theorem Round.remaining_lt_of_ready (hr : Round klines query s (.ok (.inl s'))) (h : Ready query s)
    (hlimit : 1 ≤ query.limit) : remaining query s' < remaining query s :=
  hr.remaining_lt hlimit (fun answer _ => h.forward.onward answer) fun _ _ answer _ => h.forward.onward answer

/-- What is sent from a state on: the outer loop's starts grow from round to round, and every round makes
two requests at most. -/
def Bounded (query : PriceQuery) (s : Prices) (sent : List Sent) : Prop :=
  (s.fromTime :: batchStarts sent).Pairwise (· < ·) ∧ sent.length ≤ 2 * (remaining query s + 1)

theorem Bounded.append {later : List Sent} (hadv : Advance s.fromTime (batchStarts out) (.ok (.inl s')))
    (hlen : out.length ≤ 2) (hless : remaining query s' < remaining query s) (h : Bounded query s' later) :
    Bounded query s (out ++ later) := by
  obtain ⟨hlater, hcount⟩ := h
  refine ⟨?_, ?_⟩
  · rw [batchStarts, List.filterMap_append]
    exact hadv.append hlater
  · rw [List.length_append]
    omega

theorem Ready.bounded (h : Ready query s) (hlimit : 1 ≤ query.limit)
    (hklines : ∀ n request answer, klines n request = .ok answer → NewestFirst answer) (rounds : ℕ) :
    Bounded query s (loopOut (Prices.roundSent klines query) rounds s).1 := by
  have hadvance : ∀ {s out r}, Ready query s → s.roundSent klines query = (out, r) →
      Advance s.fromTime (batchStarts out) r ∧ out.length ≤ 2 := by
    intro s out r hs hr
    have hadv := roundSent_advance hlimit hs.forward hs.sorted hklines
    have hlen : (s.roundSent klines query).1.length ≤ 2 := length_roundSent s
    rw [hr] at hadv hlen
    exact ⟨hadv, hlen⟩
  have hlast : ∀ {s out r}, Ready query s → s.roundSent klines query = (out, r) → Bounded query s out := by
    intro s out r hs hr
    obtain ⟨hadv, hlen⟩ := hadvance hs hr
    exact ⟨hadv.increasing, by omega⟩
  refine loopOut_invariant h ?_ ?_ ?_ ?_ rounds
  · intro s hs
    exact ⟨List.pairwise_singleton _ _, Nat.zero_le _⟩
  · intro s s' out hs hr
    have hround : Round klines query s (.ok (.inl s')) := by
      have hround : Round klines query s (s.round klines query) := hs.round hklines
      rwa [← roundSent_snd, hr] at hround
    obtain ⟨hadv, hlen⟩ := hadvance hs hr
    refine ⟨hround.ready hs hlimit hklines, ?_⟩
    intro later hlater
    exact Bounded.append hadv hlen (hround.remaining_lt_of_ready hs hlimit) hlater
  · intro s b out hs hr
    exact hlast hs hr
  · intro s e out hs hr
    exact hlast hs hr

/-- The loop ends, whatever is answered. -/
theorem Ready.ends (h : Ready query s) (hlimit : 1 ≤ query.limit)
    (hklines : ∀ n request answer, klines n request = .ok answer → NewestFirst answer) :
    ∃ r, Ends (Prices.round klines query) s r := by
  refine Ends.of_variant (remaining query) h ?_
  intro s s' hs hr
  have hround : Round klines query s (.ok (.inl s')) := by
    rw [← hr]
    exact hs.round hklines
  exact ⟨hround.ready hs hlimit hklines, hround.remaining_lt_of_ready hs hlimit⟩

/-- The download ends: from some number of rounds on, what it sent and how it ended are the same; the
requests are no more than the range allows for, and the outer loop's start grows from request to
request. -/
def DownloadTerminates (klines : ℕ → KlineRequest → Except Exception (List Candle)) (query : PriceQuery)
    (fromTime : ℤ) : Prop :=
  ∃ rounds sent r,
    (∀ more, sentHistoricalPrices klines query fromTime (rounds + more) = (sent, some r) ∧
      getHistoricalPrices klines query fromTime (rounds + more) = some r) ∧
    sent.length ≤ 4 * (query.toTime + 2 - fromTime).toNat + 5 ∧
    (batchStarts sent).Pairwise (· < ·)

theorem downloadTerminates_of_forward {fromTime : ℤ} (hforward : Forward query fromTime) (hlimit : 1 ≤ query.limit)
    (hklines : ∀ n request answer, klines n request = .ok answer → NewestFirst answer) :
    DownloadTerminates klines query fromTime := by
  have hsame : ∀ {n sent r}, sentHistoricalPrices klines query fromTime n = (sent, some r) →
      getHistoricalPrices klines query fromTime n = some r := by
    intro n sent r h
    rw [← sentHistoricalPrices_snd, h]
  cases hask : klines 0 (query.request fromTime 0) with
  | error e =>
    refine ⟨0, [.batch (query.request fromTime 0)], .error e, ?_, ?_, List.pairwise_singleton _ _⟩
    · intro more
      have hsent := sentHistoricalPrices_of_error klines query (0 + more) hask
      exact ⟨hsent, hsame hsent⟩
    · exact Nat.le_add_left 1 _
  | ok answer =>
    have hfirst : Ready query (Prices.first query fromTime answer) := by
      refine ⟨?_, hforward⟩
      rintro a ⟨⟩
      exact hklines _ _ _ hask
    obtain ⟨r, rounds, hends⟩ := hfirst.ends hlimit hklines
    have hout : (loopOut (Prices.roundSent klines query) rounds (Prices.first query fromTime answer)).2 =
        some r := by
      rw [loopOut_snd, ← hends]
      exact congrArg (loop · rounds _) (funext (roundSent_snd klines query))
    obtain ⟨hincreasing, hcount⟩ := hfirst.bounded hlimit hklines rounds
    refine ⟨rounds, .batch (query.request fromTime 0) :: _, r, ?_, ?_, hincreasing⟩
    · intro more
      have hsent := sentHistoricalPrices_of_first klines query (rounds + more) hask
      rw [loopOut_add hout more] at hsent
      dsimp only at hsent
      rw [hout] at hsent
      exact ⟨hsent, hsame hsent⟩
    · have hremaining : remaining query (Prices.first query fromTime answer) =
          2 * (query.toTime + 2 - fromTime).toNat + 1 := rfl
      rw [hremaining] at hcount
      rw [List.length_cons]
      omega

/-- A venue that answers the same candle to every request. -/
def oneCandle (startTime : ℤ) : ℕ → KlineRequest → Except Exception (List Candle) :=
  fun _ _ => .ok [candleAt startTime]

theorem oneCandle_newestFirst {startTime : ℤ} (n : ℕ) (request : KlineRequest) (answer : List Candle)
    (h : oneCandle startTime n request = .ok answer) : NewestFirst answer := by
  obtain rfl := Except.ok.inj h
  exact List.pairwise_singleton _ _

/-- Where the range reaches the last month of the calendar, one candle is enough for a download that never
ends. -/
theorem not_downloadTerminates {fromTime : ℤ} (h : ¬ Forward query fromTime) :
    ¬ DownloadTerminates (oneCandle (max fromTime lastMonthStart)) query fromTime := by
  simp only [Forward, not_or, not_not, not_lt] at h
  obtain ⟨hM, hlast, hto⟩ := h
  rintro ⟨rounds, sent, r, hrun, -⟩
  have hnext : nextCandleStart (max fromTime lastMonthStart) query.interval ≤ max fromTime lastMonthStart := by
    rw [hM]
    exact (nextCandleStart_month_le _).trans (le_max_right _ _)
  have hnever := getHistoricalPrices_never (c := candleAt (max fromTime lastMonthStart))
    (fun _ _ => rfl : ∀ n startTime, oneCandle (max fromTime lastMonthStart) n (query.request startTime 0) = _)
    (le_max_left _ _) (max_le hto hlast) hnext (rounds + 0)
  cases (hrun 0).2.symm.trans hnever

/-- **Which downloads end** on every venue whose answers are sorted newest first: all but those of months
whose range reaches December 32767. -/
theorem getHistoricalPrices_terminates_iff (query : PriceQuery) (fromTime : ℤ) (hlimit : 1 ≤ query.limit) :
    (∀ klines : ℕ → KlineRequest → Except Exception (List Candle),
      (∀ n request answer, klines n request = .ok answer → NewestFirst answer) →
        DownloadTerminates klines query fromTime) ↔
      query.interval ≠ ._M ∨ query.toTime < lastMonthStart ∨ query.toTime < fromTime := by
  constructor
  · intro h
    by_contra hnot
    exact not_downloadTerminates hnot (h _ oneCandle_newestFirst)
  · intro hforward klines hklines
    exact downloadTerminates_of_forward hforward hlimit hklines

/-- Windows of two minutes. -/
def twoMinutesQuery : PriceQuery := ⟨.linear, "BTCUSDT", ._1, 240000, 2⟩

theorem getHistoricalPrices_terminates_oneCandle : DownloadTerminates (oneCandle 60000) twoMinutesQuery 60000 :=
  (getHistoricalPrices_terminates_iff twoMinutesQuery 60000 (by decide)).2 (Or.inl (by decide)) (oneCandle 60000)
    oneCandle_newestFirst

/-- The candle, then nothing new, then two windows without a candle. -/
example : (sentHistoricalPrices (oneCandle 60000) twoMinutesQuery 60000 5).1 = [
    .batch (twoMinutesQuery.request 60000 0), .batch (twoMinutesQuery.request 120000 0),
    .probe (twoMinutesQuery.request 120000 180000), .probe (twoMinutesQuery.request 180001 240000)] := by
  decide

/-- From the last month of the calendar the download goes back to the first one, again and again. -/
theorem getHistoricalPrices_goes_back :
    ¬ ∀ (query : PriceQuery) (fromTime : ℤ) (klines : ℕ → KlineRequest → Except Exception (List Candle)),
      1 ≤ query.limit → (∀ n request answer, klines n request = .ok answer → NewestFirst answer) →
        DownloadTerminates klines query fromTime := by
  intro h
  have hends := h ⟨.linear, "BTCUSDT", ._M, 971890963199999, 200⟩ 971890963199999 (oneCandle 971890963199999)
    (by decide) oneCandle_newestFirst
  have hback : ¬ Forward ⟨.linear, "BTCUSDT", ._M, 971890963199999, 200⟩ 971890963199999 := by
    unfold Forward
    decide
  exact not_downloadTerminates hback hends

end Termination

end BybitApi.Rest
