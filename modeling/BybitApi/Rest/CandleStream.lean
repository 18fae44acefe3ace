import BybitApi.Rest.CandleRounds

/-!
# The writer of a download

`getHistoricalPrices` gives every batch to the writer, and it returns them all together. The two
part where a batch goes beyond the range: the writer gets it as it is, what is returned is cut.
-/

namespace BybitApi.Rest

open Lib

/-- The candles of a batch that are later than the range. -/
def late (query : PriceQuery) (batch : List Candle) : List Candle :=
  batch.filter fun c => query.toTime < c.startTime

/-- The batch has two candles later than the range, or one whose next one is not. -/
def Beyond (query : PriceQuery) (batch : List Candle) : Prop :=
  2 ≤ (late query batch).length ∨ ∃ c ∈ late query batch, query.next c ≤ query.toTime

/-- The candles of the answer from the start on that was asked for go beyond the range. -/
def GoesBeyond (query : PriceQuery) (request : KlineRequest) (answer : List Candle) : Prop :=
  Beyond query (kept request.start answer)

instance (query : PriceQuery) (batch : List Candle) : Decidable (Beyond query batch) :=
  inferInstanceAs (Decidable (_ ∨ _))

instance (query : PriceQuery) (request : KlineRequest) (answer : List Candle) :
    Decidable (GoesBeyond query request answer) :=
  inferInstanceAs (Decidable (Beyond query _))

section Batch

variable {query : PriceQuery} {batch older : List Candle} {last : Candle}

theorem mem_late {c : Candle} : c ∈ late query batch ↔ c ∈ batch ∧ query.toTime < c.startTime := by
  simp [late]

theorem late_append (query : PriceQuery) (a b : List Candle) :
    late query (a ++ b) = late query a ++ late query b :=
  List.filter_append a b

theorem length_late_singleton (query : PriceQuery) (c : Candle) : (late query [c]).length ≤ 1 :=
  List.length_filter_le _ _

/-- Up to a candle within the range none is later. -/
theorem late_eq_nil (hsorted : (older ++ [last]).Pairwise fun c c' => c.startTime ≤ c'.startTime)
    (hlast : last.startTime ≤ query.toTime) : late query (older ++ [last]) = [] := by
  refine List.filter_eq_nil_iff.2 fun c hc => ?_
  have hle : c.startTime ≤ last.startTime := by
    rcases List.mem_append.1 hc with hc | hc
    · exact (List.pairwise_append.1 hsorted).2.2 c hc last List.mem_cons_self
    · exact (List.mem_singleton.1 hc) ▸ le_rfl
  simp only [decide_eq_true_eq]
  omega

/-- What `popOverlapping` leaves: all of the batch, or all but the last. -/
theorem popOverlapping_cases (query : PriceQuery) (batch : List Candle) :
    (popOverlapping query batch = batch ∧ ∀ back, batch.getLast? = some back → query.next back ≤ query.toTime) ∨
      ∃ back, batch = popOverlapping query batch ++ [back] ∧ query.toTime < query.next back := by
  cases hback : batch.getLast? with
  | none => exact Or.inl ⟨by simp only [popOverlapping, hback], fun back h => by cases h⟩
  | some back =>
    obtain ⟨before, rfl⟩ := List.getLast?_eq_some_iff.1 hback
    by_cases hlt : query.toTime < query.next back
    · exact Or.inr ⟨back, by simp [popOverlapping, hlt], hlt⟩
    · refine Or.inl ⟨by simp [popOverlapping, hlt], ?_⟩
      rintro _ ⟨⟩
      exact not_lt.1 hlt

/-- A batch that loses its last candle, and none later than the range with it, does not go beyond. -/
theorem not_beyond_append {back : Candle} (hnil : late query older = [])
    (hback : query.toTime < query.next back) : ¬ Beyond query (older ++ [back]) := by
  have hlate : late query (older ++ [back]) = late query [back] := by rw [late_append, hnil, List.nil_append]
  rintro (htwo | ⟨c, hc, hnext⟩)
  · have hone := length_late_singleton query back
    rw [hlate] at htwo
    omega
  · rw [hlate] at hc
    obtain rfl := List.mem_singleton.1 (mem_late.1 hc).1
    exact absurd hnext (not_le.2 hback)

theorem not_beyond_of_nil (hnil : late query batch = []) : ¬ Beyond query batch := by
  rintro (htwo | ⟨c, hc, -⟩)
  · rw [hnil] at htwo
    cases htwo
  · rw [hnil] at hc
    cases hc

theorem not_beyond_of_nothing (hpop : popOverlapping query batch = []) : ¬ Beyond query batch := by
  obtain ⟨heq, -⟩ | ⟨back, heq, hback⟩ := popOverlapping_cases query batch
  · exact not_beyond_of_nil (by rw [← heq, hpop]; rfl)
  · rw [heq, hpop]
    exact not_beyond_append rfl hback

theorem not_beyond_of_within (hsorted : batch.Pairwise fun c c' => c.startTime ≤ c'.startTime)
    (hpop : popOverlapping query batch = older ++ [last]) (hlast : last.startTime ≤ query.toTime) :
    ¬ Beyond query batch := by
  obtain ⟨heq, -⟩ | ⟨back, heq, hback⟩ := popOverlapping_cases query batch
  · rw [← heq, hpop]
    exact not_beyond_of_nil (late_eq_nil (by rwa [← hpop, heq]) hlast)
  · rw [hpop] at heq
    rw [heq] at hsorted ⊢
    exact not_beyond_append (late_eq_nil (List.pairwise_append.1 hsorted).1 hlast) hback

theorem beyond_of_last (hsorted : batch.Pairwise fun c c' => c.startTime ≤ c'.startTime)
    (hpop : popOverlapping query batch = older ++ [last]) (hlast : query.toTime < last.startTime) :
    Beyond query batch := by
  obtain ⟨heq, hback⟩ | ⟨back, heq, -⟩ := popOverlapping_cases query batch
  · -- the last candle was not dropped, so the one that follows it is not late
    rw [hpop] at heq
    refine Or.inr ⟨last, mem_late.2 ⟨?_, hlast⟩, hback last (by rw [← heq, List.getLast?_concat])⟩
    rw [← heq]
    exact List.mem_append_right older List.mem_cons_self
  · rw [hpop] at heq
    rw [heq] at hsorted
    have hle : last.startTime ≤ back.startTime :=
      (List.pairwise_append.1 hsorted).2.2 last (List.mem_append_right older List.mem_cons_self) back
        List.mem_cons_self
    have hlate : late query [last, back] = [last, back] := by
      refine List.filter_eq_self.2 fun c hc => ?_
      rcases List.mem_cons.1 hc with rfl | hc
      · simpa using hlast
      · obtain rfl := List.mem_singleton.1 hc
        simpa using hlast.trans_le hle
    refine Or.inl ?_
    rw [heq, List.append_assoc, List.singleton_append, late_append, hlate, List.length_append]
    exact Nat.le_add_left _ _

end Batch

/-! ## What the writer got -/

section Stream

variable {klines : ℕ → KlineRequest → Except Exception (List Candle)} {query : PriceQuery} {s s' p : Prices}
  {request : KlineRequest} {answer batch : List Candle}

theorem not_goesBeyond_of_kept (h : kept request.start answer = []) : ¬ GoesBeyond query request answer := by
  rw [GoesBeyond, h]
  exact not_beyond_of_nil rfl

theorem NewestFirst.kept_sorted (h : NewestFirst answer) (fromTime : ℤ) :
    (kept fromTime answer).Pairwise fun c c' => c.startTime ≤ c'.startTime := h.reverse.sublist List.filter_sublist

/-- None of these answers goes beyond the range. -/
def Within (query : PriceQuery) (answers : List (KlineRequest × List Candle)) : Prop :=
  ∀ x ∈ answers, ¬ GoesBeyond query x.1 x.2

theorem within_append {answers : List (KlineRequest × List Candle)} :
    Within query (answers ++ [(request, answer)]) ↔ Within query answers ∧ ¬ GoesBeyond query request answer := by
  simp only [Within, List.forall_mem_append, List.forall_mem_singleton]

/-- The writer has got what will be returned, and no answer goes beyond the range but for the one at
hand. -/
structure Streamed (query : PriceQuery) (s : Prices) : Prop where
  written : s.written.flatten = s.retVal
  probing : s.candles = none → Within query s.answers
  atHand : ∀ answer, s.candles = some answer → NewestFirst answer ∧ ∃ earlier request,
    s.answers = earlier ++ [(request, answer)] ∧ request.start = s.fromTime ∧ Within query earlier

/-- The writer got what is returned exactly if no answer goes beyond the range. -/
def Agrees (query : PriceQuery) (p : Prices) : Prop := p.written.flatten = p.retVal ↔ Within query p.answers

/-- **A batch that ends the download.** -/
theorem delivery_agrees {earlier : List (KlineRequest × List Candle)}
    (hwritten : s.written.flatten = s.retVal) (hans : s.answers = earlier ++ [(request, answer)])
    (hstart : request.start = s.fromTime) (hearlier : Within query earlier) (hsorted : NewestFirst answer)
    (hd : Delivery klines query s (kept s.fromTime answer) (.ok (.inr p))) : Agrees query p := by
  cases hd with
  | nothing hpop =>
    refine iff_of_true hwritten ?_
    rw [hans, within_append, GoesBeyond, hstart]
    exact ⟨hearlier, not_beyond_of_nothing hpop⟩
  | @beyond older last hpop hlast =>
    refine iff_of_false (fun heq => ?_) fun hwithin => ?_
    · have hsame : older ++ [last] = (older ++ [last]).filter fun c => c.startTime ≤ query.toTime := by
        have heq' : s.written.flatten ++ (older ++ [last]) =
            s.retVal ++ (older ++ [last]).filter fun c => c.startTime ≤ query.toTime := by
          simpa [Prices.finish] using heq
        rw [hwritten] at heq'
        exact List.append_cancel_left heq'
      have hmem : last ∈ (older ++ [last]).filter fun c => c.startTime ≤ query.toTime :=
        hsame ▸ List.mem_append_right older List.mem_cons_self
      have hle := (List.mem_filter.1 hmem).2
      simp only [decide_eq_true_eq] at hle
      omega
    · have hbeyond := beyond_of_last (hsorted.kept_sorted s.fromTime) hpop hlast
      have hlast : ¬ GoesBeyond query request answer := by
        refine hwithin (request, answer) ?_
        change (request, answer) ∈ s.answers
        rw [hans]
        exact List.mem_append_right earlier List.mem_cons_self
      rw [GoesBeyond, hstart] at hlast
      exact hlast hbeyond

/-- **A batch within the range.** -/
theorem delivery_streamed {earlier : List (KlineRequest × List Candle)}
    (hwritten : s.written.flatten = s.retVal) (hans : s.answers = earlier ++ [(request, answer)])
    (hstart : request.start = s.fromTime) (hearlier : Within query earlier) (hsorted : NewestFirst answer)
    (hklines : ∀ n request answer, klines n request = .ok answer → NewestFirst answer)
    (hd : Delivery klines query s (kept s.fromTime answer) (.ok (.inl s'))) : Streamed query s' := by
  cases hd with
  | @within older last next hpop hlast hask =>
    refine ⟨?_, fun h => absurd h (Option.some_ne_none next), ?_⟩
    · simp [Prices.asked, Prices.append, hwritten]
    · rintro a ⟨⟩
      refine ⟨hklines _ _ _ hask, s.answers, _, rfl, rfl, ?_⟩
      rw [hans, within_append, GoesBeyond, hstart]
      exact ⟨hearlier, not_beyond_of_within (hsorted.kept_sorted s.fromTime) hpop hlast⟩

theorem Streamed.round (h : Streamed query s)
    (hklines : ∀ n request answer, klines n request = .ok answer → NewestFirst answer) :
    Round klines query s (s.round klines query) := by
  cases hc : s.candles with
  | none => exact probe_round hc hklines
  | some answer => exact page_round hc (h.atHand answer hc).1

/-- The answer to a probe. -/
theorem Streamed.asked (h : Streamed query s) (hc : s.candles = none) (windowEnd : ℤ) (answer : List Candle) :
    (s.asked query windowEnd answer).written.flatten = (s.asked query windowEnd answer).retVal ∧
      (s.asked query windowEnd answer).answers = s.answers ++ [(query.request s.fromTime windowEnd, answer)] ∧
      Within query s.answers := ⟨h.written, rfl, h.probing hc⟩

theorem Streamed.goes (h : Streamed query s)
    (hklines : ∀ n request answer, klines n request = .ok answer → NewestFirst answer)
    (hr : Round klines query s (.ok (.inl s'))) : Streamed query s' := by
  cases hr with
  | @stale answer hc hkept =>
    obtain ⟨-, earlier, request, hans, hstart, hearlier⟩ := h.atHand answer hc
    refine ⟨h.written, fun _ => ?_, fun a ha => by cases ha⟩
    change Within query s.answers
    rw [hans, within_append]
    exact ⟨hearlier, not_goesBeyond_of_kept (hstart ▸ hkept)⟩
  | @page answer _ hc hkept hd =>
    obtain ⟨hsorted, earlier, request, hans, hstart, hearlier⟩ := h.atHand answer hc
    exact delivery_streamed h.written hans hstart hearlier hsorted hklines hd
  | @skip answer windowEnd hc hto hend hask hkept =>
    obtain ⟨hwritten, hans, hwithin⟩ := h.asked hc windowEnd answer
    refine ⟨hwritten, fun _ => ?_, fun a ha => by cases ha⟩
    change Within query (s.answers ++ [(query.request s.fromTime windowEnd, answer)])
    rw [within_append]
    exact ⟨hwithin, not_goesBeyond_of_kept hkept⟩
  | @found answer windowEnd _ hc hto hend hask hkept hd =>
    obtain ⟨hwritten, hans, hwithin⟩ := h.asked hc windowEnd answer
    exact delivery_streamed hwritten hans rfl hwithin (hklines _ _ _ hask) hklines hd

theorem Streamed.ends (h : Streamed query s)
    (hklines : ∀ n request answer, klines n request = .ok answer → NewestFirst answer)
    (hr : Round klines query s (.ok (.inr p))) : Agrees query p := by
  cases hr with
  | empty hc =>
    obtain ⟨-, earlier, request, hans, -, hearlier⟩ := h.atHand [] hc
    refine iff_of_true h.written ?_
    rw [hans, within_append]
    exact ⟨hearlier, not_goesBeyond_of_kept rfl⟩
  | @page answer _ hc hkept hd =>
    obtain ⟨hsorted, earlier, request, hans, hstart, hearlier⟩ := h.atHand answer hc
    exact delivery_agrees h.written hans hstart hearlier hsorted hd
  | exhausted hc hto => exact iff_of_true h.written (h.probing hc)
  | @found answer windowEnd _ hc hto hend hask hkept hd =>
    obtain ⟨hwritten, hans, hwithin⟩ := h.asked hc windowEnd answer
    exact delivery_agrees hwritten hans rfl hwithin (hklines _ _ _ hask) hd

/-- Three candles of a minute, as the venue answers them. -/
def threeMinutes : List Candle :=
  [⟨180000, 3, 3, 3, 3, 1, 3⟩, ⟨120000, 2, 2, 2, 2, 1, 2⟩, ⟨60000, 1, 1, 1, 1, 1, 1⟩]

/-- It has those from `start` on. -/
def threeMinutesVenue : ℕ → KlineRequest → Except Exception (List Candle) :=
  fun _ request => .ok (threeMinutes.filter fun c => request.start ≤ c.startTime)

theorem threeMinutes_newestFirst (n : ℕ) (request : KlineRequest) (answer : List Candle)
    (h : threeMinutesVenue n request = .ok answer) : NewestFirst answer := by
  obtain rfl := Except.ok.inj h
  have hsorted : threeMinutes.Pairwise fun c c' => c'.startTime ≤ c.startTime := by decide
  exact hsorted.sublist List.filter_sublist

def minutesQuery (toTime : ℤ) : PriceQuery := ⟨.linear, "BTCUSDT", ._1, toTime, 200⟩

end Stream

end BybitApi.Rest
