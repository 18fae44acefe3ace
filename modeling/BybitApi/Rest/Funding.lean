import BybitApi.Lib.Loop
import BybitApi.Lib.Series
import BybitApi.Rest.Client

/-!
# Funding rates

`RESTClient::getFundingRates` reads a range backwards: each request asks for the newest records of
the window that is left, and the next window ends just before the oldest of them. A window of one
instant is not asked for, although the range is documented as inclusive at both ends.
-/

namespace BybitApi.Rest

open Lib

structure FundingRate where
  symbol : String
  fundingRate : ℚ
  fundingRateTimestamp : ℤ
  deriving DecidableEq

/-- The parameters of `/v5/market/funding/history`. -/
structure FundingRequest where
  category : Category
  symbol : String
  startTime : ℤ
  endTime : ℤ
  /-- Left out where it is 200. -/
  limit : Option ℤ

def fundingRequest (category : Category) (symbol : String) (limit startTime endTime : ℤ) : FundingRequest :=
  ⟨category, symbol, startTime, endTime, if limit ≠ 200 then some limit else none⟩

/-- The variables of `getFundingRates`, and the number of requests made. -/
structure FundingPages where
  retVal : List FundingRate
  fr : List FundingRate
  endTime : ℤ
  sent : ℕ

section GetFundingRates

-- `send n` is the answer to the `n`-th request, checked and decoded.
variable (send : ℕ → FundingRequest → Except Exception (List FundingRate)) (category : Category)
  (symbol : String) (limit startTime : ℤ)

/-- The request for a window, if it is longer than an instant. -/
def fundingWindow (endTime : ℤ) (sent : ℕ) : Except Exception (List FundingRate) :=
  if startTime < endTime then send sent (fundingRequest category symbol limit startTime endTime) else .ok []

def fundingRound (s : FundingPages) : Except Exception (FundingPages ⊕ List FundingRate) :=
  match s.fr.getLast? with
  | none => .ok (.inr s.retVal.reverse)
  | some oldest =>
    (fundingWindow send category symbol limit startTime (oldest.fundingRateTimestamp - 1) s.sent).map fun fr =>
      .inl ⟨s.retVal ++ s.fr, fr, oldest.fundingRateTimestamp - 1, s.sent + 1⟩

/-- With at most so many rounds of its loop. -/
def getFundingRates (endTime : ℤ) (rounds : ℕ) : Option (Except Exception (List FundingRate)) :=
  match fundingWindow send category symbol limit startTime endTime 0 with
  | .error e => some (.error e)
  | .ok fr => loop (fundingRound send category symbol limit startTime) rounds ⟨[], fr, endTime, 1⟩

end GetFundingRates

/-! ## The venue -/

/-- The funding records of a symbol, oldest first. -/
structure FundingSeries where
  records : List FundingRate
  distinct : Increasing FundingRate.fundingRateTimestamp records

namespace FundingSeries

variable (series : FundingSeries)

/-- The records from `startTime` to `endTime`, both inclusive, oldest first. -/
def range (startTime endTime : ℤ) : List FundingRate :=
  between FundingRate.fundingRateTimestamp startTime endTime series.records

/-- There is a record of this time. -/
def Has (time : ℤ) : Prop := ∃ r ∈ series.records, r.fundingRateTimestamp = time

/-- The newest `limit` records of the window, newest first; the venue's own limit is 200. -/
def answer (request : FundingRequest) : List FundingRate :=
  (series.range request.startTime request.endTime).reverse.take (request.limit.getD 200).toNat

/-- The record at the start of the range is left as the only one of a window: the range is that one
instant, or a full page ends just after it. -/
def LeavesStart (limit startTime endTime : ℤ) : Prop :=
  series.Has startTime ∧ (startTime = endTime ∨ startTime < endTime ∧ series.Has (startTime + 1) ∧
    limit.toNat ∣ (series.range (startTime + 1) endTime).length)

variable {series} {limit startTime endTime : ℤ}

theorem mem_range {r : FundingRate} : r ∈ series.range startTime endTime ↔
    r ∈ series.records ∧ startTime ≤ r.fundingRateTimestamp ∧ r.fundingRateTimestamp ≤ endTime :=
  mem_between

theorem answer_fundingRequest (category : Category) (symbol : String) (limit startTime endTime : ℤ) :
    series.answer (fundingRequest category symbol limit startTime endTime) =
      (series.range startTime endTime).reverse.take limit.toNat := by
  unfold answer fundingRequest
  by_cases h : limit = 200
  · simp [h]
  · simp [h]

theorem Has.range_ne_nil (h : series.Has startTime) (hle : startTime ≤ endTime) :
    series.range startTime endTime ≠ [] := by
  obtain ⟨r, hr, heq⟩ := h
  exact List.ne_nil_of_mem (mem_range.2 ⟨hr, heq.ge, heq.le.trans hle⟩)

/-- A window of one instant, or of none, is empty but for the record at its start. -/
theorem range_eq_nil_of_le (hle : endTime ≤ startTime) :
    series.range startTime endTime = [] ↔ ¬ (series.Has startTime ∧ startTime = endTime) := by
  constructor
  · rintro hnil ⟨h, heq⟩
    exact h.range_ne_nil heq.le hnil
  · intro h
    refine List.eq_nil_iff_forall_not_mem.2 fun r hr => ?_
    obtain ⟨hmem, h₁, h₂⟩ := mem_range.1 hr
    exact h ⟨⟨r, hmem, by omega⟩, by omega⟩

/-- The record at the start is one more than those after it. -/
theorem Has.length_range (h : series.Has startTime) (hle : startTime ≤ endTime) :
    (series.range startTime endTime).length = (series.range (startTime + 1) endTime).length + 1 := by
  obtain ⟨r, hr, heq⟩ := h
  have hone : series.range startTime startTime = [r] := by
    refine (series.distinct.between _ _).eq_of_mem_iff (List.pairwise_singleton _ _) fun x => ?_
    rw [mem_between, List.mem_singleton]
    constructor
    · rintro ⟨hx, h₁, h₂⟩
      exact series.distinct.eq_of_time_eq hx hr (by omega)
    · rintro rfl
      exact ⟨hr, by omega, by omega⟩
  have hsplit := series.distinct.between_split (s := startTime) (m := startTime) (by omega) hle
  rw [range, hsplit, List.length_append]
  change (series.range startTime startTime).length + _ = _
  rw [hone]
  simp [range, Nat.add_comm]

/-- A page that the window goes on before leaves the start alone exactly if what is before it does. -/
theorem leavesStart_page {p t : List FundingRate} {x : FundingRate}
    (hlt : startTime < endTime) (hrange : series.range startTime endTime = p ++ x :: t)
    (hle : (x :: t).length ≤ limit.toNat) (hfull : p ≠ [] → (x :: t).length = limit.toNat) :
    series.LeavesStart limit startTime (x.fundingRateTimestamp - 1) ↔
      series.LeavesStart limit startTime endTime := by
  have hx := mem_range.1 (hrange ▸ List.mem_append_right p List.mem_cons_self)
  have hp : series.range startTime (x.fundingRateTimestamp - 1) = p := series.distinct.between_before hrange
  have hlen : (series.range startTime endTime).length = p.length + (x :: t).length := by
    rw [hrange, List.length_append]
  unfold LeavesStart
  refine and_congr_right fun hstart => ?_
  have hcount := hstart.length_range hlt.le
  rcases hx.2.1.eq_or_lt with heq | hgt
  · -- the page holds all of the range, so it is no full page after the start
    have hpnil : p = [] := by
      rw [← hp]
      exact between_of_lt (show x.fundingRateTimestamp - 1 < startTime by omega)
    have hno : ¬ (series.Has (startTime + 1) ∧ limit.toNat ∣ (series.range (startTime + 1) endTime).length) := by
      rintro ⟨hnext, hdvd⟩
      have hpos := List.length_pos_iff.2 (hnext.range_ne_nil (show startTime + 1 ≤ endTime by omega))
      have := Nat.le_of_dvd hpos hdvd
      rw [hpnil, List.length_nil] at hlen
      omega
    constructor
    · rintro (h | ⟨h, -⟩) <;> omega
    · rintro (h | ⟨-, h⟩)
      · omega
      · exact absurd h hno
  · have hbefore : startTime ≤ x.fundingRateTimestamp - 1 := by omega
    have hpne : p ≠ [] := hp ▸ hstart.range_ne_nil hbefore
    have hcount' := hstart.length_range hbefore
    rw [hp] at hcount'
    have hdvd : limit.toNat ∣ (series.range (startTime + 1) endTime).length ↔
        limit.toNat ∣ (series.range (startTime + 1) (x.fundingRateTimestamp - 1)).length := by
      rw [show (series.range (startTime + 1) endTime).length =
        (series.range (startTime + 1) (x.fundingRateTimestamp - 1)).length + limit.toNat by
          rw [← hfull hpne]; omega]
      exact Nat.dvd_add_left (dvd_refl _)
    rw [hdvd]
    constructor
    · rintro (heq | ⟨-, h⟩)
      · refine Or.inr ⟨hlt, ⟨x, hx.1, by omega⟩, ?_⟩
        rw [← heq, range, between_of_lt (by omega), List.length_nil]
        exact Nat.dvd_zero _
      · exact Or.inr ⟨hlt, h⟩
    · rintro (h | ⟨-, h⟩)
      · omega
      · by_cases heq : startTime = x.fundingRateTimestamp - 1
        · exact Or.inl heq
        · exact Or.inr ⟨by omega, h⟩

end FundingSeries

/-! ## The whole range -/

section Complete

variable {series : FundingSeries} {send : ℕ → FundingRequest → Except Exception (List FundingRate)}
  {category : Category} {symbol : String} {limit : ℤ}

/-- From any window on, the loop adds the window, without the start if that is left. -/
theorem ends_window (hlimit : 1 ≤ limit)
    (hsend : ∀ n s e, s ≤ e → send n (fundingRequest category symbol limit s e) =
      .ok (series.answer (fundingRequest category symbol limit s e)))
    (startTime endTime : ℤ) (retVal : List FundingRate) (sent : ℕ) :
    ∃ fr, fundingWindow send category symbol limit startTime endTime sent = .ok fr ∧
      ∃ got, Ends (fundingRound send category symbol limit startTime) ⟨retVal, fr, endTime, sent + 1⟩
          (.ok (got ++ retVal.reverse)) ∧
        (got = series.range startTime endTime ↔ ¬ series.LeavesStart limit startTime endTime) := by
  induction hn : (series.range startTime endTime).length using Nat.strongRecOn
    generalizing endTime retVal sent with
  | ind n ih =>
    by_cases hlt : startTime < endTime
    swap
    · refine ⟨[], by simp [fundingWindow, hlt], [], Ends.leave rfl, ?_⟩
      rw [eq_comm, FundingSeries.range_eq_nil_of_le (not_lt.1 hlt)]
      simp only [FundingSeries.LeavesStart, hlt, false_and, or_false]
    · have hfr : fundingWindow send category symbol limit startTime endTime sent =
          .ok ((series.range startTime endTime).reverse.take limit.toNat) := by
        rw [fundingWindow, if_pos hlt, hsend _ _ _ hlt.le, FundingSeries.answer_fundingRequest]
      refine ⟨_, hfr, ?_⟩
      by_cases hnil : series.range startTime endTime = []
      · rw [hnil]
        exact ⟨[], Ends.leave (by simp [fundingRound]), iff_of_true rfl fun h => h.1.range_ne_nil hlt.le hnil⟩
      · obtain ⟨p, x, t, hrange, htake, hle, hfull⟩ :=
          take_reverse_cases hnil (k := limit.toNat) (by omega)
        have hbefore : series.range startTime (x.fundingRateTimestamp - 1) = p :=
          series.distinct.between_before hrange
        have hlen : (series.range startTime (x.fundingRateTimestamp - 1)).length < n := by
          rw [hbefore, ← hn, hrange]
          simp
        obtain ⟨fr, hnext, got, hends, hgot⟩ :=
          ih _ hlen _ (retVal ++ (x :: t).reverse) (sent + 1) rfl
        refine ⟨got ++ x :: t, ?_, ?_⟩
        · rw [htake]
          refine Ends.go ?_ (by simpa using hends)
          simp [fundingRound, hnext, Except.map]
        · rw [← FundingSeries.leavesStart_page hlt hrange hle hfull, ← hgot, hrange, hbefore,
            List.append_left_inj]

/-- **Funding rates.** The call ends, and it returns the records of the range, oldest first, exactly
if no window is left that is the start of the range alone and has a record. -/
theorem getFundingRates_complete_iff (series : FundingSeries)
    (send : ℕ → FundingRequest → Except Exception (List FundingRate)) (category : Category)
    (symbol : String) (limit startTime endTime : ℤ) (hlimit : 1 ≤ limit)
    (hsend : ∀ n s e, s ≤ e → send n (fundingRequest category symbol limit s e) =
      .ok (series.answer (fundingRequest category symbol limit s e))) :
    (∃ rounds, getFundingRates send category symbol limit startTime endTime rounds =
        some (.ok (series.range startTime endTime))) ↔
      ¬ series.LeavesStart limit startTime endTime := by
  obtain ⟨fr, hfr, got, hends, hgot⟩ := ends_window hlimit hsend startTime endTime [] 0
  rw [List.reverse_nil, List.append_nil] at hends
  simp only [getFundingRates, hfr]
  rw [← hgot]
  constructor
  · intro h
    exact (Except.ok.inj (Ends.unique h hends)).symm
  · rintro rfl
    exact hends

/-- Two records, eight hours apart. -/
def rates : FundingSeries :=
  ⟨[⟨"BTCUSDT", 1 / 10000, 28800000⟩, ⟨"BTCUSDT", 1 / 10000, 57600000⟩], by simp [Increasing]⟩

theorem getFundingRates_both : ∃ rounds,
    getFundingRates (fun _ request => .ok (rates.answer request)) .linear "BTCUSDT" 200 28800000 57600000
      rounds = some (.ok (rates.range 28800000 57600000)) :=
  (getFundingRates_complete_iff rates _ .linear "BTCUSDT" 200 28800000 57600000 (by decide)
    fun _ _ _ _ => rfl).2 (by simp [FundingSeries.LeavesStart, FundingSeries.Has, rates])

/-- A range of one instant that has a record: nothing is asked for, and nothing is returned. -/
theorem getFundingRates_instant : ¬ ∀ (series : FundingSeries)
    (send : ℕ → FundingRequest → Except Exception (List FundingRate)) (category : Category)
    (symbol : String) (limit startTime endTime : ℤ), 1 ≤ limit → startTime ≤ endTime →
    (∀ n s e, s ≤ e → send n (fundingRequest category symbol limit s e) =
      .ok (series.answer (fundingRequest category symbol limit s e))) →
    ∃ rounds, getFundingRates send category symbol limit startTime endTime rounds =
      some (.ok (series.range startTime endTime)) := by
  intro h
  obtain ⟨rounds, hrounds⟩ := h rates (fun _ request => .ok (rates.answer request)) .linear "BTCUSDT"
    200 28800000 28800000 (by decide) le_rfl fun _ _ _ _ => rfl
  cases rounds with
  | zero => cases hrounds
  | succ n =>
    have hnil : some (Except.ok []) = some (Except.ok (rates.range 28800000 28800000)) := hrounds
    exact absurd (Except.ok.inj (Option.some.inj hnil)) (by decide)

end Complete

end BybitApi.Rest
