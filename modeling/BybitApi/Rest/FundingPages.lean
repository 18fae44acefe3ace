import BybitApi.Rest.Funding
import Mathlib.Data.List.Sort

/-!
# Funding rates of any venue

What `getFundingRates` returns is what its pages hold, whatever the venue answers. If only each answer lies in the
window that was asked for and is listed newest first, the windows shrink: the call ends, and no record comes twice
or out of order, whichever records the venue leaves out and however they change between two requests. The
connector sorts the result once more, and that does nothing.
-/

namespace BybitApi.Rest

open Lib

/-- The connector's own record. -/
structure HistoricalFundingRate where
  symbol : String
  fundingRate : ℚ
  fundingTime : ℤ
  deriving DecidableEq

def HistoricalFundingRate.ofRecord (r : FundingRate) : HistoricalFundingRate :=
  ⟨r.symbol, r.fundingRate, r.fundingRateTimestamp⟩

section Pages

variable (send : ℕ → FundingRequest → Except Exception (List FundingRate)) (category : Category)
  (symbol : String) (limit startTime : ℤ)

/-- `BybitFuturesExchangeConnector::getHistoricalFundingRates`. Its `std::ranges::sort` leaves open how records of one
time are ordered. -/
def getHistoricalFundingRates (endTime : ℤ) (rounds : ℕ) : Option (Except Exception (List HistoricalFundingRate)) :=
  (getFundingRates send .linear symbol 200 startTime endTime rounds).map fun result =>
    result.map fun rates =>
      (rates.map HistoricalFundingRate.ofRecord).mergeSort fun a b => a.fundingTime ≤ b.fundingTime

/-- The pages of a call that returns: the answer to the window, and the pages before its last record, until there is
none. -/
def Paged (endTime : ℤ) (sent : ℕ) : List (List FundingRate) → Prop
  | [] => fundingWindow send category symbol limit startTime endTime sent = .ok []
  | page :: pages => fundingWindow send category symbol limit startTime endTime sent = .ok page ∧
      ∃ oldest, page.getLast? = some oldest ∧ Paged (oldest.fundingRateTimestamp - 1) (sent + 1) pages

/-- Each answer lies in its window, newest first. -/
def AnswersWindow : Prop := ∀ n s e fr, send n (fundingRequest category symbol limit s e) = .ok fr →
  fr.Pairwise (fun x y => y.fundingRateTimestamp < x.fundingRateTimestamp) ∧
    ∀ x ∈ fr, s ≤ x.fundingRateTimestamp ∧ x.fundingRateTimestamp ≤ e

end Pages

section Rounds

variable {send : ℕ → FundingRequest → Except Exception (List FundingRate)} {category : Category}
  {symbol : String} {limit startTime endTime : ℤ} {sent n : ℕ} {fr retVal : List FundingRate}
  {pages : List (List FundingRate)}

/-- A window that has a record was asked for. -/
theorem AnswersWindow.window (h : AnswersWindow send category symbol limit)
    (hfr : fundingWindow send category symbol limit startTime endTime sent = .ok fr) :
    fr.Pairwise (fun x y => y.fundingRateTimestamp < x.fundingRateTimestamp) ∧
      (∀ x ∈ fr, startTime ≤ x.fundingRateTimestamp ∧ x.fundingRateTimestamp ≤ endTime) ∧
        (fr ≠ [] → startTime < endTime) := by
  unfold fundingWindow at hfr
  split at hfr
  next hlt =>
    obtain ⟨hnewest, hin⟩ := h _ _ _ _ hfr
    exact ⟨hnewest, hin, fun _ => hlt⟩
  next =>
    obtain rfl := Except.ok.inj hfr
    refine ⟨List.Pairwise.nil, ?_, fun hne => absurd rfl hne⟩
    intro x hx
    cases hx

/-- The last record of a page is its oldest. -/
theorem oldest_le {oldest : FundingRate}
    (h : fr.Pairwise fun x y => y.fundingRateTimestamp < x.fundingRateTimestamp)
    (hlast : fr.getLast? = some oldest) : ∀ x ∈ fr, oldest.fundingRateTimestamp ≤ x.fundingRateTimestamp := by
  obtain ⟨before, rfl⟩ := List.getLast?_eq_some_iff.1 hlast
  intro x hx
  rcases List.mem_append.1 hx with hx | hx
  · exact ((List.pairwise_append.1 h).2.2 x hx oldest (List.mem_singleton.2 rfl)).le
  · rw [List.mem_singleton.1 hx]

/-- The pages go on where the one before ends. -/
theorem Paged.ordered (hanswers : AnswersWindow send category symbol limit)
    (h : Paged send category symbol limit startTime endTime sent pages) :
    pages.flatten.Pairwise (fun x y => y.fundingRateTimestamp < x.fundingRateTimestamp) ∧
      ∀ x ∈ pages.flatten, startTime ≤ x.fundingRateTimestamp ∧ x.fundingRateTimestamp ≤ endTime := by
  induction pages generalizing endTime sent with
  | nil =>
    refine ⟨List.Pairwise.nil, ?_⟩
    intro x hx
    cases hx
  | cons page pages ih =>
    obtain ⟨hpage, oldest, hlast, hrest⟩ := h
    obtain ⟨hnewest, hin, -⟩ := hanswers.window hpage
    obtain ⟨hordered, hbefore⟩ := ih hrest
    have holdest := hin oldest (List.mem_of_getLast? hlast)
    rw [List.flatten_cons]
    constructor
    · apply List.pairwise_append.2
      refine ⟨hnewest, hordered, ?_⟩
      intro x hx y hy
      have hx' := oldest_le hnewest hlast x hx
      have hy' := (hbefore y hy).2
      omega
    · intro x hx
      rcases List.mem_append.1 hx with hx | hx
      · exact hin x hx
      · have hx' := hbefore x hx
        omega

/-- What a call ends with: what one of its requests threw, or what its pages hold. -/
def Fetched (send : ℕ → FundingRequest → Except Exception (List FundingRate)) (category : Category) (symbol : String)
    (limit startTime endTime : ℤ) (sent : ℕ) (retVal : List FundingRate) :
    Except Exception (List FundingRate) → Prop
  | .error e => ∃ n s t, send n (fundingRequest category symbol limit s t) = .error e
  | .ok rates => ∃ pages, Paged send category symbol limit startTime endTime sent pages ∧
      rates = (retVal ++ pages.flatten).reverse

theorem fundingWindow_error {e : Exception}
    (h : fundingWindow send category symbol limit startTime endTime sent = .error e) :
    ∃ n s t, send n (fundingRequest category symbol limit s t) = .error e := by
  unfold fundingWindow at h
  split at h
  · exact ⟨_, _, _, h⟩
  · cases h

/-- The loop ends: each window is shorter than the one before. -/
theorem fundingRound_ends (hanswers : AnswersWindow send category symbol limit)
    (hfr : fundingWindow send category symbol limit startTime endTime sent = .ok fr)
    (hn : (endTime - startTime).toNat ≤ n) :
    ∃ r, loop (fundingRound send category symbol limit startTime) (n + 1) ⟨retVal, fr, endTime, sent + 1⟩ = some r ∧
      Fetched send category symbol limit startTime endTime sent retVal r := by
  induction n generalizing endTime sent fr retVal with
  | zero =>
    obtain ⟨-, -, hlong⟩ := hanswers.window hfr
    have hnil : fr = [] := by
      by_contra hne
      have hlt := hlong hne
      omega
    subst hnil
    refine ⟨.ok retVal.reverse, loop_leave rfl, [], hfr, ?_⟩
    rw [List.flatten_nil, List.append_nil]
  | succ n ih =>
    cases hlast : fr.getLast? with
    | none =>
      have hnil : fr = [] := List.getLast?_eq_none_iff.1 hlast
      subst hnil
      refine ⟨.ok retVal.reverse, loop_leave rfl, [], hfr, ?_⟩
      rw [List.flatten_nil, List.append_nil]
    | some oldest =>
      obtain ⟨-, hin, hlong⟩ := hanswers.window hfr
      have holdest := hin oldest (List.mem_of_getLast? hlast)
      have hlt : startTime < endTime := by
        apply hlong
        rintro rfl
        cases hlast
      cases hnext : fundingWindow send category symbol limit startTime (oldest.fundingRateTimestamp - 1) (sent + 1) with
      | error e =>
        refine ⟨.error e, loop_throw ?_, fundingWindow_error hnext⟩
        simp only [fundingRound, hlast, hnext, Except.map]
      | ok next =>
        let after : FundingPages := ⟨retVal ++ fr, next, oldest.fundingRateTimestamp - 1, sent + 1 + 1⟩
        have hgo : fundingRound send category symbol limit startTime ⟨retVal, fr, endTime, sent + 1⟩ =
            .ok (.inl after) := by
          simp only [fundingRound, hlast, hnext, Except.map, after]
        have hrest : ∃ r, loop (fundingRound send category symbol limit startTime) (n + 1) after = some r ∧
            Fetched send category symbol limit startTime (oldest.fundingRateTimestamp - 1) (sent + 1)
              (retVal ++ fr) r := by
          apply ih hnext
          omega
        obtain ⟨r, hr, hfetched⟩ := hrest
        refine ⟨r, (loop_go hgo).trans hr, ?_⟩
        cases r with
        | error e => exact hfetched
        | ok rates =>
          obtain ⟨pages, hpages, rfl⟩ := hfetched
          refine ⟨fr :: pages, ⟨hfr, oldest, hlast, hpages⟩, ?_⟩
          rw [List.flatten_cons, List.append_assoc]

theorem getFundingRates_fetched (hanswers : AnswersWindow send category symbol limit) (startTime endTime : ℤ) :
    ∃ r, getFundingRates send category symbol limit startTime endTime ((endTime - startTime).toNat + 1) = some r ∧
      Fetched send category symbol limit startTime endTime 0 [] r := by
  unfold getFundingRates
  cases hfr : fundingWindow send category symbol limit startTime endTime 0 with
  | error e => exact ⟨.error e, rfl, fundingWindow_error hfr⟩
  | ok fr => exact fundingRound_ends hanswers hfr (Nat.le_refl _)

/-- **Any venue.** If each answer lies in its window, newest first, the call of the connector ends, with one round more
than the range has milliseconds at most. Either it throws what a request threw, or it returns the records of all
the answers, each once, all of them in the range, in the order of their times. -/
theorem getHistoricalFundingRates_ordered (send : ℕ → FundingRequest → Except Exception (List FundingRate))
    (symbol : String) (startTime endTime : ℤ) (hanswers : AnswersWindow send .linear symbol 200) :
    ∃ r, getHistoricalFundingRates send symbol startTime endTime ((endTime - startTime).toNat + 1) = some r ∧
      match r with
      | .error e => ∃ n s t, send n (fundingRequest .linear symbol 200 s t) = .error e
      | .ok rates => Increasing HistoricalFundingRate.fundingTime rates ∧
          (∀ x ∈ rates, startTime ≤ x.fundingTime ∧ x.fundingTime ≤ endTime) ∧
            ∃ pages, Paged send .linear symbol 200 startTime endTime 0 pages ∧
              rates = pages.flatten.reverse.map HistoricalFundingRate.ofRecord := by
  obtain ⟨r, hr, hfetched⟩ := getFundingRates_fetched hanswers startTime endTime
  unfold getHistoricalFundingRates
  rw [hr]
  cases r with
  | error e => exact ⟨.error e, rfl, hfetched⟩
  | ok rates =>
    obtain ⟨pages, hpages, rfl⟩ := hfetched
    obtain ⟨hordered, hin⟩ := hpages.ordered hanswers
    have hincreasing : Increasing HistoricalFundingRate.fundingTime
        (pages.flatten.reverse.map HistoricalFundingRate.ofRecord) := by
      apply List.pairwise_map.2
      apply List.pairwise_reverse.2
      exact hordered
    have hsorted : (pages.flatten.reverse.map HistoricalFundingRate.ofRecord).mergeSort
        (fun a b => a.fundingTime ≤ b.fundingTime) = pages.flatten.reverse.map HistoricalFundingRate.ofRecord := by
      apply List.mergeSort_of_pairwise
      apply hincreasing.imp
      intro a b hlt
      simpa using hlt.le
    refine ⟨.ok (pages.flatten.reverse.map HistoricalFundingRate.ofRecord), ?_, hincreasing, ?_, pages, hpages, rfl⟩
    · rw [Option.map_some, Except.map, List.nil_append, hsorted]
    · intro x hx
      obtain ⟨record, hrecord, rfl⟩ := List.mem_map.1 hx
      exact hin record (List.mem_reverse.1 hrecord)

/-- A venue that shows the end of the first window and the start of the second, and then nothing. -/
def fleeting (n : ℕ) (request : FundingRequest) : Except Exception (List FundingRate) :=
  .ok (if request.startTime ≤ request.endTime ∧ n < 2 then
    [⟨request.symbol, 1 / 10000, if n = 0 then request.endTime else request.startTime⟩] else [])

theorem fleeting_answersWindow : AnswersWindow fleeting .linear "BTCUSDT" 200 := by
  intro n s e fr hfr
  obtain rfl := Except.ok.inj hfr
  split
  next h =>
    refine ⟨List.pairwise_singleton _ _, ?_⟩
    intro x hx
    rw [List.mem_singleton.1 hx]
    obtain ⟨hle, -⟩ := h
    simp only [fundingRequest] at hle ⊢
    split <;> omega
  next =>
    refine ⟨List.Pairwise.nil, ?_⟩
    intro x hx
    cases hx

theorem getHistoricalFundingRates_fleeting : ∃ rates,
    getHistoricalFundingRates fleeting "BTCUSDT" 0 1000 1001 = some (.ok rates) ∧
      Increasing HistoricalFundingRate.fundingTime rates := by
  obtain ⟨r, hr, hresult⟩ := getHistoricalFundingRates_ordered fleeting "BTCUSDT" 0 1000 fleeting_answersWindow
  cases r with
  | error e =>
    obtain ⟨n, s, t, hfail⟩ := hresult
    cases hfail
  | ok rates => exact ⟨rates, hr, hresult.1⟩

end Rounds

end BybitApi.Rest
