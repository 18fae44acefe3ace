import BybitApi.Lib.Calendar
import BybitApi.Lib.Loop
import BybitApi.Lib.Series
import BybitApi.Rest.Client

/-!
# Candles

`RESTClient::getHistoricalPrices` reads a range forwards. Each request asks for the candles from
where the last answer ended; where the answer lies before that, windows of `limit` intervals are
probed until one has a candle.
-/

namespace BybitApi.Rest

open Lib

inductive CandleInterval where
  | _1 | _3 | _5 | _15 | _30 | _60 | _120 | _240 | _360 | _720 | _D | _M | _W
  deriving DecidableEq

def millisecondsPerDay : ℤ := 86400000

def numberOfMsForCandleInterval : CandleInterval → ℤ
  | ._1 => 60000
  | ._3 => 60000 * 3
  | ._5 => 60000 * 5
  | ._15 => 60000 * 15
  | ._30 => 60000 * 30
  | ._60 => 60000 * 60
  | ._120 => 60000 * 120
  | ._240 => 60000 * 240
  | ._360 => 60000 * 360
  | ._720 => 60000 * 720
  | ._D => millisecondsPerDay
  | ._W => millisecondsPerDay * 7
  | ._M => millisecondsPerDay * 30

/-- A month ends where the next one begins. The year of `current` and that of `next` are 16 bits wide: a
year that does not fit is narrowed. -/
def nextCandleStart (openTimestampMs : ℤ) (interval : CandleInterval) : ℤ :=
  if interval ≠ ._M then openTimestampMs + numberOfMsForCandleInterval interval
  else millisecondsPerDay * Calendar.nextFirstDay (openTimestampMs / millisecondsPerDay)

/-- December 32767, the last month that a `year` holds. -/
def lastMonthStart : ℤ := millisecondsPerDay * Calendar.firstDay Calendar.lastMonth

theorem numberOfMs_pos (interval : CandleInterval) : 0 < numberOfMsForCandleInterval interval := by
  cases interval <;> decide

/-- The next candle is later, but for months from the last one on. -/
theorem lt_nextCandleStart_iff {t : ℤ} {interval : CandleInterval} :
    t < nextCandleStart t interval ↔ interval ≠ ._M ∨ t < lastMonthStart := by
  unfold nextCandleStart
  split
  next hM =>
    have hms := numberOfMs_pos interval
    exact iff_of_true (by omega) (Or.inl hM)
  next hM =>
    have hday := Calendar.lt_nextFirstDay_iff (t / millisecondsPerDay)
    simp only [hM, false_or]
    unfold lastMonthStart millisecondsPerDay at *
    omega

theorem nextCandleStart_month_le (t : ℤ) : nextCandleStart t ._M ≤ lastMonthStart := by
  have hle := Calendar.nextFirstDay_le (t / millisecondsPerDay)
  rw [nextCandleStart, if_neg (by simp)]
  unfold lastMonthStart millisecondsPerDay at *
  omega

/-- The last millisecond of December 32767. The month after it would be January 32768; in 16 bits that is
January of the year -32768. -/
example : nextCandleStart 971890963199999 ._M = -1096225401600000 := by decide

structure Candle where
  startTime : ℤ
  openPrice : ℚ
  high : ℚ
  low : ℚ
  close : ℚ
  volume : ℚ
  turnover : ℚ
  deriving DecidableEq

/-- The parameters of `/v5/market/kline`. -/
structure KlineRequest where
  category : Category
  symbol : String
  interval : CandleInterval
  start : ℤ
  /-- Left out unless it is positive. -/
  endTime : Option ℤ
  /-- Left out where it is 200. -/
  limit : Option ℤ
  deriving DecidableEq

/-- The arguments of `getHistoricalPrices`, but for the start of the range. -/
structure PriceQuery where
  category : Category
  symbol : String
  interval : CandleInterval
  toTime : ℤ
  limit : ℤ

namespace PriceQuery

variable (query : PriceQuery)

def request (startTime endTime : ℤ) : KlineRequest :=
  ⟨query.category, query.symbol, query.interval, startTime, if endTime > 0 then some endTime else none,
    if query.limit ≠ 200 then some query.limit else none⟩

/-- `limit` slots, both ends included. -/
def windowMs : ℤ := (query.limit - 1) * numberOfMsForCandleInterval query.interval

def next (candle : Candle) : ℤ := nextCandleStart candle.startTime query.interval

end PriceQuery

/-- The variables of `getHistoricalPrices`. -/
structure Prices where
  retVal : List Candle
  /-- The batches passed to the writer. -/
  written : List (List Candle)
  /-- The requests made and their answers. -/
  answers : List (KlineRequest × List Candle)
  fromTime : ℤ
  /-- Newest first, as they were answered; `none` while windows are probed. -/
  candles : Option (List Candle)

section GetHistoricalPrices

-- `klines n` is the answer to the `n`-th request, checked and decoded.
variable (klines : ℕ → KlineRequest → Except Exception (List Candle)) (query : PriceQuery)

/-- The next request; an `endTime` of 0 leaves it open-ended. -/
def Prices.ask (s : Prices) (endTime : ℤ) : Except Exception (List Candle × Prices) :=
  (klines s.answers.length (query.request s.fromTime endTime)).map fun answer =>
    (answer, { s with answers := s.answers ++ [(query.request s.fromTime endTime, answer)], candles := some answer })

/-- The last candle is dropped where its interval overlaps with the end of the range. -/
def popOverlapping (candles : List Candle) : List Candle :=
  match candles.getLast? with
  | some last => if query.toTime < query.next last then candles.dropLast else candles
  | none => candles

/-- The second half of the loop's body, with the candles of the batch, oldest first. -/
def Prices.deliver (s : Prices) (batch : List Candle) : Except Exception (Prices ⊕ Prices) :=
  let candles := popOverlapping query batch
  match candles.getLast? with
  | none => .ok (.inr s)
  | some last =>
    if query.toTime < last.startTime then
      .ok (.inr { s with
        retVal := s.retVal ++ candles.filter fun candle => candle.startTime ≤ query.toTime
        written := s.written ++ [candles] })
    else
      let s : Prices := { s with
        retVal := s.retVal ++ candles
        written := s.written ++ [candles]
        fromTime := query.next last }
      (s.ask klines query 0).map fun (_, s') => .inl s'

/-- `std::lower_bound` finds the first candle that is not too old. -/
def trimmed (fromTime : ℤ) (candles : List Candle) : List Candle :=
  candles.dropWhile fun candle => candle.startTime < fromTime

/-- One round of the loop, or one of the loop inside it that probes windows. -/
def Prices.round (s : Prices) : Except Exception (Prices ⊕ Prices) :=
  match s.candles with
  | some answer =>
    match answer.reverse.head?, answer.reverse.getLast? with
    | some front, some back =>
      if front.startTime < s.fromTime then
        if back.startTime < s.fromTime then .ok (.inl { s with candles := none })
        else s.deliver klines query (trimmed s.fromTime answer.reverse)
      else s.deliver klines query answer.reverse
    | _, _ => .ok (.inr s)
  | none =>
    if query.toTime < s.fromTime then .ok (.inr s)
    else
      match s.ask klines query (min query.toTime (s.fromTime + query.windowMs)) with
      | .error e => .error e
      | .ok (answer, s') =>
        if answer.reverse.getLast?.any (fun back => s.fromTime ≤ back.startTime) then
          s'.deliver klines query (trimmed s.fromTime answer.reverse)
        else
          .ok (.inl { s' with fromTime := min query.toTime (s.fromTime + query.windowMs) + 1, candles := none })

/-- With at most so many rounds of its loops. -/
def getHistoricalPrices (fromTime : ℤ) (rounds : ℕ) : Option (Except Exception Prices) :=
  match Prices.ask klines query ⟨[], [], [], fromTime, none⟩ 0 with
  | .error e => some (.error e)
  | .ok (_, s) => loop (Prices.round klines query) rounds s

end GetHistoricalPrices

end BybitApi.Rest
