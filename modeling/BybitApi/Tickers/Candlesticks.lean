import BybitApi.Gateway.OrderUpdates
import BybitApi.Rest.Candles
import BybitApi.Tickers.Market

/-!
# The candlestick cache

The data event callback of `WSStreamManager`, its kline side. It reads element 0 of the event's data and
stores the candle there under the interval it names. Neither is checked: the size of the array is only
logged, and the result of `enum_cast` is dereferenced as it is. Where C++ leaves undefined what happens
then, so does the model.
-/

namespace BybitApi.Candlesticks

open Rest (CandleInterval)
open Gateway (JsonUtils enumCast absentOnly)
open Tickers (ResponseType normalizeSymbol readSymbolFromFilter recordsOf)

def responseTypeNames : List (String × ResponseType) := [("snapshot", .snapshot), ("delta", .delta)]

def candleIntervalNames : List (String × CandleInterval) := [
  ("1", ._1), ("3", ._3), ("5", ._5), ("15", ._15), ("30", ._30), ("60", ._60), ("120", ._120), ("240", ._240),
  ("360", ._360), ("720", ._720), ("D", ._D), ("M", ._M), ("W", ._W)]

/-- As it is constructed. -/
structure Event where
  topic : String := ""
  type : ResponseType := .snapshot
  ts : ℤ := 0
  data : Json := .null

structure EventCandlestick where
  start : ℤ := 0
  stop : ℤ := 0
  interval : String := ""
  openPrice : ℚ := 0
  high : ℚ := 0
  low : ℚ := 0
  close : ℚ := 0
  volume : ℚ := 0
  turnover : ℚ := 0
  confirm : Bool := false
  timestamp : ℤ := 0
  deriving DecidableEq

def readInt64 (json : Json) (key : String) (target : ℤ) : Option ℤ :=
  (json.readValue Json.getInt64 key target).toOption

/-- `Event::fromJson`; `none` where it throws. A private message has `creationTime` for `ts`. -/
def Event.fromJson (utils : JsonUtils) (json : Json) : Option Event := do
  let event : Event := {}
  let topic ← JsonUtils.readString json "topic" event.topic
  let type ← utils.readMagicEnum responseTypeNames json "type" event.type
  let ts ← if json.contains "ts" then readInt64 json "ts" event.ts else readInt64 json "creationTime" event.ts
  return ⟨topic, type, ts, (json.find? "data").getD event.data⟩

/-- `EventCandlestick::fromJson`; `none` where it throws. -/
def EventCandlestick.fromJson (utils : JsonUtils) (json : Json) : Option EventCandlestick := do
  let event : EventCandlestick := {}
  let start ← readInt64 json "start" event.start
  let stop ← readInt64 json "end" event.stop
  let interval ← JsonUtils.readString json "interval" event.interval
  let openPrice ← utils.readStringAsDouble json "open" event.openPrice
  let high ← utils.readStringAsDouble json "high" event.high
  let low ← utils.readStringAsDouble json "low" event.low
  let close ← utils.readStringAsDouble json "close" event.close
  let volume ← utils.readStringAsDouble json "volume" event.volume
  let turnover ← utils.readStringAsDouble json "turnover" event.turnover
  let confirm ← (json.readValue Json.getBool "confirm" event.confirm).toOption
  let timestamp ← readInt64 json "timestamp" event.timestamp
  return ⟨start, stop, interval, openPrice, high, low, close, volume, turnover, confirm, timestamp⟩

/-- `std::map<std::string, std::map<CandleInterval, EventCandlestick>>`. -/
abbrev Cache : Type := String → Option (CandleInterval → Option EventCandlestick)

/-- What the callback runs into. -/
inductive Undefined where
  /-- Element 0 of an empty array. -/
  | noElement
  /-- The value of an empty optional. -/
  | noValue
  deriving DecidableEq

/-- `topic.find(part) != npos`. -/
def Contains (topic part : String) : Prop := part.toList <:+: topic.toList

instance (topic part : String) : Decidable (Contains topic part) := inferInstanceAs (Decidable (_ <:+: _))

section Callback

variable (utils : JsonUtils) (splitString : String → Char → List String)

def symbolOf (event : Event) : String := normalizeSymbol (readSymbolFromFilter splitString event.topic)

/-- The symbol's entry, which is put into the cache first where there is none. -/
def withEntry (symbol : String) (candlesticks : Cache) : Cache :=
  match candlesticks symbol with
  | none => Function.update candlesticks symbol (some fun _ => none)
  | some _ => candlesticks

/-- `it->second.insert_or_assign(interval, candle)`. -/
def insertOrAssign (symbol : String) (interval : CandleInterval) (candle : EventCandlestick)
    (candlesticks : Cache) : Cache :=
  Function.update candlesticks symbol
    ((candlesticks symbol).map fun byInterval => Function.update byInterval interval (some candle))

/-- The kline side of the callback: what it makes of the cache. -/
def klineCallback (event : Event) (candlesticks : Cache) : Except Undefined Cache :=
  match event.data with
  | .arr [] => .error .noElement
  | .arr (first :: _) =>
    match EventCandlestick.fromJson utils first with
    | none => .ok candlesticks
    | some eventCandlestick =>
      let symbol := symbolOf splitString event
      let candlesticks := withEntry symbol candlesticks
      match enumCast candleIntervalNames eventCandlestick.interval with
      | none => .error .noValue
      | some interval => .ok (insertOrAssign symbol interval eventCandlestick candlesticks)
  -- `operator[]` throws at what is no array.
  | _ => .ok candlesticks

def dataEventCallback (event : Event) (candlesticks : Cache) : Except Undefined Cache :=
  if Contains event.topic "tickers" then .ok candlesticks
  else if Contains event.topic "kline" then klineCallback utils splitString event candlesticks
  else .ok candlesticks

end Callback

/-! ## What it makes of an event -/

/-- The candle that the callback reads. -/
def candleOf (event : Event) : Option Json :=
  match event.data with
  | .arr (first :: _) => some first
  | _ => none

/-- The candle's interval is the name of a `CandleInterval`. -/
def HasCandleInterval (candle : Json) : Prop :=
  ∃ name interval, candle.find? "interval" = some (.str name) ∧ enumCast candleIntervalNames name = some interval

section Kline

variable {utils : JsonUtils} {splitString : String → Char → List String} {event : Event} {candlesticks : Cache}
  {candle : Json} {eventCandlestick : EventCandlestick} {rest : List Json}

theorem fromJson_interval (h : EventCandlestick.fromJson utils candle = some eventCandlestick) :
    JsonUtils.readString candle "interval" "" = some eventCandlestick.interval := by
  obtain ⟨start, -, h⟩ := Option.bind_eq_some_iff.1 h
  obtain ⟨stop, -, h⟩ := Option.bind_eq_some_iff.1 h
  obtain ⟨interval, hinterval, h⟩ := Option.bind_eq_some_iff.1 h
  obtain ⟨openPrice, -, h⟩ := Option.bind_eq_some_iff.1 h
  obtain ⟨high, -, h⟩ := Option.bind_eq_some_iff.1 h
  obtain ⟨low, -, h⟩ := Option.bind_eq_some_iff.1 h
  obtain ⟨close, -, h⟩ := Option.bind_eq_some_iff.1 h
  obtain ⟨volume, -, h⟩ := Option.bind_eq_some_iff.1 h
  obtain ⟨turnover, -, h⟩ := Option.bind_eq_some_iff.1 h
  obtain ⟨confirm, -, h⟩ := Option.bind_eq_some_iff.1 h
  obtain ⟨timestamp, -, h⟩ := Option.bind_eq_some_iff.1 h
  obtain rfl := Option.some.inj h
  exact hinterval

/-- A candle without an interval keeps the empty text, which is no name. -/
theorem hasCandleInterval_iff (h : EventCandlestick.fromJson utils candle = some eventCandlestick) :
    HasCandleInterval candle ↔ ∃ interval, enumCast candleIntervalNames eventCandlestick.interval = some interval := by
  have hread := fromJson_interval h
  cases hfind : candle.find? "interval" with
  | none =>
    rw [JsonUtils.readString, Json.readValue_none hfind] at hread
    rw [← Option.some.inj hread]
    constructor
    · rintro ⟨name, interval, hname, -⟩
      rw [hfind] at hname
      cases hname
    · rintro ⟨interval, hcast⟩
      cases hcast
  | some v =>
    rw [JsonUtils.readString, Json.readValue_some hfind] at hread
    cases v with
    | str name =>
      obtain rfl : name = eventCandlestick.interval := Option.some.inj hread
      constructor
      · rintro ⟨name', interval, hname, hcast⟩
        rw [hfind] at hname
        cases hname
        exact ⟨interval, hcast⟩
      · rintro ⟨interval, hcast⟩
        exact ⟨_, interval, hfind, hcast⟩
    | _ => cases hread

/-- What the kline side does. -/
inductive Outcome (utils : JsonUtils) (splitString : String → Char → List String) (event : Event)
    (candlesticks : Cache) : Except Undefined Cache → Prop where
  | noArray (h : candleOf event = none) (hdata : event.data ≠ .arr []) :
    Outcome utils splitString event candlesticks (.ok candlesticks)
  | noElement (hdata : event.data = .arr []) : Outcome utils splitString event candlesticks (.error .noElement)
  | unread {candle : Json} (h : candleOf event = some candle)
      (hread : EventCandlestick.fromJson utils candle = none) :
    Outcome utils splitString event candlesticks (.ok candlesticks)
  | noValue {candle : Json} (h : candleOf event = some candle)
      (hread : EventCandlestick.fromJson utils candle ≠ none) (hinterval : ¬ HasCandleInterval candle) :
    Outcome utils splitString event candlesticks (.error .noValue)
  | stored {candle : Json} {interval : CandleInterval} {eventCandlestick : EventCandlestick}
      (h : candleOf event = some candle) (hread : EventCandlestick.fromJson utils candle = some eventCandlestick)
      (hinterval : HasCandleInterval candle)
      (hcast : enumCast candleIntervalNames eventCandlestick.interval = some interval) :
    Outcome utils splitString event candlesticks (.ok (insertOrAssign (symbolOf splitString event) interval
      eventCandlestick (withEntry (symbolOf splitString event) candlesticks)))

theorem klineCallback_outcome (event : Event) (candlesticks : Cache) :
    Outcome utils splitString event candlesticks (klineCallback utils splitString event candlesticks) := by
  unfold klineCallback
  split
  next hdata => exact .noElement hdata
  next candle rest hdata =>
    have hcandle : candleOf event = some candle := by simp only [candleOf, hdata]
    cases hread : EventCandlestick.fromJson utils candle with
    | none => exact .unread hcandle hread
    | some eventCandlestick =>
      dsimp only
      cases hcast : enumCast candleIntervalNames eventCandlestick.interval with
      | none =>
        refine .noValue hcandle (by rw [hread]; exact Option.some_ne_none _) fun h => ?_
        obtain ⟨interval, hsome⟩ := (hasCandleInterval_iff hread).1 h
        rw [hcast] at hsome
        cases hsome
      | some interval => exact .stored hcandle hread ((hasCandleInterval_iff hread).2 ⟨interval, hcast⟩) hcast
  next hempty hcons =>
    refine .noArray ?_ hempty
    unfold candleOf
    split
    next first rest hdata => exact absurd hdata (hcons first rest)
    next => rfl

theorem dataEventCallback_of_tickers (h : Contains event.topic "tickers") :
    dataEventCallback utils splitString event candlesticks = .ok candlesticks := if_pos h

theorem dataEventCallback_of_kline (hkline : Contains event.topic "kline")
    (htickers : ¬ Contains event.topic "tickers") : dataEventCallback utils splitString event candlesticks =
      klineCallback utils splitString event candlesticks := by
  rw [dataEventCallback, if_neg htickers, if_pos hkline]

/-- What the callback should make of a cache. -/
structure Safe (event : Event) (candlesticks : Cache) (r : Except Undefined Cache) : Prop where
  element : r ≠ .error .noElement
  value : r ≠ .error .noValue
  noCandle : candleOf event = none → r = .ok candlesticks
  unknown : ∀ candle, candleOf event = some candle → ¬ HasCandleInterval candle → r = .ok candlesticks

/-- Its data is no empty array, and its candle can not be read or has an interval that is known. -/
def Handled (utils : JsonUtils) (event : Event) : Prop :=
  event.data ≠ .arr [] ∧ ∀ candle, candleOf event = some candle →
    EventCandlestick.fromJson utils candle = none ∨ HasCandleInterval candle

theorem safe_unchanged (event : Event) (candlesticks : Cache) : Safe event candlesticks (.ok candlesticks) where
  element := by simp
  value := by simp
  noCandle := fun _ => rfl
  unknown := fun _ _ _ => rfl

theorem data_ne_of_candle (h : candleOf event = some candle) : event.data ≠ .arr [] := by
  intro hdata
  rw [candleOf, hdata] at h
  cases h

theorem handled_of_candle (h : candleOf event = some candle) : Handled utils event ↔
    EventCandlestick.fromJson utils candle = none ∨ HasCandleInterval candle := by
  refine ⟨fun hhandled => hhandled.2 candle h, fun hcandle => ⟨data_ne_of_candle h, ?_⟩⟩
  intro candle' h'
  rw [h] at h'
  cases h'
  exact hcandle

/-- The kline side is safe for the events that it handles, and for no others. -/
theorem Outcome.safe_iff {r : Except Undefined Cache} (h : Outcome utils splitString event candlesticks r) :
    Safe event candlesticks r ↔ Handled utils event := by
  cases h with
  | noArray hcandle hdata =>
    refine iff_of_true (safe_unchanged event candlesticks) ⟨hdata, ?_⟩
    intro candle h
    rw [hcandle] at h
    cases h
  | noElement hdata => exact iff_of_false (fun hsafe => hsafe.element rfl) fun hhandled => hhandled.1 hdata
  | unread hcandle hread =>
    exact iff_of_true (safe_unchanged event candlesticks) ((handled_of_candle hcandle).2 (Or.inl hread))
  | noValue hcandle hread hinterval =>
    refine iff_of_false (fun hsafe => hsafe.value rfl) ?_
    rw [handled_of_candle hcandle, not_or]
    exact ⟨hread, hinterval⟩
  | stored hcandle hread hinterval hcast =>
    refine iff_of_true ⟨by simp, by simp, ?_, ?_⟩ ((handled_of_candle hcandle).2 (Or.inr hinterval))
    · intro hnone
      rw [hcandle] at hnone
      cases hnone
    · intro candle' hcandle' hunknown
      rw [hcandle] at hcandle'
      cases hcandle'
      exact absurd hinterval hunknown

theorem kline_safe_iff (hkline : Contains event.topic "kline") (htickers : ¬ Contains event.topic "tickers") :
    Safe event candlesticks (dataEventCallback utils splitString event candlesticks) ↔ Handled utils event := by
  rw [dataEventCallback_of_kline hkline htickers]
  exact (klineCallback_outcome event candlesticks).safe_iff

/-- **The callback is safe** for an event of the tickers or one whose candle it can handle, and for no other
one with `kline` in its topic. -/
theorem dataEventCallback_safe_iff (hkline : Contains event.topic "kline") :
    (∀ candlesticks, Safe event candlesticks (dataEventCallback utils splitString event candlesticks)) ↔
      Contains event.topic "tickers" ∨ event.data ≠ .arr [] ∧ ∀ candle, candleOf event = some candle →
        EventCandlestick.fromJson utils candle = none ∨ HasCandleInterval candle := by
  by_cases htickers : Contains event.topic "tickers"
  · refine iff_of_true (fun candlesticks => ?_) (Or.inl htickers)
    rw [dataEventCallback_of_tickers htickers]
    exact safe_unchanged event candlesticks
  · rw [or_iff_right htickers]
    constructor
    · intro h
      exact (kline_safe_iff hkline htickers).1 (h fun _ => none)
    · intro h candlesticks
      exact (kline_safe_iff hkline htickers).2 h

/-- A message of the stream with these candles. -/
def klineMessage (candles : List Json) : Json :=
  .obj [("topic", .str "kline.1.BTCUSDT"), ("data", .arr candles), ("ts", .num 1672324988882), ("type", .str "snapshot")]

def klineEvent (candles : List Json) : Event := ⟨"kline.1.BTCUSDT", .snapshot, 1672324988882, .arr candles⟩

theorem dataEventCallback_safe_oneMinute : Safe (klineEvent [.obj [("interval", .str "1")]]) (fun _ => none)
    (dataEventCallback absentOnly recordsOf (klineEvent [.obj [("interval", .str "1")]]) fun _ => none) := by
  refine (dataEventCallback_safe_iff (by decide +kernel)).2 (Or.inr ⟨by simp [klineEvent], ?_⟩) _
  rintro candle ⟨⟩
  exact Or.inr ⟨"1", ._1, rfl, by decide +kernel⟩

/-- Messages without a candle, and with one of two minutes: the callback reads what is not there. -/
theorem kline_undefined :
    Event.fromJson absentOnly (klineMessage []) = some (klineEvent []) ∧
    Event.fromJson absentOnly (klineMessage [.obj [("interval", .str "2")]]) =
      some (klineEvent [.obj [("interval", .str "2")]]) ∧
    Contains (klineEvent []).topic "kline" ∧
    dataEventCallback absentOnly recordsOf (klineEvent []) (fun _ => none) = .error .noElement ∧
    dataEventCallback absentOnly recordsOf (klineEvent [.obj [("interval", .str "2")]]) (fun _ => none) =
      .error .noValue := by
  refine ⟨rfl, rfl, by decide +kernel, ?_, ?_⟩
  · rw [dataEventCallback_of_kline (by decide +kernel) (by decide +kernel)]
    rfl
  · rw [dataEventCallback_of_kline (by decide +kernel) (by decide +kernel)]
    rfl

end Kline

end BybitApi.Candlesticks
