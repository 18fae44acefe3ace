import BybitApi.Lib.Patch
import Mathlib.Algebra.Order.Ring.Rat
import Mathlib.Data.Fintype.Pi
import Mathlib.Data.List.Infix

/-!
# The ticker cache

`WSStreamManager`, its ticker side: the cache, what a stream message makes of it, the refresh over REST,
and one round of `readEventTicker`. Each function below is the section of its source function that holds
`instrumentInfoLocker`, with what was read before it as an argument: the answer of the venue, the clock.

`splitString` is `stonky/utils`. A clock reading is in nanoseconds.

Left out: the candlesticks, which have a cache and a lock of their own (`Candlesticks`), the messages that
`loadEventData` cannot read, which are logged, and the log.
-/

namespace BybitApi.Tickers

open Lib

/-- The fields that a ticker quotes. -/
inductive Field where
  | ask1Price | ask1Size | bid1Price | bid1Size | lastPrice
  deriving DecidableEq

instance : Fintype Field where
  elems := ⟨([.ask1Price, .ask1Size, .bid1Price, .bid1Size, .lastPrice] : List Field), by decide⟩
  complete := fun field => by cases field <;> decide

/-- A number in each field: of an `EventTicker`, and of the `Ticker` that REST answers. -/
abbrev Level : Type := Field → ℚ

inductive ResponseType where
  | snapshot | delta
  deriving DecidableEq

/-- The object in `data`: what the readers find under the key of each field. -/
structure TickerData where
  symbol : Option String
  carried : Patch Field ℚ

structure Event where
  topic : String
  type : ResponseType
  data : TickerData

structure EventTicker where
  symbol : String := ""
  level : Level := 0
  receivedTimestamp : ℤ := 0

namespace EventTicker

instance : DecidableEq EventTicker := fun t t' =>
  decidable_of_iff (t.symbol = t'.symbol ∧ t.level = t'.level ∧ t.receivedTimestamp = t'.receivedTimestamp) (by
    cases t
    cases t'
    simp)

/-- An absent key leaves the field as it is. -/
def fromJson (data : TickerData) (ticker : EventTicker) : EventTicker :=
  { ticker with symbol := data.symbol.getD ticker.symbol, level := data.carried.onto ticker.level }

def loadEventData (event : Event) (ticker : EventTicker) : EventTicker :=
  match event.type with
  | .snapshot => ticker.fromJson event.data
  | .delta => ticker.fromJson event.data

@[simp] theorem level_loadEventData (event : Event) (ticker : EventTicker) :
    (ticker.loadEventData event).level = event.data.carried.onto ticker.level := by
  unfold loadEventData
  cases event.type <;> rfl

end EventTicker

/-- What the gateway makes of a ticker, for its quote callback and for the reader of a quote. -/
structure Quote where
  bid : ℚ
  ask : ℚ
  receivedAt : ℤ

def toQuote (ticker : EventTicker) : Quote where
  bid := ticker.level .bid1Price
  ask := ticker.level .ask1Price
  receivedAt := ticker.receivedTimestamp

/-- `boost::algorithm::to_upper_copy`, in the C locale. -/
def normalizeSymbol (pair : String) : String := String.ofList (pair.toList.map Char.toUpper)

def steadyNowMs (now : ℤ) : ℤ := now.tdiv 1000000

def readSymbolFromFilter (splitString : String → Char → List String) (subscriptionFilter : String) : String :=
  match (splitString subscriptionFilter '.').getLast? with
  | some back => back
  | none => ""

/-- `event.topic.find("tickers") != npos`. -/
def IsTickers (event : Event) : Prop := "tickers".toList <:+: event.topic.toList

instance (event : Event) : Decidable (IsTickers event) := inferInstanceAs (Decidable (_ <:+: _))

structure Manager where
  timeout : ℤ := 5
  maxTickAge : ℤ := 60
  tickers : String → Option EventTicker := fun _ => none

namespace Manager

/-- `tickers.insert_or_assign(symbol, ticker)`. -/
def insertOrAssign (symbol : String) (ticker : EventTicker) (m : Manager) : Manager :=
  { m with tickers := Function.update m.tickers symbol (some ticker) }

def isStale (ticker : EventTicker) (now : ℤ) (m : Manager) : Bool :=
  if m.maxTickAge ≤ 0 then false
  else ticker.receivedTimestamp ≤ 0 || m.maxTickAge * 1000 < steadyNowMs now - ticker.receivedTimestamp

/-- The check of `refreshTickerFromREST`. -/
def HasNoBidAsk (snapshot : Level) : Prop := snapshot .ask1Price ≤ 0 ∨ snapshot .bid1Price ≤ 0

instance (snapshot : Level) : Decidable (HasNoBidAsk snapshot) := inferInstanceAs (Decidable (_ ∨ _))

/-- `answer` is the tickers that `getTickers` returned; `none` where there is no client or it threw. -/
def refreshTickerFromREST (symbol : String) (answer : Option (List Level)) (now : ℤ) (m : Manager) :
    Manager × Option EventTicker :=
  match answer with
  | none => (m, none)
  | some [] => (m, none)
  | some (snapshot :: _) =>
    if HasNoBidAsk snapshot then (m, none)
    else
      let eventTicker : EventTicker := ⟨symbol, snapshot, steadyNowMs now⟩
      (m.insertOrAssign symbol eventTicker, some eventTicker)

section Callback

variable (splitString : String → Char → List String)

/-- The key of the cache that a message of the stream is for. -/
def symbolOf (event : Event) : String := normalizeSymbol (readSymbolFromFilter splitString event.topic)

/-- The data event callback. With the cache it gives the copy that `tickerUpdateCB` is called with. -/
def dataEventCallback (event : Event) (now : ℤ) (m : Manager) : Manager × Option EventTicker :=
  if IsTickers event then
    let symbol := symbolOf splitString event
    match m.tickers symbol with
    | none =>
      let eventTicker : EventTicker :=
        { ({} : EventTicker).loadEventData event with symbol := symbol, receivedTimestamp := steadyNowMs now }
      (m.insertOrAssign symbol eventTicker, some eventTicker)
    | some ticker =>
      let merged : EventTicker :=
        { ticker.loadEventData event with symbol := symbol, receivedTimestamp := steadyNowMs now }
      (m.insertOrAssign symbol merged, some merged)
  else (m, none)

end Callback

/-- What `unsubscribeTickerStream` does to the cache. -/
def unsubscribeTickerStream (pair : String) (m : Manager) : Manager :=
  { m with tickers := Function.update m.tickers (normalizeSymbol pair) none }

/-- How a round of the loop of `readEventTicker` ends. -/
inductive Round where
  | destroyed
  | returns (ticker : EventTicker)
  | sleeps
  | leaves

/-- A round of the loop of `readEventTicker`. -/
def readRound (symbol : String) (deadline now : ℤ) (m : Manager) : Round :=
  if m.timeout = 0 then .destroyed
  else
    match m.tickers symbol with
    | some ticker => if m.isStale ticker now then .leaves else .returns ticker
    | none => if deadline ≤ now then .leaves else .sleeps

/-! ## What they make of the cache -/

section Levels

variable {splitString : String → Char → List String} {event : Event} {m m' : Manager} {now deadline : ℤ}
  {symbol key : String} {t : EventTicker}

/-- The numbers in the cache for a symbol. -/
def cached (m : Manager) (symbol : String) : Option Level := (m.tickers symbol).map EventTicker.level

@[simp] theorem tickers_insertOrAssign_self : (m.insertOrAssign symbol t).tickers symbol = some t := by
  unfold insertOrAssign
  exact Function.update_self symbol (some t) m.tickers

theorem tickers_insertOrAssign_of_ne (h : key ≠ symbol) :
    (m.insertOrAssign symbol t).tickers key = m.tickers key := by
  unfold insertOrAssign
  exact Function.update_of_ne h (some t) m.tickers

@[simp] theorem cached_insertOrAssign_self : (m.insertOrAssign symbol t).cached symbol = some t.level := by
  rw [cached, tickers_insertOrAssign_self]
  rfl

theorem cached_insertOrAssign_of_ne (h : key ≠ symbol) :
    (m.insertOrAssign symbol t).cached key = m.cached key := by
  rw [cached, tickers_insertOrAssign_of_ne h]
  rfl

/-- A message of the stream: one ticker is merged, kept under its symbol and delivered. -/
theorem dataEventCallback_eq (splitString : String → Char → List String) (now : ℤ) (m : Manager)
    (h : IsTickers event) : ∃ ticker : EventTicker,
    m.dataEventCallback splitString event now =
        (m.insertOrAssign (symbolOf splitString event) ticker, some ticker) ∧
      ticker.symbol = symbolOf splitString event ∧
      event.data.carried.take (m.cached (symbolOf splitString event)) = some ticker.level := by
  unfold dataEventCallback cached
  rw [if_pos h]
  dsimp only
  cases m.tickers (symbolOf splitString event) with
  | none =>
    refine ⟨{ ({} : EventTicker).loadEventData event with
      symbol := symbolOf splitString event, receivedTimestamp := steadyNowMs now }, rfl, rfl, ?_⟩
    exact congrArg some (EventTicker.level_loadEventData event {}).symm
  | some ticker =>
    refine ⟨{ ticker.loadEventData event with
      symbol := symbolOf splitString event, receivedTimestamp := steadyNowMs now }, rfl, rfl, ?_⟩
    exact congrArg some (EventTicker.level_loadEventData event ticker).symm

theorem dataEventCallback_of_not (h : ¬ IsTickers event) :
    m.dataEventCallback splitString event now = (m, none) := if_neg h

/-- A refresh stores what it returns, or neither. -/
theorem refreshTickerFromREST_cases (symbol : String) (answer : Option (List Level)) (now : ℤ) (m : Manager) :
    m.refreshTickerFromREST symbol answer now = (m, none) ∨
      ∃ snapshot rest, answer = some (snapshot :: rest) ∧ ¬ HasNoBidAsk snapshot ∧
        m.refreshTickerFromREST symbol answer now =
          (m.insertOrAssign symbol ⟨symbol, snapshot, steadyNowMs now⟩,
            some ⟨symbol, snapshot, steadyNowMs now⟩) := by
  rcases answer with - | - | ⟨snapshot, rest⟩
  · exact Or.inl rfl
  · exact Or.inl rfl
  · by_cases hno : HasNoBidAsk snapshot
    · exact Or.inl (if_pos hno)
    · exact Or.inr ⟨snapshot, rest, rfl, hno, if_neg hno⟩

theorem tickers_unsubscribe_self {pair : String} :
    (m.unsubscribeTickerStream pair).tickers (normalizeSymbol pair) = none := by
  unfold unsubscribeTickerStream
  exact Function.update_self (normalizeSymbol pair) none m.tickers

theorem tickers_unsubscribe_of_ne {pair : String} (h : key ≠ normalizeSymbol pair) :
    (m.unsubscribeTickerStream pair).tickers key = m.tickers key := by
  unfold unsubscribeTickerStream
  exact Function.update_of_ne h none m.tickers

/-- What a round returns is in the cache. -/
theorem tickers_of_returns (h : m.readRound symbol deadline now = .returns t) : m.tickers symbol = some t := by
  unfold readRound at h
  split at h
  · cases h
  · split at h
    · next ticker hticker =>
      split at h
      · cases h
      · cases h
        exact hticker
    · split at h <;> cases h

end Levels

end Manager

end BybitApi.Tickers
