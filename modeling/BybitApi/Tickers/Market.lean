import BybitApi.Lib.Runs
import BybitApi.Tickers.Manager

/-!
# The manager and the venue

A run of the ticker cache: the venue and its stream on the one side, the threads that call the manager on
the other. A section of a call that holds the lock is one step, and between two sections of one call
anything can happen.

The venue sends a snapshot of all fields when a subscription begins, and a delta of exactly the changed
fields whenever the quote changes. Messages come in order, and the connection can be lost at any time.
When a subscription begins and ends is up to the venue and to the session, which asks for it again after
a reconnection. A REST answer has the quote of the moment at which the venue gives it.
-/

namespace BybitApi.Tickers

open Lib

/-- What the venue calls a symbol. -/
def IsSymbol (name : String) : Prop := name ≠ "" ∧ normalizeSymbol name = name ∧ '.' ∉ name.toList

instance (name : String) : Decidable (IsSymbol name) := inferInstanceAs (Decidable (_ ∧ _))

structure Symbol where
  name : String
  isSymbol : IsSymbol name
  deriving DecidableEq

def Symbol.topic (s : Symbol) : String := "tickers." ++ s.name

/-- `splitString` cuts a text at the separator. -/
def CutsRecords (splitString : String → Char → List String) : Prop :=
  ∀ (a b : String) (separator : Char), a ≠ "" → b ≠ "" → separator ∉ a.toList → separator ∉ b.toList →
    splitString (a ++ String.singleton separator ++ b) separator = [a, b]

/-- One that does. -/
def recordsOf (text : String) (separator : Char) : List String := (text.toList.splitOn separator).map String.ofList

theorem recordsOf_cuts : CutsRecords recordsOf := by
  intro a b separator _ _ ha hb
  have htext : (a ++ String.singleton separator ++ b).toList = a.toList ++ separator :: b.toList := by
    simp
  unfold recordsOf
  rw [htext, List.splitOn_append_cons_self_of_not_mem ha, List.splitOn_eq_singleton hb]
  simp

/-! ## The stream -/

def snapshotOf (s : Symbol) (quote : Level) : Event := ⟨s.topic, .snapshot, some s.name, Patch.full quote⟩

/-- A delta carries no symbol. -/
def deltaOf (s : Symbol) (quote quote' : Level) : Event := ⟨s.topic, .delta, none, Patch.diff quote quote'⟩

structure Feed where
  quotes : Symbol → Level
  /-- The venue serves a subscription of the symbol. -/
  serving : Symbol → Bool
  /-- Sent and not handled yet, the next one first. -/
  inFlight : List Event
  /-- History: the symbol was not unsubscribed since the subscription began. -/
  kept : Symbol → Bool

namespace Feed

def init (quotes : Symbol → Level) : Feed := ⟨quotes, fun _ => false, [], fun _ => false⟩

def moves (s : Symbol) (quote : Level) (f : Feed) : Feed where
  quotes := Function.update f.quotes s quote
  serving := f.serving
  inFlight := if f.serving s then f.inFlight ++ [deltaOf s (f.quotes s) quote] else f.inFlight
  kept := f.kept

def begins (s : Symbol) (f : Feed) : Feed where
  quotes := f.quotes
  serving := Function.update f.serving s true
  inFlight := f.inFlight ++ [snapshotOf s (f.quotes s)]
  kept := Function.update f.kept s true

def ends (s : Symbol) (f : Feed) : Feed := { f with serving := Function.update f.serving s false }

def disconnects (f : Feed) : Feed := { f with serving := fun _ => false, inFlight := [] }

def unsubscribed (pair : String) (f : Feed) : Feed :=
  { f with kept := fun s => f.kept s && s.name ≠ normalizeSymbol pair }

/-- The venue serves the symbol, and not only because it has not seen an unsubscribe yet. -/
def Subscribed (f : Feed) (s : Symbol) : Prop := f.serving s = true ∧ f.kept s = true

instance (f : Feed) (s : Symbol) : Decidable (f.Subscribed s) := inferInstanceAs (Decidable (_ ∧ _))

/-- The patches on the way for a symbol. -/
def coming (f : Feed) (s : Symbol) : List (Patch Field ℚ) :=
  (f.inFlight.filter fun event => event.topic = s.topic).map fun event => event.data.carried

variable {f : Feed} {s : Symbol} {quote : Level} {event : Event}

theorem mem_moves (h : event ∈ (f.moves s quote).inFlight) :
    event ∈ f.inFlight ∨ event = deltaOf s (f.quotes s) quote := by
  unfold moves at h
  dsimp only at h
  split at h
  · rcases List.mem_append.1 h with h | h
    · exact Or.inl h
    · exact Or.inr (List.mem_singleton.1 h)
  · exact Or.inl h

theorem mem_begins (h : event ∈ (f.begins s).inFlight) :
    event ∈ f.inFlight ∨ event = snapshotOf s (f.quotes s) := by
  rcases List.mem_append.1 h with h | h
  · exact Or.inl h
  · exact Or.inr (List.mem_singleton.1 h)

end Feed

/-! ## The calls -/

/-- A call in progress. A refresh belongs to `readEventTicker`, which returns what it gives, or to
`subscribeTickerStream`. -/
inductive Call where
  | reading (symbol : String) (deadline : ℤ)
  | requested (symbol : String) (reader : Bool)
  | answered (symbol : String) (reader : Bool) (answer : Option (List Level))
  deriving DecidableEq

/-- A REST refresh is in flight. -/
def Call.refreshing : Call → Bool
  | reading _ _ => false
  | _ => true

/-- What happened to the cache, and which tickers came out of it. -/
inductive Happening where
  | handled (event : Event)
  | stored (symbol : String) (snapshot : Level)
  | erased (symbol : String)
  /-- `tickerUpdateCB` is called. -/
  | delivered (ticker : EventTicker)
  /-- `readEventTicker` returns. -/
  | returned (ticker : EventTicker)

/-- The ticker that comes out. -/
def Happening.given : Happening → Option EventTicker
  | delivered ticker | returned ticker => some ticker
  | _ => none

structure Market where
  manager : Manager
  calls : List Call
  feed : Feed
  /-- History, latest first. -/
  trace : List Happening

inductive Action where
  | moves (s : Symbol) (quote : Level)
  | begins (s : Symbol)
  | ends (s : Symbol)
  | disconnects
  /-- The next message is handled. -/
  | receives (now : ℤ)
  /-- `already` is what `isSubscribed` says. -/
  | subscribes (pair : String) (already : Bool)
  | unsubscribes (pair : String)
  | reads (pair : String) (now : ℤ)
  /-- A round of the loop of `readEventTicker`. -/
  | goesOn (symbol : String) (deadline now : ℤ)
  /-- The venue answers a request. -/
  | answers (s : Symbol) (reader : Bool)
  /-- A request fails, or its answer has no ticker. -/
  | fails (symbol : String) (reader empty : Bool)
  /-- The answer of a request is taken in. -/
  | finishes (symbol : String) (reader : Bool) (answer : Option (List Level)) (now : ℤ)
  | setTimeout (seconds : ℤ)
  | setMaxTickAge (seconds : ℤ)

namespace Market

def init (quotes : Symbol → Level) : Market := ⟨{}, [], .init quotes, []⟩

/-- One call gives way to its next stage. -/
def becomes (call next : Call) (w : Market) : Market := { w with calls := next :: w.calls.erase call }

/-- The call ends. -/
def done (call : Call) (w : Market) : Market := { w with calls := w.calls.erase call }

/-- The data event callback on a message that was in flight. -/
def receives (splitString : String → Char → List String) (event : Event) (rest : List Event) (now : ℤ)
    (w : Market) : Market where
  manager := (w.manager.dataEventCallback splitString event now).1
  calls := w.calls
  feed := { w.feed with inFlight := rest }
  trace := ((w.manager.dataEventCallback splitString event now).2.map .delivered).toList ++
    .handled event :: w.trace

/-- A first subscription seeds the cache over REST. -/
def subscribeTickerStream (pair : String) (already : Bool) (w : Market) : Market :=
  if already then w else { w with calls := .requested (normalizeSymbol pair) false :: w.calls }

def unsubscribeTickerStream (pair : String) (w : Market) : Market where
  manager := w.manager.unsubscribeTickerStream pair
  calls := w.calls
  feed := w.feed.unsubscribed pair
  trace := .erased (normalizeSymbol pair) :: w.trace

def readEventTicker (pair : String) (now : ℤ) (w : Market) : Market :=
  { w with calls := .reading (normalizeSymbol pair) (now + w.manager.timeout * 1000000000) :: w.calls }

/-- A reader that leaves the loop falls back to REST. -/
def goesOn (symbol : String) (deadline now : ℤ) (w : Market) : Market :=
  match w.manager.readRound symbol deadline now with
  | .destroyed => w.done (.reading symbol deadline)
  | .returns ticker => { w.done (.reading symbol deadline) with trace := .returned ticker :: w.trace }
  | .sleeps => w
  | .leaves => w.becomes (.reading symbol deadline) (.requested symbol true)

/-- `refreshTickerFromREST` once it has the answer. -/
def finishes (symbol : String) (reader : Bool) (answer : Option (List Level)) (now : ℤ) (w : Market) : Market :=
  match w.manager.refreshTickerFromREST symbol answer now with
  | (_, none) => w.done (.answered symbol reader answer)
  | (manager, some ticker) =>
    { w.done (.answered symbol reader answer) with
      manager := manager
      trace := (if reader then [.returned ticker] else []) ++ .stored ticker.symbol ticker.level :: w.trace }

def step (splitString : String → Char → List String) (w : Market) : Action → Option Market
  | .moves s quote => some { w with feed := w.feed.moves s quote }
  | .begins s => if w.feed.serving s then none else some { w with feed := w.feed.begins s }
  | .ends s => if w.feed.serving s then some { w with feed := w.feed.ends s } else none
  | .disconnects => some { w with feed := w.feed.disconnects }
  | .receives now =>
    match w.feed.inFlight with
    | [] => none
    | event :: rest => some (w.receives splitString event rest now)
  | .subscribes pair already => some (w.subscribeTickerStream pair already)
  | .unsubscribes pair => some (w.unsubscribeTickerStream pair)
  | .reads pair now => some (w.readEventTicker pair now)
  | .goesOn symbol deadline now =>
    if .reading symbol deadline ∈ w.calls then some (w.goesOn symbol deadline now) else none
  | .answers s reader =>
    if .requested s.name reader ∈ w.calls then
      some (w.becomes (.requested s.name reader) (.answered s.name reader (some [w.feed.quotes s])))
    else none
  | .fails symbol reader empty =>
    if .requested symbol reader ∈ w.calls then
      some (w.becomes (.requested symbol reader) (.answered symbol reader (if empty then some [] else none)))
    else none
  | .finishes symbol reader answer now =>
    if .answered symbol reader answer ∈ w.calls then some (w.finishes symbol reader answer now) else none
  | .setTimeout seconds => some { w with manager := { w.manager with timeout := seconds } }
  | .setMaxTickAge seconds => some { w with manager := { w.manager with maxTickAge := seconds } }

/-- The manager and a venue with these quotes. -/
def system (splitString : String → Char → List String) (quotes : Symbol → Level) : System Market Action :=
  ⟨init quotes, step splitString⟩

/-- What a step does to the cache, to the feed and to the history. -/
inductive Outcome (splitString : String → Char → List String) (w : Market) : Action → Market → Prop
  | moves (s : Symbol) (quote : Level) :
    Outcome splitString w (.moves s quote) { w with feed := w.feed.moves s quote }
  | begins (s : Symbol) : Outcome splitString w (.begins s) { w with feed := w.feed.begins s }
  | ends (s : Symbol) : Outcome splitString w (.ends s) { w with feed := w.feed.ends s }
  | disconnects : Outcome splitString w .disconnects { w with feed := w.feed.disconnects }
  | receives {event : Event} {rest : List Event} (now : ℤ) (hnext : w.feed.inFlight = event :: rest) :
    Outcome splitString w (.receives now) (w.receives splitString event rest now)
  | unsubscribes (pair : String) : Outcome splitString w (.unsubscribes pair) (w.unsubscribeTickerStream pair)
  | returns {symbol : String} {deadline now : ℤ} {ticker : EventTicker}
      (hcache : w.manager.tickers symbol = some ticker) :
    Outcome splitString w (.goesOn symbol deadline now)
      { w.done (.reading symbol deadline) with trace := .returned ticker :: w.trace }
  | stores {symbol : String} {reader : Bool} {snapshot : Level} {more : List Level} {now : ℤ}
      (hask : ¬ Manager.HasNoBidAsk snapshot) :
    Outcome splitString w (.finishes symbol reader (some (snapshot :: more)) now)
      { w.done (.answered symbol reader (some (snapshot :: more))) with
        manager := w.manager.insertOrAssign symbol ⟨symbol, snapshot, steadyNowMs now⟩
        trace := (if reader then [.returned ⟨symbol, snapshot, steadyNowMs now⟩] else []) ++
          .stored symbol snapshot :: w.trace }
  | quiet {a : Action} {w' : Market} (hcache : w'.manager.tickers = w.manager.tickers)
      (hfeed : w'.feed = w.feed) (htrace : w'.trace = w.trace) : Outcome splitString w a w'

variable {splitString : String → Char → List String} {w w' : Market} {a : Action}

theorem goesOn_outcome (symbol : String) (deadline now : ℤ) :
    Outcome splitString w (.goesOn symbol deadline now) (w.goesOn symbol deadline now) := by
  unfold goesOn
  cases hround : w.manager.readRound symbol deadline now with
  | destroyed => exact .quiet rfl rfl rfl
  | returns ticker => exact .returns (Manager.tickers_of_returns hround)
  | sleeps => exact .quiet rfl rfl rfl
  | leaves => exact .quiet rfl rfl rfl

theorem finishes_outcome (symbol : String) (reader : Bool) (answer : Option (List Level)) (now : ℤ) :
    Outcome splitString w (.finishes symbol reader answer now) (w.finishes symbol reader answer now) := by
  unfold finishes
  obtain heq | ⟨snapshot, more, rfl, hask, heq⟩ := Manager.refreshTickerFromREST_cases symbol answer now w.manager
  · rw [heq]
    exact .quiet rfl rfl rfl
  · rw [heq]
    exact .stores hask

theorem step_outcome (hs : step splitString w a = some w') : Outcome splitString w a w' := by
  cases a with
  | moves s quote =>
    cases hs
    exact .moves s quote
  | begins s =>
    obtain ⟨-, hs⟩ := Option.ite_none_left_eq_some.1 hs
    cases hs
    exact .begins s
  | ends s =>
    obtain ⟨-, hs⟩ := Option.ite_none_right_eq_some.1 hs
    cases hs
    exact .ends s
  | disconnects =>
    cases hs
    exact .disconnects
  | receives now =>
    simp only [step] at hs
    split at hs
    · cases hs
    · next event rest hnext =>
      cases hs
      exact .receives now hnext
  | subscribes pair already =>
    cases hs
    unfold subscribeTickerStream
    split <;> exact .quiet rfl rfl rfl
  | unsubscribes pair =>
    cases hs
    exact .unsubscribes pair
  | goesOn symbol deadline now =>
    obtain ⟨-, hs⟩ := Option.ite_none_right_eq_some.1 hs
    cases hs
    exact goesOn_outcome symbol deadline now
  | finishes symbol reader answer now =>
    obtain ⟨-, hs⟩ := Option.ite_none_right_eq_some.1 hs
    cases hs
    exact finishes_outcome symbol reader answer now
  -- a call that begins or is answered, and a setting
  | answers _ _ | fails _ _ _ =>
    obtain ⟨-, hs⟩ := Option.ite_none_right_eq_some.1 hs
    cases hs
    exact .quiet rfl rfl rfl
  | reads _ _ | setTimeout _ | setMaxTickAge _ =>
    cases hs
    exact .quiet rfl rfl rfl

end Market

/-! ## A symbol and two quotes -/

def btcusdt : Symbol := ⟨"BTCUSDT", by decide⟩

/-- All at 100. -/
def flat : Level := fun _ => 100

/-- The ask goes up. -/
def raised : Level := fun field => if field = .ask1Price then 101 else 100

end BybitApi.Tickers
