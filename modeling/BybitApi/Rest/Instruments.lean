import BybitApi.Lib.Call
import BybitApi.Lib.Runs
import BybitApi.Rest.Client
import BybitApi.Rest.Pages

/-!
# Instruments

The instruments that `RESTClient` keeps between its calls, and the calls that read and write them.
There is one list for all categories.
-/

namespace BybitApi.Rest

open Lib

inductive ContractStatus where
  | PreLaunch | Trading | Settling | Delivering | Closed
  deriving DecidableEq

structure PriceFilter where
  tickSize : ℚ := 0
  deriving DecidableEq

structure LotSizeFilter where
  qtyStep : ℚ := 0
  deriving DecidableEq

structure Instrument where
  symbol : String := ""
  contractStatus : ContractStatus := .Trading
  quoteCoin : String := ""
  priceFilter : PriceFilter := {}
  lotSizeFilter : LotSizeFilter := {}
  deriving DecidableEq

def Instrument.steps (i : Instrument) : ℚ × ℚ := (i.priceFilter.tickSize, i.lotSizeFilter.qtyStep)

/-- The parameters of `/v5/market/instruments-info`; an empty one is left out. -/
structure InstrumentsRequest where
  category : Category
  symbol : Option String
  cursor : Option String
  status : Option String
  deriving DecidableEq

def instrumentsRequest (category : Category) (symbol cursor status : String) : InstrumentsRequest :=
  ⟨category, unlessEmpty symbol, unlessEmpty cursor, unlessEmpty status⟩

/-- A fetch that came to its end: all pages of one listing. -/
structure Fetch where
  /-- How many were begun before it. -/
  number : ℕ
  category : Category
  symbol : String
  status : String
  instruments : List Instrument
  deriving DecidableEq

/-- The arguments of `getInstrumentsInfo`. -/
structure InfoCall where
  category : Category
  symbol : String := ""
  force : Bool := false
  status : String := ""
  deriving DecidableEq

inductive Event where
  | fetched (fetch : Fetch)
  | stored (fetch : Fetch)
  /-- By the public `setInstruments`. -/
  | replaced (instruments : List Instrument)
  /-- A call of `getInstrumentsInfo`, what it found in the cache and what it left there. -/
  | returned (call : InfoCall) (before after : List Instrument) (result : Except Exception (List Instrument))
  /-- `findPricePrecisionsForInstrument` returned true. -/
  | found (category : Category) (symbol : String) (steps : ℚ × ℚ)
  /-- `getInstrumentInfo` returned an instrument. -/
  | listed (category : Category) (symbol : String) (instrument : Instrument)
  /-- `placeOrder` or `amendOrder` formats with these steps. -/
  | formatted (category : Category) (symbol : String) (steps : ℚ × ℚ)

structure Cache where
  /-- `m_instruments`. -/
  instruments : List Instrument
  /-- Fetches begun. -/
  begun : ℕ
  /-- History, latest first. -/
  trace : List Event

namespace Cache

def empty : Cache := ⟨[], 0, []⟩

def record (e : Event) (s : Cache) : Cache := { s with trace := e :: s.trace }

/-- `P::setInstruments`, after a fetch. -/
def store (fetch : Fetch) (s : Cache) : Cache :=
  { s with instruments := fetch.instruments, trace := .stored fetch :: s.trace }

def replace (instruments : List Instrument) (s : Cache) : Cache :=
  { s with instruments := instruments, trace := .replaced instruments :: s.trace }

def begin (s : Cache) : Cache := { s with begun := s.begun + 1 }

end Cache

/-- What the fetches of a run meet. -/
structure InstrumentVenue where
  /-- The `n`-th page of a fetch, checked and decoded; fetches are numbered as they begin. -/
  page : ℕ → ℕ → InstrumentsRequest → Except Exception (Page Instrument)
  /-- `fetchPublicSpotSymbols`, numbered with the fetches; it returns no symbol when it fails. -/
  publicSpotSymbols : ℕ → List String

section Calls

variable (venue : InstrumentVenue) (rounds : ℕ)

/-- The loop over the pages. -/
def fetchInstruments (category : Category) (symbol status : String) : Call Exception Cache Fetch := do
  let s ← get
  modify Cache.begin
  let instruments ← Call.ofOption (listing
    (fun n cursor => venue.page s.begun n (instrumentsRequest category symbol cursor status)) rounds)
  modify (Cache.record (.fetched ⟨s.begun, category, symbol, status, instruments⟩))
  return ⟨s.begun, category, symbol, status, instruments⟩

def fetchAndStore (category : Category) (symbol : String) : Call Exception Cache Fetch := do
  let fetch ← fetchInstruments venue rounds category symbol ""
  modify (Cache.store fetch)
  return fetch

/-- The symbols that are public but not active. -/
def delisted (publicSymbols : List String) (active : List Instrument) : List Instrument :=
  (publicSymbols.filter fun sym =>
    "USDT".toList.isSuffixOf sym.toList && !(active.any fun i => i.symbol = sym)).map
      fun sym => { symbol := sym, quoteCoin := "USDT", contractStatus := .Closed }

def delistedSpot : Call Exception Cache (List Instrument) := do
  let s ← get
  modify Cache.begin
  return delisted (venue.publicSpotSymbols s.begun) s.instruments

/-- With a status. The listing that an empty cache asks for goes out without it, and is stored. -/
def infoWithStatus (call : InfoCall) : Call Exception Cache (List Instrument) := do
  let s ← get
  if call.category ≠ .spot then
    Fetch.instruments <$> fetchInstruments venue rounds call.category call.symbol call.status
  else if s.instruments = [] then
    fetchAndStore venue rounds call.category call.symbol *> delistedSpot venue
  else delistedSpot venue

/-- Without one. Only a fetch of the full universe is stored. -/
def infoWithoutStatus (call : InfoCall) : Call Exception Cache (List Instrument) := do
  let s ← get
  if s.instruments ≠ [] ∧ call.force = false then return s.instruments
  else if call.symbol = "" then Fetch.instruments <$> fetchAndStore venue rounds call.category ""
  else Fetch.instruments <$> fetchInstruments venue rounds call.category call.symbol ""

/-- `RESTClient::getInstrumentsInfo`. -/
def getInstrumentsInfo (call : InfoCall) : Call Exception Cache (List Instrument) := fun s =>
  ((if call.status = "" then infoWithoutStatus venue rounds call else infoWithStatus venue rounds call) s).map
    fun (r, s') => (r, s'.record (.returned call s.instruments s'.instruments r))

def findSymbol (symbol : String) (instruments : List Instrument) : Option Instrument :=
  instruments.find? fun i => i.symbol = symbol

/-- The cache may miss a market that was listed later. -/
def orFetch (category : Category) (symbol : String) (known : List Instrument) :
    Call Exception Cache (Option Instrument) :=
  match findSymbol symbol known with
  | some i => pure (some i)
  | none => findSymbol symbol <$> getInstrumentsInfo venue rounds ⟨category, symbol, true, ""⟩

def recordSome {α : Type} (event : α → Event) : Option α → Call Exception Cache Unit
  | some a => modify (Cache.record (event a))
  | none => pure ()

/-- The list that `getInstrumentInfo` looks in; an empty cache is filled first. -/
def knownInstruments (category : Category) : Call Exception Cache (List Instrument) := do
  let s ← get
  if s.instruments ≠ [] then return s.instruments
  else
    let _ ← getInstrumentsInfo venue rounds { category }
    let s ← get
    return s.instruments

def getInstrumentInfo (category : Category) (symbol : String) : Call Exception Cache (Option Instrument) := do
  let known ← knownInstruments venue rounds category
  let instrument ← orFetch venue rounds category symbol known
  recordSome (.listed category symbol) instrument
  return instrument

def findPricePrecisionsForInstrument (category : Category) (symbol : String) :
    Call Exception Cache (Option (ℚ × ℚ)) := do
  let known ← getInstrumentsInfo venue rounds { category }
  let instrument ← orFetch venue rounds category symbol known
  recordSome (.found category symbol) (instrument.map Instrument.steps)
  return instrument.map Instrument.steps

/-- `rest` is the client but for this look-up. -/
def placeOrder (rest : RESTClient) (order : Order) : Call Exception Cache OrderId := do
  let steps ← findPricePrecisionsForInstrument venue rounds order.category order.symbol
  recordSome (.formatted order.category order.symbol) steps
  Call.ofExcept ({ rest with findPricePrecisionsForInstrument := fun _ _ => .ok steps }.placeOrder order)

def amendOrder (rest : RESTClient) (category : Category) (symbol orderId orderLinkId : String) (price qty : ℚ) :
    Call Exception Cache OrderId := do
  let steps ← findPricePrecisionsForInstrument venue rounds category symbol
  recordSome (.formatted category symbol) steps
  Call.ofExcept ({ rest with findPricePrecisionsForInstrument := fun _ _ => .ok steps }.amendOrder category
    symbol orderId orderLinkId price qty)

end Calls

/-! ## Sequences of calls -/

inductive InstrumentOp where
  | getInstrumentsInfo (call : InfoCall)
  | getInstrumentInfo (category : Category) (symbol : String)
  | placeOrder (rest : RESTClient) (order : Order)
  | amendOrder (rest : RESTClient) (category : Category) (symbol orderId orderLinkId : String) (price qty : ℚ)
  | setInstruments (instruments : List Instrument)

namespace InstrumentOp

/-- What a call does to the cache, whether it returns or throws. -/
def run (venue : InstrumentVenue) (rounds : ℕ) (s : Cache) : InstrumentOp → Option Cache
  | getInstrumentsInfo call => (Rest.getInstrumentsInfo venue rounds call s).map Prod.snd
  | getInstrumentInfo category symbol => (Rest.getInstrumentInfo venue rounds category symbol s).map Prod.snd
  | placeOrder rest order => (Rest.placeOrder venue rounds rest order s).map Prod.snd
  | amendOrder rest category symbol orderId orderLinkId price qty =>
    (Rest.amendOrder venue rounds rest category symbol orderId orderLinkId price qty s).map Prod.snd
  | setInstruments instruments => some (s.replace instruments)

end InstrumentOp

/-- The calls of a client, each with a number of rounds that its loops end in. -/
def instrumentCalls (venue : InstrumentVenue) : System Cache (ℕ × InstrumentOp) :=
  ⟨Cache.empty, fun s a => a.2.run venue a.1 s⟩

end BybitApi.Rest
