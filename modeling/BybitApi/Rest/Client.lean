import BybitApi.Rest.Response

/-!
# The REST client

The requests of `RESTClient` that the execution gateway makes. A client is given by what a request
meets: the session, the look-up of an instrument's precisions, and the decoding of the rows of a
listing, which rests on the number helpers of `stonky/utils`. Prices and quantities are exact
rationals. A request carries its parameters before they are rendered, and the rate limiter's wait is
left out.
-/

namespace BybitApi.Rest

inductive Category where
  | spot | linear | inverse | option
  deriving DecidableEq

inductive Side where
  | Buy | Sell | None
  deriving DecidableEq

inductive OrderType where
  | Limit | Market
  deriving DecidableEq

inductive TimeInForce where
  | GTC | IOC | FOK | PostOnly
  deriving DecidableEq

structure Order where
  category : Category
  symbol : String
  side : Side
  orderType : OrderType
  qty : ℚ
  price : ℚ
  timeInForce : TimeInForce
  positionIdx : Int
  orderLinkId : String
  reduceOnly : Bool
  /-- The steps serve for formatting only. -/
  priceStep : ℚ
  qtyStep : ℚ

inductive ExecType where
  | Trade | AdlTrade | Funding | BustTrade | Delivery | Settle | BlockTrade | MovePosition
  | FutureSpread | UNKNOWN
  deriving DecidableEq

structure EventExecution where
  execId : String
  execType : ExecType
  execPrice : ℚ
  execQty : ℚ
  isMaker : Bool
  deriving DecidableEq

structure OrderResponse where
  cumExecQty : ℚ

structure OrdersResponse extends Response where
  orders : List OrderResponse

/-- A signed request. `amend` holds the steps its price and quantity are formatted with. -/
inductive Request where
  | create (order : Order)
  | amend (category : Category) (symbol orderId orderLinkId : String) (price qty priceStep qtyStep : ℚ)
  | cancel (category : Category) (symbol orderId orderLinkId : String)
  | history (category : Category) (symbol orderId orderLinkId : String)
  | executions (category : Category) (symbol orderLinkId cursor : String)

structure RESTClient where
  lib : JsonLibrary
  /-- `HTTPSession::post` and `HTTPSession::get`, for the `n`-th request that a call makes. -/
  send : Nat → Request → Except Exception HttpResponse
  /-- The price step and the quantity step; `none` where no metadata is found. -/
  findPricePrecisionsForInstrument : Category → String → Except Exception (Option (ℚ × ℚ))
  /-- `EventExecution::fromJson`. -/
  execution : Json → Except JsonError EventExecution
  /-- `OrdersResponse::fromJson`. -/
  orders : Json → Except JsonError OrdersResponse

namespace RESTClient

variable (rest : RESTClient)

def orderId (reply : Except Exception HttpResponse) : Except Exception OrderId :=
  answer rest.lib OrderId.fromJson OrderId.toResponse reply

def noMetadata (operation symbol : String) : Exception :=
  .runtimeError ("Bybit " ++ operation ++ ": no instrument metadata for " ++ symbol ++
    " — refusing to guess price/qty precision")

def placeOrder (order : Order) : Except Exception OrderId :=
  match rest.findPricePrecisionsForInstrument order.category order.symbol with
  | .error e => .error e
  | .ok none => .error (noMetadata "placeOrder" order.symbol)
  | .ok (some (priceStep, qtyStep)) =>
    rest.orderId (rest.send 0 (.create { order with priceStep := priceStep, qtyStep := qtyStep }))

def amendOrder (category : Category) (symbol orderId orderLinkId : String) (price qty : ℚ) :
    Except Exception OrderId :=
  match rest.findPricePrecisionsForInstrument category symbol with
  | .error e => .error e
  | .ok none => .error (noMetadata "amendOrder" symbol)
  | .ok (some (priceStep, qtyStep)) =>
    rest.orderId (rest.send 0 (.amend category symbol orderId orderLinkId price qty priceStep qtyStep))

section Spec

variable {rest} {order : Order} {category : Category} {symbol orderId orderLinkId : String} {price qty : ℚ}
  {steps : ℚ × ℚ} {e : Exception}

theorem placeOrder_of_error
    (h : rest.findPricePrecisionsForInstrument order.category order.symbol = .error e) :
    rest.placeOrder order = .error e := by simp only [placeOrder, h]

theorem placeOrder_of_found
    (h : rest.findPricePrecisionsForInstrument order.category order.symbol = .ok (some steps)) :
    rest.placeOrder order =
      rest.orderId (rest.send 0 (.create { order with priceStep := steps.1, qtyStep := steps.2 })) := by
  simp only [placeOrder, h]

theorem amendOrder_of_error (h : rest.findPricePrecisionsForInstrument category symbol = .error e) :
    rest.amendOrder category symbol orderId orderLinkId price qty = .error e := by simp only [amendOrder, h]

theorem amendOrder_of_found (h : rest.findPricePrecisionsForInstrument category symbol = .ok (some steps)) :
    rest.amendOrder category symbol orderId orderLinkId price qty =
      rest.orderId (rest.send 0 (.amend category symbol orderId orderLinkId price qty steps.1 steps.2)) := by
  simp only [amendOrder, h]

theorem placeOrder_cases (h : rest.placeOrder order = .error e) (hu : e.isUnknownOutcome = true) :
    rest.findPricePrecisionsForInstrument order.category order.symbol = .error e ∨
      ∃ steps, rest.findPricePrecisionsForInstrument order.category order.symbol = .ok (some steps) := by
  cases hfind : rest.findPricePrecisionsForInstrument order.category order.symbol with
  | error e' => rw [placeOrder_of_error hfind] at h; cases h; exact Or.inl rfl
  | ok found =>
    cases found with
    | none => simp only [placeOrder, hfind] at h; cases h; cases hu
    | some steps => exact Or.inr ⟨steps, rfl⟩

theorem amendOrder_cases (h : rest.amendOrder category symbol orderId orderLinkId price qty = .error e)
    (hu : e.isUnknownOutcome = true) :
    rest.findPricePrecisionsForInstrument category symbol = .error e ∨
      ∃ steps, rest.findPricePrecisionsForInstrument category symbol = .ok (some steps) := by
  cases hfind : rest.findPricePrecisionsForInstrument category symbol with
  | error e' => rw [amendOrder_of_error hfind] at h; cases h; exact Or.inl rfl
  | ok found =>
    cases found with
    | none => simp only [amendOrder, hfind] at h; cases h; cases hu
    | some steps => exact Or.inr ⟨steps, rfl⟩

end Spec

def cancelOrder (category : Category) (symbol orderId orderLinkId : String) : Except Exception OrderId :=
  rest.orderId (rest.send 0 (.cancel category symbol orderId orderLinkId))

def getOrderHistory (category : Category) (symbol orderId orderLinkId : String) :
    Except Exception (Option OrderResponse) :=
  (answer rest.lib rest.orders OrdersResponse.toResponse
    (rest.send 0 (.history category symbol orderId orderLinkId))).map fun response => response.orders.head?

/-! ## The execution list -/

def maxPages : Nat := 20

/-- The rows under `list` of a page's `result`, and its `nextPageCursor`. -/
def executionsOf (result : Json) : Except JsonError (List EventExecution × String) := do
  let rows := match result.find? "list" with
    | some (.arr elements) => elements
    | _ => []
  let executions ← rows.mapM rest.execution
  let nextCursor ← result.readValue Json.getString "nextPageCursor" ""
  return (executions, nextCursor)

def executionsPage (reply : Except Exception HttpResponse) :
    Except Exception (List EventExecution × String) :=
  match reply >>= checkResponse with
  | .error e => .error e
  | .ok response =>
    match handleBybitResponse rest.lib Response.fromJson id response with
    | .error e => .error e
    | .ok page => (rest.executionsOf page.result).mapError fun e => .json (rest.lib.what response.body e)

/-- The loop of `getExecutions` with so many pages left to read. The list is passed on only when a
page has no next cursor. -/
def executionPages (category : Category) (symbol orderLinkId : String) :
    Nat → String → List EventExecution → Except Exception (List EventExecution)
  | 0, _, executions =>
    .error (.runtimeError ("Bybit execution list exceeded " ++ toString maxPages ++
      " pages and is still incomplete after " ++ toString executions.length ++ " executions"))
  | left + 1, cursor, executions =>
    match rest.executionsPage
        (rest.send (maxPages - (left + 1)) (.executions category symbol orderLinkId cursor)) with
    | .error e => .error e
    | .ok (rows, nextCursor) =>
      if nextCursor = "" then .ok (executions ++ rows)
      else if nextCursor = cursor then
        .error (.runtimeError ("Bybit execution list repeated its page cursor after " ++
          toString (executions ++ rows).length ++ " executions"))
      else executionPages category symbol orderLinkId left nextCursor (executions ++ rows)

def getExecutions (category : Category) (symbol orderLinkId : String) :
    Except Exception (List EventExecution) :=
  rest.executionPages category symbol orderLinkId maxPages "" []

end RESTClient

end BybitApi.Rest
