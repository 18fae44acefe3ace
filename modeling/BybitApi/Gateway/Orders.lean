import BybitApi.Gateway.Reasons
import BybitApi.Rest.Client

/-!
# The order operations of the gateway

`BybitExecutionGateway`: an operation asks the REST client and turns what it throws into one of
three things, the same exception again, a `GatewayError`, or, in `cancel`, the answer that the order
is gone. The logging is left out.
-/

namespace BybitApi.Gateway

open Lib Rest

structure FillEvent where
  clientOrderId : String
  symbol : String
  fillId : String
  qty : ℚ
  price : ℚ
  isMaker : Bool
  deriving DecidableEq

/-- How a call ends. An exception is either the one that was caught, passed on by `throw;`, or a new
one. -/
inductive Ending (α : Type) where
  | returned (a : α)
  | rethrown (e : Exception)
  | thrown (e : Exception)
  deriving DecidableEq

def Ending.map {α β : Type} (f : α → β) : Ending α → Ending β
  | returned a => returned (f a)
  | rethrown e => rethrown e
  | thrown e => thrown e

/-- The handlers of the four operations, but for what `cancel` does first. -/
def Ending.refused {α : Type} : Exception → Ending α
  | .transportError message => rethrown (.transportError message)
  | e =>
    if isAmbiguousOutcomeReason e.what then rethrown e
    else thrown (.gatewayError (classifyRejectReason e.what) e.what)

@[simp] theorem Ending.map_refused {α β : Type} (f : α → β) (e : Exception) :
    (Ending.refused e : Ending α).map f = .refused e := by
  cases e with
  | transportError message => rfl
  | _ => simp only [Ending.refused]; split <;> rfl

structure ExecutionGateway where
  rest : RESTClient
  positionIdx : Int
  /-- What `privateStream->isLive()` returns. -/
  isLive : Bool
  /-- A fill callback is set. -/
  fillCB : Bool
  /-- `fmt::format` of a double. -/
  format : ℚ → String

namespace ExecutionGateway

variable (gw : ExecutionGateway)

def requireEventStream (op : String) : Except Exception Unit :=
  if !gw.isLive then
    .error (.gatewayError .throttled ("Bybit private stream not live — " ++ op ++
      " gated until order/execution events flow (fills would be lost)"))
  else .ok ()

/-! ## Missed fills -/

/-- A real fill, and one that the consumer can tell from others. -/
def isFill (execution : EventExecution) : Bool := execution.execType = .Trade && execution.execId ≠ ""

def fillEvent (clientOrderId symbol : String) (execution : EventExecution) : FillEvent :=
  ⟨clientOrderId, symbol, execution.execId, execution.execQty, execution.execPrice, execution.isMaker⟩

/-- The sum over the rows of the list. -/
def listedQty (executions : List EventExecution) : ℚ :=
  ((executions.filter isFill).map EventExecution.execQty).sum

def epsilon : ℚ := 1 / 10 ^ 9

/-- The two reads, in order; an exception of the first leaves the second undone. -/
def readBack (clientOrderId symbol : String) :
    Except Exception (List EventExecution × Option OrderResponse) := do
  let executions ← gw.rest.getExecutions .linear symbol clientOrderId
  let finalState ← gw.rest.getOrderHistory .linear symbol "" clientOrderId
  return (executions, finalState)

/-- The fills it emits, and whether it throws. -/
def reconcileMissedFills (clientOrderId symbol : String) : List FillEvent × Except Exception Unit :=
  if !gw.fillCB then ([], .ok ())
  else
    match gw.readBack clientOrderId symbol with
    | .error e =>
      ([], .error (.executionUnknown ("Bybit " ++ symbol ++ " order " ++ clientOrderId ++
        " gone at cancel, but its fills could not be read back: " ++ e.what)))
    | .ok (executions, finalState) =>
      match finalState.filter fun order => listedQty executions + epsilon < order.cumExecQty with
      | some order =>
        ([], .error (.executionUnknown ("Bybit " ++ symbol ++ " order " ++ clientOrderId ++
          " gone at cancel: history reports " ++ gw.format order.cumExecQty ++ " filled, the execution list only " ++
          gw.format (listedQty executions) ++ " — not indexed yet")))
      | none => ((executions.filter isFill).map (fillEvent clientOrderId symbol), .ok ())

/-! ## The operations -/

def limitOrder (clientOrderId symbol : String) (side : Side) (qty price : ℚ) (reduceOnly : Bool) :
    Order where
  category := .linear
  symbol := symbol
  side := side
  orderType := .Limit
  timeInForce := .PostOnly
  qty := qty
  price := price
  reduceOnly := reduceOnly
  orderLinkId := clientOrderId
  positionIdx := gw.positionIdx
  priceStep := 1 / 1000
  qtyStep := 1 / 1000

def marketOrder (clientOrderId symbol : String) (side : Side) (qty : ℚ) : Order where
  category := .linear
  symbol := symbol
  side := side
  orderType := .Market
  timeInForce := .IOC
  qty := qty
  price := 0
  reduceOnly := true
  orderLinkId := clientOrderId
  positionIdx := gw.positionIdx
  priceStep := 1 / 1000
  qtyStep := 1 / 1000

def submitPostOnlyLimit (clientOrderId symbol : String) (side : Side) (qty price : ℚ) (reduceOnly : Bool) :
    Ending Unit :=
  match gw.requireEventStream "submit" with
  | .error e => .thrown e
  | .ok () =>
    match gw.rest.placeOrder (gw.limitOrder clientOrderId symbol side qty price reduceOnly) with
    | .ok _ => .returned ()
    | .error e => .refused e

def amendPrice (clientOrderId symbol : String) (price : ℚ) : Ending Unit :=
  match gw.requireEventStream "amend" with
  | .error e => .thrown e
  | .ok () =>
    match gw.rest.amendOrder .linear symbol "" clientOrderId price 0 with
    | .ok _ => .returned ()
    | .error e => .refused e

/-- The fills it emits, and how it ends. Not gated: cancelling reduces exposure. -/
def cancel (clientOrderId symbol : String) : List FillEvent × Ending Bool :=
  match gw.rest.cancelOrder .linear symbol "" clientOrderId with
  | .ok _ => ([], .returned true)
  | .error (.transportError message) => ([], .rethrown (.transportError message))
  | .error e =>
    if isOrderGoneReason e.what then
      match gw.reconcileMissedFills clientOrderId symbol with
      | (fills, .ok ()) => (fills, .returned false)
      | (fills, .error e') => (fills, .thrown e')
    else ([], .refused e)

def submitReduceOnlyMarket (clientOrderId symbol : String) (side : Side) (qty : ℚ) : Ending Unit :=
  match gw.rest.placeOrder (gw.marketOrder clientOrderId symbol side qty) with
  | .ok _ => .returned ()
  | .error e => .refused e

end ExecutionGateway

/-- A call of one of the order operations. -/
inductive OrderOp where
  | submitPostOnlyLimit (clientOrderId symbol : String) (side : Side) (qty price : ℚ) (reduceOnly : Bool)
  | amendPrice (clientOrderId symbol : String) (price : ℚ)
  | cancel (clientOrderId symbol : String)
  | submitReduceOnlyMarket (clientOrderId symbol : String) (side : Side) (qty : ℚ)

namespace OrderOp

def run (gw : ExecutionGateway) : OrderOp → Ending (Option Bool)
  | submitPostOnlyLimit clientOrderId symbol side qty price reduceOnly =>
    (gw.submitPostOnlyLimit clientOrderId symbol side qty price reduceOnly).map fun _ => none
  | amendPrice clientOrderId symbol price => (gw.amendPrice clientOrderId symbol price).map fun _ => none
  | cancel clientOrderId symbol => (gw.cancel clientOrderId symbol).2.map some
  | submitReduceOnlyMarket clientOrderId symbol side qty =>
    (gw.submitReduceOnlyMarket clientOrderId symbol side qty).map fun _ => none

def isCancel : OrderOp → Bool
  | cancel _ _ => true
  | _ => false

/-- The operation waits for a live private stream. -/
def isGated : OrderOp → Bool
  | submitPostOnlyLimit .. | amendPrice .. => true
  | _ => false

def symbol : OrderOp → String
  | submitPostOnlyLimit _ symbol .. | amendPrice _ symbol _ | cancel _ symbol
  | submitReduceOnlyMarket _ symbol .. =>
    symbol

/-- The request, formatted with these steps. -/
def request (gw : ExecutionGateway) (steps : ℚ × ℚ) : OrderOp → Request
  | submitPostOnlyLimit clientOrderId symbol side qty price reduceOnly =>
    .create { gw.limitOrder clientOrderId symbol side qty price reduceOnly with
      priceStep := steps.1, qtyStep := steps.2 }
  | amendPrice clientOrderId symbol price => .amend .linear symbol "" clientOrderId price 0 steps.1 steps.2
  | cancel clientOrderId symbol => .cancel .linear symbol "" clientOrderId
  | submitReduceOnlyMarket clientOrderId symbol side qty =>
    .create { gw.marketOrder clientOrderId symbol side qty with priceStep := steps.1, qtyStep := steps.2 }

/-- The call of the REST client that the operation makes. -/
def restCall (gw : ExecutionGateway) : OrderOp → Except Exception OrderId
  | submitPostOnlyLimit clientOrderId symbol side qty price reduceOnly =>
    gw.rest.placeOrder (gw.limitOrder clientOrderId symbol side qty price reduceOnly)
  | amendPrice clientOrderId symbol price => gw.rest.amendOrder .linear symbol "" clientOrderId price 0
  | cancel clientOrderId symbol => gw.rest.cancelOrder .linear symbol "" clientOrderId
  | submitReduceOnlyMarket clientOrderId symbol side qty =>
    gw.rest.placeOrder (gw.marketOrder clientOrderId symbol side qty)

section Run

variable {gw : ExecutionGateway} {op : OrderOp} {e : Exception} {clientOrderId symbol : String}

/-- `cancel` reads the exception as the answer that the order is gone. -/
def orderGone : Exception → Bool
  | .transportError _ => false
  | e => isOrderGoneReason e.what

/-- Otherwise an exception of the REST call goes to the shared handlers. -/
theorem run_of_restCall_error (hgate : op.isGated = true → gw.isLive = true)
    (hcall : op.restCall gw = .error e)
    (hgone : op.isCancel = true → orderGone e = false) : op.run gw = .refused e := by
  cases op with
  | submitPostOnlyLimit =>
    simp only [restCall] at hcall
    simp [run, ExecutionGateway.submitPostOnlyLimit, ExecutionGateway.requireEventStream, hgate rfl, hcall]
  | amendPrice =>
    simp only [restCall] at hcall
    simp [run, ExecutionGateway.amendPrice, ExecutionGateway.requireEventStream, hgate rfl, hcall]
  | cancel =>
    simp only [restCall] at hcall
    have hgone := hgone rfl
    cases e with
    | transportError message => simp only [run, ExecutionGateway.cancel, hcall]; rfl
    | _ =>
      simp only [orderGone] at hgone
      simp [run, ExecutionGateway.cancel, hcall, hgone]
  | submitReduceOnlyMarket =>
    simp only [restCall] at hcall
    simp [run, ExecutionGateway.submitReduceOnlyMarket, hcall]

theorem cancel_of_gone (hcall : gw.rest.cancelOrder .linear symbol "" clientOrderId = .error e)
    (hgone : orderGone e = true) :
    gw.cancel clientOrderId symbol = match gw.reconcileMissedFills clientOrderId symbol with
      | (fills, .ok ()) => (fills, .returned false)
      | (fills, .error e') => (fills, .thrown e') := by
  cases e with
  | transportError message => cases hgone
  | _ =>
    simp only [orderGone] at hgone
    simp [ExecutionGateway.cancel, hcall, hgone]

/-- Then it throws an exception of its own, or none. -/
theorem cancel_ne_rethrown (hcall : gw.rest.cancelOrder .linear symbol "" clientOrderId = .error e)
    (hgone : orderGone e = true) (e' : Exception) : (gw.cancel clientOrderId symbol).2 ≠ .rethrown e' := by
  rw [cancel_of_gone hcall hgone]
  split <;> simp

end Run

end OrderOp

end BybitApi.Gateway
