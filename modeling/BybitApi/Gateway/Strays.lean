import BybitApi.Gateway.Unknown
import BybitApi.Rest.Cursors

/-!
# Stray orders

`cancelStrayOrders` at the start of a run: it lists the open orders of the account, cancels those whose
`orderLinkId` has the prefix, and counts them. The order of another strategy on the account is not
touched. An order that cannot be cancelled ends the sweep with an exception that names it.
-/

namespace BybitApi.Gateway

open Lib Rest

/-- The fields of an `OrderResponse` that the sweep reads. -/
structure OpenOrder where
  orderLinkId : String
  symbol : String
  deriving DecidableEq

namespace OpenOrder

def isStray (clientOrderIdPrefix : String) (order : OpenOrder) : Bool :=
  clientOrderIdPrefix.toList.isPrefixOf order.orderLinkId.toList

/-- Only a `GatewayError` is caught. -/
def strayError (order : OpenOrder) : Exception → Exception
  | .gatewayError kind message => .gatewayError kind ("stray order " ++ order.orderLinkId ++ " on " ++
      order.symbol ++ " could not be cancelled: " ++ shown message)
  | e => e

end OpenOrder

/-- The exception that a call ends with. -/
def Ending.failure {α : Type} : Ending α → Option Exception
  | returned _ => none
  | rethrown e | thrown e => some e

/-- What a sweep has done, and the fills that its cancels emitted. -/
structure Sweep (σ : Type) where
  venue : σ
  /-- The orders that were cancelled, in their order, each with the venue that its cancel met. -/
  cancels : List (σ × OpenOrder)
  fills : List FillEvent
  cancelled : ℕ

section Sweep

-- `call v order` is what the venue in state `v` answers when `order` is cancelled, and the state after.
variable {σ : Type} (call : σ → OpenOrder → ExecutionGateway × σ)

def Sweep.cancel (s : Sweep σ) (order : OpenOrder) : Sweep σ × Ending Bool :=
  let (gw, venue) := call s.venue order
  let (fills, ending) := gw.cancel order.orderLinkId order.symbol
  ({ s with venue := venue, cancels := s.cancels ++ [(s.venue, order)], fills := s.fills ++ fills }, ending)

/-- The loop over the orders of the list. -/
def Sweep.run (clientOrderIdPrefix : String) (s : Sweep σ) : List OpenOrder → Sweep σ × Except Exception ℕ
  | [] => (s, .ok s.cancelled)
  | order :: orders =>
    if order.isStray clientOrderIdPrefix then
      match (s.cancel call order).2.failure with
      | none => run clientOrderIdPrefix { (s.cancel call order).1 with cancelled := s.cancelled + 1 } orders
      | some e => ((s.cancel call order).1, .error (order.strayError e))
    else run clientOrderIdPrefix s orders

/-- `list n` is the answer to the `n`-th request for the open orders, checked and decoded. -/
def cancelStrayOrders (list : ℕ → OpenOrdersRequest → Except Exception (Page OpenOrder)) (rounds : ℕ)
    (clientOrderIdPrefix settleCoin : String) (venue : σ) : Option (Sweep σ × Except Exception ℕ) :=
  (listing (fun n cursor => list n (openOrdersRequest .linear "" settleCoin cursor)) rounds).map fun orders =>
    match orders with
    | .error e => (⟨venue, [], [], 0⟩, .error e)
    | .ok orders => Sweep.run call clientOrderIdPrefix ⟨venue, [], [], 0⟩ orders

/-- What the venue promises: an order whose cancel it accepts is not open any more, and no cancel opens an
order. -/
structure Closes (isOpen : σ → OpenOrder → Prop) : Prop where
  accepts : ∀ v order orderId, (call v order).1.rest.cancelOrder .linear order.symbol "" order.orderLinkId =
    .ok orderId → ¬ isOpen (call v order).2 order
  stays : ∀ v order other, isOpen (call v order).2 other → isOpen v other

/-- The venue refuses the cancel and keeps the order open, but the text of its answer is taken for that of
an order which is gone. -/
def Misread (isOpen : σ → OpenOrder → Prop) (v : σ) (order : OpenOrder) : Prop :=
  ∃ e, (call v order).1.rest.cancelOrder .linear order.symbol "" order.orderLinkId = .error e ∧
    OrderOp.orderGone e = true ∧ isOpen (call v order).2 order

/-- None of the orders is open, but for those whose answer was misread. -/
def Settled (isOpen : σ → OpenOrder → Prop) (venue : σ) (cancels : List (σ × OpenOrder)) : Prop :=
  ∀ c ∈ cancels, isOpen venue c.2 → Misread call isOpen c.1 c.2

variable {call} {isOpen : σ → OpenOrder → Prop} {clientOrderIdPrefix : String} {s s' : Sweep σ}
  {order : OpenOrder} {orders : List OpenOrder} {result : Except Exception ℕ}

/-- A cancel that returns was accepted, or its answer says that the order is gone. -/
theorem misread_of_cancel (hv : Closes call isOpen) (h : (s.cancel call order).2.failure = none)
    (hopen : isOpen (s.cancel call order).1.venue order) : Misread call isOpen s.venue order := by
  cases hcall : (call s.venue order).1.rest.cancelOrder .linear order.symbol "" order.orderLinkId with
  | ok orderId => exact absurd hopen (hv.accepts _ _ orderId hcall)
  | error e =>
    cases hgone : OrderOp.orderGone e with
    | true => exact ⟨e, hcall, hgone, hopen⟩
    | false =>
      have hrun : (OrderOp.cancel order.orderLinkId order.symbol).run (call s.venue order).1 = .refused e :=
        OrderOp.run_of_restCall_error (fun h => by cases h) hcall fun _ => hgone
      have hending : (s.cancel call order).2.map some = .refused e := hrun
      cases hend : (s.cancel call order).2 with
      | returned b =>
        rw [hend] at hending
        unfold Ending.refused at hending
        split at hending
        · cases hending
        · split at hending <;> cases hending
      | rethrown e' => rw [hend] at h; cases h
      | thrown e' => rw [hend] at h; cases h

/-- What a sweep over `strays` has come to: each of them was cancelled once, in their order, and they are
settled, or this holds of those before one whose cancel failed, and those after it were not touched. -/
def Swept (call : σ → OpenOrder → ExecutionGateway × σ) (isOpen : σ → OpenOrder → Prop)
    (strays : List OpenOrder) (s : Sweep σ) : Except Exception ℕ → Prop
  | .ok n => n = strays.length ∧ s.cancels.map Prod.snd = strays ∧ Settled call isOpen s.venue s.cancels
  | .error e => ∃ closed v order rest e', strays = closed.map Prod.snd ++ order :: rest ∧
      s.cancels = closed ++ [(v, order)] ∧ Settled call isOpen s.venue closed ∧ e = order.strayError e' ∧
      ((call v order).1.cancel order.orderLinkId order.symbol).2.failure = some e'

/-- The cancels so far. -/
structure Sweep.Closed (call : σ → OpenOrder → ExecutionGateway × σ) (isOpen : σ → OpenOrder → Prop)
    (s : Sweep σ) : Prop where
  cancelled : s.cancelled = s.cancels.length
  settled : Settled call isOpen s.venue s.cancels

/-- A cancel opens none of those before it. -/
theorem Settled.cancel {closed : List (σ × OpenOrder)} (h : Settled call isOpen s.venue closed)
    (hv : Closes call isOpen) : Settled call isOpen (s.cancel call order).1.venue closed :=
  fun c hc hopen => h c hc (hv.stays _ _ _ hopen)

theorem Sweep.Closed.cancel (hs : s.Closed call isOpen) (hv : Closes call isOpen)
    (h : (s.cancel call order).2.failure = none) :
    ({ (s.cancel call order).1 with cancelled := s.cancelled + 1 } : Sweep σ).Closed call isOpen := by
  refine ⟨?_, fun c hc hopen => ?_⟩
  · have hlength : (s.cancels ++ [(s.venue, order)]).length = s.cancels.length + 1 := List.length_append
    exact (congrArg (· + 1) hs.cancelled).trans hlength.symm
  · rcases List.mem_append.1 hc with hc | hc
    · exact hs.settled.cancel hv c hc hopen
    · rw [List.mem_singleton.1 hc] at hopen ⊢
      exact misread_of_cancel hv h hopen

theorem Sweep.Closed.run (hs : s.Closed call isOpen) (hv : Closes call isOpen)
    (h : s.run call clientOrderIdPrefix orders = (s', result)) :
    Swept call isOpen (s.cancels.map Prod.snd ++ orders.filter (OpenOrder.isStray clientOrderIdPrefix)) s'
      result := by
  induction orders generalizing s with
  | nil =>
    cases h
    rw [List.filter_nil, List.append_nil]
    exact ⟨hs.cancelled.trans (List.length_map Prod.snd).symm, rfl, hs.settled⟩
  | cons order orders ih =>
    unfold Sweep.run at h
    cases hstray : order.isStray clientOrderIdPrefix with
    | false =>
      rw [hstray, if_neg (by simp)] at h
      rw [List.filter_cons_of_neg (by simp [hstray])]
      exact ih hs h
    | true =>
      rw [hstray, if_pos rfl] at h
      rw [List.filter_cons_of_pos hstray]
      cases hfail : (s.cancel call order).2.failure with
      | none =>
        rw [hfail] at h
        have hrest := ih (hs.cancel hv hfail) h
        have hcancels : (s.cancel call order).1.cancels = s.cancels ++ [(s.venue, order)] := rfl
        rw [hcancels, List.map_append, List.append_assoc] at hrest
        exact hrest
      | some e =>
        rw [hfail] at h
        cases h
        exact ⟨s.cancels, s.venue, order, _, e, rfl, rfl, hs.settled.cancel hv, rfl, hfail⟩

/-- **What `cancelStrayOrders` leaves behind.** If the list cannot be read, nothing is cancelled. Otherwise the
orders with the prefix, of all pages, are cancelled in their order and no other order is: if it returns,
the number is theirs and none of them is open, unless the answer to its cancel was misread; if it throws,
this holds of those before the one that the exception names, and those after it were not touched. -/
theorem strays_closed (hv : Closes call isOpen)
    {list : ℕ → OpenOrdersRequest → Except Exception (Page OpenOrder)} {rounds : ℕ} {settleCoin : String}
    {venue : σ} (h : cancelStrayOrders call list rounds clientOrderIdPrefix settleCoin venue = some (s, result)) :
    (∃ e, result = .error e ∧ s = ⟨venue, [], [], 0⟩) ∨
      ∃ pages, Pages (fun n cursor => list n (openOrdersRequest .linear "" settleCoin cursor)) 0 "" pages ∧
        Swept call isOpen ((pages.flatMap Page.rows).filter (OpenOrder.isStray clientOrderIdPrefix)) s result := by
  obtain ⟨orders, hlist, horders⟩ := Option.map_eq_some_iff.1 h
  cases orders with
  | error e =>
    cases horders
    exact Or.inl ⟨e, rfl, rfl⟩
  | ok orders =>
    obtain ⟨pages, hpages, rfl⟩ := listing_pages hlist
    have hstart : (⟨venue, [], [], 0⟩ : Sweep σ).Closed call isOpen :=
      ⟨rfl, fun _ hmem => absurd hmem List.not_mem_nil⟩
    exact Or.inr ⟨pages, hpages, hstart.run hv horders⟩

end Sweep

section TwoPages

/-- A venue that keeps its open orders and accepts every cancel. -/
def acceptCancel (venue : List OpenOrder) (order : OpenOrder) : ExecutionGateway × List OpenOrder :=
  (OrderOp.answering "\x7b\"retCode\":0\x7d" (.obj [("retCode", .num 0)]), venue.filter (· ≠ order))

theorem closes_acceptCancel : Closes acceptCancel fun venue order => order ∈ venue where
  accepts v order _ _ := by simp [acceptCancel]
  stays _ _ _ h := List.mem_of_mem_filter h

/-- The open orders of the account, two on a page. -/
def twoPages (_ : ℕ) (request : OpenOrdersRequest) : Except Exception (Page OpenOrder) :=
  .ok (match request.cursor with
    | none => ⟨[⟨"run-1", "BTCUSDT"⟩, ⟨"manual", "BTCUSDT"⟩], "2"⟩
    | some _ => ⟨[⟨"run-2", "ETHUSDT"⟩], ""⟩)

theorem strays_closed_twoPages :
    ∃ s : Sweep (List OpenOrder), cancelStrayOrders acceptCancel twoPages 2 "run-" "USDT"
        [⟨"run-1", "BTCUSDT"⟩, ⟨"manual", "BTCUSDT"⟩, ⟨"run-2", "ETHUSDT"⟩] = some (s, .ok 2) ∧
      ∀ c ∈ s.cancels, c.2 ∉ s.venue := by
  have hrun : cancelStrayOrders acceptCancel twoPages 2 "run-" "USDT"
      [⟨"run-1", "BTCUSDT"⟩, ⟨"manual", "BTCUSDT"⟩, ⟨"run-2", "ETHUSDT"⟩] =
        some (⟨[⟨"manual", "BTCUSDT"⟩],
          [([⟨"run-1", "BTCUSDT"⟩, ⟨"manual", "BTCUSDT"⟩, ⟨"run-2", "ETHUSDT"⟩], ⟨"run-1", "BTCUSDT"⟩),
            ([⟨"manual", "BTCUSDT"⟩, ⟨"run-2", "ETHUSDT"⟩], ⟨"run-2", "ETHUSDT"⟩)], [], 2⟩, .ok 2) := by
    rfl
  refine ⟨_, hrun, fun c hc hopen => ?_⟩
  rcases strays_closed closes_acceptCancel hrun with ⟨e, he, -⟩ | ⟨pages, -, -, -, hsettled⟩
  · cases he
  · obtain ⟨e, herror, -, -⟩ := hsettled c hc hopen
    have haccepted : ((acceptCancel c.1 c.2).1.rest.cancelOrder .linear c.2.symbol "" c.2.orderLinkId).isOk = true :=
      rfl
    rw [herror] at haccepted
    cases haccepted

end TwoPages

end BybitApi.Gateway
