import Mathlib.Algebra.Order.BigOperators.Group.List
import BybitApi.Gateway.Fills
import BybitApi.Gateway.OrderUpdates
import BybitApi.Lib.Runs

/-!
# Every fill credited once

Fills reach the consumer on two ways: the execution topic of the private stream, which loses what
happens while it is down and may bring a row again, and the executions that `cancel` reads back when
the venue says that the order is gone. The consumer, which keys fills by their id, is not part of
the repository; it is a `Ledger`.

`accounting` is one order with both ways and any number of `cancel` calls in progress, each of which
emits its fills one by one between whatever else happens. `Honest` is what is relied on of the
venue: an id for each fill, rows that are copies of fills, a list without repetitions, a history
that knows what is filled, and no fill after it said that the order is gone.
-/

namespace BybitApi.Gateway

open Lib Rest

/-! ## The execution topic -/

/-- The fields of `EventExecution` that only the private stream uses are added to those that the
execution list is read into. -/
structure StreamExecution extends EventExecution where
  category : String
  symbol : String
  orderId : String
  orderLinkId : String
  side : Side
  execValue : ℚ
  execFee : ℚ
  feeRate : ℚ
  leavesQty : ℚ
  closedSize : ℚ
  execTime : ℤ
  seq : ℤ

def execTypeNames : List (String × ExecType) := [
  ("Trade", .Trade), ("AdlTrade", .AdlTrade), ("Funding", .Funding), ("BustTrade", .BustTrade),
  ("Delivery", .Delivery), ("Settle", .Settle), ("BlockTrade", .BlockTrade), ("MovePosition", .MovePosition),
  ("FutureSpread", .FutureSpread), ("UNKNOWN", .UNKNOWN)]

/-- `EventExecution::fromJson`; `none` where it throws. -/
def JsonUtils.executionFromJson (utils : JsonUtils) (json : Json) : Option StreamExecution := do
  let category ← readString json "category" ""
  let symbol ← readString json "symbol" ""
  let orderId ← readString json "orderId" ""
  let orderLinkId ← readString json "orderLinkId" ""
  let execId ← readString json "execId" ""
  let side ← utils.readMagicEnum sideNames json "side" .None
  let execType ← utils.readMagicEnum execTypeNames json "execType" .UNKNOWN
  let execPrice ← utils.readStringAsDouble json "execPrice" 0
  let execQty ← utils.readStringAsDouble json "execQty" 0
  let execValue ← utils.readStringAsDouble json "execValue" 0
  let execFee ← utils.readStringAsDouble json "execFee" 0
  let feeRate ← utils.readStringAsDouble json "feeRate" 0
  let leavesQty ← utils.readStringAsDouble json "leavesQty" 0
  let closedSize ← utils.readStringAsDouble json "closedSize" 0
  let isMaker ← (json.readValue Json.getBool "isMaker" false).toOption
  let execTime ← utils.readStringAsInt64 json "execTime" 0
  let seq ← (json.readValue Json.getInt64 "seq" 0).toOption
  return ⟨⟨execId, execType, execPrice, execQty, isMaker⟩, category, symbol, orderId, orderLinkId, side, execValue,
    execFee, feeRate, leavesQty, closedSize, execTime, seq⟩

/-- The fill that the gateway emits; `fillCB` says whether a callback is set. Only trades count, and an
execution without our client id is not ours. -/
def onExecution (fillCB : Bool) (event : StreamExecution) : Option FillEvent :=
  if fillCB = false ∨ event.execType ≠ .Trade ∨ event.orderLinkId = "" then none
  else
    some ⟨event.orderLinkId, event.symbol, event.execId, event.execQty, event.execPrice, event.isMaker⟩

/-- What comes of one item. -/
def fillOf (utils : JsonUtils) (fillCB : Bool) (item : Json) : Option FillEvent :=
  (utils.executionFromJson item).bind (onExecution fillCB)

/-- `dispatchArray` for the execution topic. -/
def dispatchExecutions (utils : JsonUtils) (fillCB : Bool) : Json → List FillEvent
  | .arr items => items.filterMap (fillOf utils fillCB)
  | _ => []

/-- `event.topic == name || event.topic.starts_with(name + ".")`. -/
def isTopic (name topic : String) : Bool := topic = name || (name ++ ".").toList.isPrefixOf topic.toList

/-- The data callback of `WSPrivateStreamManager`: the order updates and the fills of one message. -/
def privateEvent (utils : JsonUtils) (orderUpdateCB fillCB : Bool) (topic : String) (data : Json) :
    List OrderUpdate × List FillEvent :=
  if isTopic "order" topic then (dispatchArray utils orderUpdateCB data, [])
  else if isTopic "execution" topic then ([], dispatchExecutions utils fillCB data)
  else ([], [])

/-- A fill of a message is that of a trade with a client id. -/
theorem mem_privateEvent {utils : JsonUtils} {orderUpdateCB fillCB : Bool} {topic : String} {data : Json}
    {fill : FillEvent} (h : fill ∈ (privateEvent utils orderUpdateCB fillCB topic data).2) :
    ∃ items event, data = .arr items ∧ (∃ item ∈ items, utils.executionFromJson item = some event) ∧
      event.execType = .Trade ∧ fill.clientOrderId = event.orderLinkId ∧ fill.fillId = event.execId ∧
      fill.qty = event.execQty := by
  unfold privateEvent at h
  split at h
  · cases h
  split at h
  swap
  · cases h
  unfold dispatchExecutions at h
  split at h
  swap
  · cases h
  next items =>
    obtain ⟨item, hitem, hfill⟩ := List.mem_filterMap.1 h
    obtain ⟨event, hevent, hon⟩ := Option.bind_eq_some_iff.1 hfill
    unfold onExecution at hon
    split at hon
    · cases hon
    next hours =>
      simp only [not_or, not_not] at hours
      cases hon
      exact ⟨items, event, rfl, ⟨item, hitem, hevent⟩, hours.2.1, rfl, rfl, rfl⟩

/-! ## The account of an order -/

namespace Crediting

/-- A call of `cancel` that is past its reads: the fills it has still to emit, and whether it will then
say that the order is gone. -/
structure CancelCall where
  fills : List FillEvent
  gone : Bool
  deriving DecidableEq

/-- One order. -/
structure Account where
  /-- What the venue filled, latest first. -/
  venue : List EventExecution
  /-- The consumer: the ids it has seen, and the quantity it has credited. -/
  ledger : Ledger String ℚ
  calls : List CancelCall
  /-- The venue has said that the order is gone, and a call is past the reads that follow. -/
  gone : Bool
  /-- A call has said so. -/
  reported : Bool

inductive Act where
  | executes (execution : EventExecution)
  | message (topic : String) (data : Json)
  | cancel (gw : ExecutionGateway)
  | emits (call : CancelCall)
  | returns (call : CancelCall)

section System

variable (utils : JsonUtils) (clientOrderId symbol : String)

/-- The fills of this order; the consumer routes by the client id. -/
def mine (fills : List FillEvent) : List FillEvent := fills.filter fun fill => fill.clientOrderId = clientOrderId

def credit (ledger : Ledger String ℚ) (fills : List FillEvent) : Ledger String ℚ :=
  ledger.creditAll FillEvent.fillId FillEvent.qty fills

def step (a : Account) : Act → Option Account
  | .executes execution => some { a with venue := execution :: a.venue }
  | .message topic data =>
    some { a with ledger := credit a.ledger (mine clientOrderId (privateEvent utils true true topic data).2) }
  | .cancel gw =>
    match gw.cancel clientOrderId symbol with
    | (fills, ending) =>
      some { a with
        calls := ⟨fills, ending = .returned false⟩ :: a.calls
        gone := a.gone || ending = .returned false }
  | .emits call =>
    if call ∈ a.calls then
      match call.fills with
      | [] => none
      | fill :: rest =>
        some { a with
          ledger := credit a.ledger [fill]
          calls := { call with fills := rest } :: a.calls.erase call }
    else none
  | .returns call =>
    if call ∈ a.calls ∧ call.fills = [] then
      some { a with calls := a.calls.erase call, reported := a.reported || call.gone }
    else none

def accounting : System Account Act := ⟨⟨[], .empty, [], false, false⟩, step utils clientOrderId symbol⟩

/-- The quantity of the fills that pass the test `p`. -/
def held (venue : List EventExecution) (p : EventExecution → Bool) : ℚ :=
  ((venue.filter p).map EventExecution.execQty).sum

/-- What the venue filled. -/
def filled (venue : List EventExecution) : ℚ := held venue fun _ => true

/-- What is relied on of the venue. -/
def Honest (a : Account) : Act → Prop
  | .executes execution =>
    ExecutionGateway.isFill execution = true ∧ execution.execId ∉ a.venue.map EventExecution.execId ∧
      0 ≤ execution.execQty ∧ a.gone = false
  | .message _ data => ∀ items, data = .arr items → ∀ item ∈ items, ∀ event,
      utils.executionFromJson item = some event → event.execType = .Trade → event.orderLinkId = clientOrderId →
        event.toEventExecution ∈ a.venue
  | .cancel gw => gw.fillCB = true ∧
      (∀ executions, gw.rest.getExecutions .linear symbol clientOrderId = .ok executions →
        ((executions.filter ExecutionGateway.isFill).map EventExecution.execId).Nodup ∧
        ∀ execution ∈ executions, ExecutionGateway.isFill execution = true → execution ∈ a.venue) ∧
      ∀ finalState, gw.rest.getOrderHistory .linear symbol "" clientOrderId = .ok finalState →
        (finalState.map OrderResponse.cumExecQty).getD 0 = filled a.venue
  | .emits _ | .returns _ => True

end System

/-! ## Sums over the fills of the venue -/

section Held

variable {venue : List EventExecution} {p q : EventExecution → Bool}

theorem held_mono (hnonneg : ∀ e ∈ venue, 0 ≤ e.execQty) (h : ∀ e ∈ venue, p e = true → q e = true) :
    held venue p ≤ held venue q := by
  induction venue with
  | nil => exact le_rfl
  | cons e venue ih =>
    have ih' := ih (fun e' he' => hnonneg e' (List.mem_cons_of_mem _ he'))
      fun e' he' => h e' (List.mem_cons_of_mem _ he')
    have he := hnonneg e List.mem_cons_self
    unfold held at ih' ⊢
    cases hp : p e with
    | true =>
      rw [List.filter_cons_of_pos hp, List.filter_cons_of_pos (h e List.mem_cons_self hp), List.map_cons, List.map_cons,
        List.sum_cons, List.sum_cons]
      exact add_le_add_right ih' _
    | false =>
      rw [List.filter_cons_of_neg (by simp [hp])]
      cases hq : q e with
      | true =>
        rw [List.filter_cons_of_pos hq, List.map_cons, List.sum_cons]
        exact ih'.trans (le_add_of_nonneg_left he)
      | false =>
        rw [List.filter_cons_of_neg (by simp [hq])]
        exact ih'

/-- A list of distinct fills of the venue adds up to what is held of their ids. -/
theorem sum_eq_held (hnodup : (venue.map EventExecution.execId).Nodup) {fills : List EventExecution}
    (hids : (fills.map EventExecution.execId).Nodup) (hmem : ∀ e ∈ fills, e ∈ venue) :
    (fills.map EventExecution.execQty).sum =
      held venue fun e => decide (e.execId ∈ fills.map EventExecution.execId) := by
  have hempty : Ledger.Copies EventExecution.execId EventExecution.execQty venue Ledger.empty := .empty
  have hcopies := hempty.creditAll hnodup hmem
  have htotal : (Ledger.creditAll EventExecution.execId EventExecution.execQty Ledger.empty fills).total =
      0 + (fills.map EventExecution.execQty).sum :=
    Ledger.total_creditAll_of_nodup hids fun _ _ => List.not_mem_nil
  rw [hcopies.total] at htotal
  rw [← zero_add (fills.map EventExecution.execQty).sum]
  refine htotal.symm.trans (congrArg (fun l => (List.map EventExecution.execQty l).sum) (List.filter_congr fun e _ => ?_))
  rw [decide_eq_decide, Ledger.mem_seen_creditAll]
  simp [Ledger.empty]

end Held

/-! ## What a cancel reads back -/

section Cancel

open ExecutionGateway

variable {gw : ExecutionGateway} {clientOrderId symbol : String}

/-- It says that the order is gone with the fills of a list that covers the history, and else emits
nothing. -/
theorem cancel_cases (hcb : gw.fillCB = true) :
    ((gw.cancel clientOrderId symbol).1 = [] ∧ (gw.cancel clientOrderId symbol).2 ≠ .returned false) ∨
      ∃ executions finalState, gw.readBack clientOrderId symbol = .ok (executions, finalState) ∧
        Covers executions finalState ∧ gw.cancel clientOrderId symbol =
          ((executions.filter isFill).map (fillEvent clientOrderId symbol), .returned false) := by
  cases hcall : gw.rest.cancelOrder .linear symbol "" clientOrderId with
  | ok orderId => exact Or.inl (by simp [cancel, hcall])
  | error e =>
    cases hgone : OrderOp.orderGone e with
    | false =>
      left
      have hrun : (OrderOp.cancel clientOrderId symbol).run gw = .refused e :=
        OrderOp.run_of_restCall_error (fun h => by cases h) hcall fun _ => hgone
      cases e with
      | transportError message => simp [cancel, hcall]
      | _ =>
        simp only [OrderOp.orderGone] at hgone
        simp only [cancel, hcall, hgone, Bool.false_eq_true, if_false, Ending.refused, ne_eq, true_and]
        split <;> simp
    | true =>
      have hcancel := OrderOp.cancel_of_gone hcall hgone
      by_cases hcase : ∃ executions finalState,
          gw.readBack clientOrderId symbol = .ok (executions, finalState) ∧ Covers executions finalState
      · obtain ⟨executions, finalState, hread, hcovers⟩ := hcase
        rw [reconcile_of_covers hcb hread hcovers] at hcancel
        exact Or.inr ⟨executions, finalState, hread, hcovers, hcancel⟩
      · obtain ⟨message, hthrown⟩ := reconcile_of_not_covers hcb fun executions finalState hread hcovers =>
          hcase ⟨executions, finalState, hread, hcovers⟩
        rw [hthrown] at hcancel
        exact Or.inl (by simp [hcancel])

end Cancel

/-! ## The invariant -/

section Invariant

variable {utils : JsonUtils} {clientOrderId symbol : String} {a a' : Account} {act : Act}

/-- The ids that a call has still to emit. -/
def CancelCall.ids (call : CancelCall) : List String := call.fills.map FillEvent.fillId

structure Sound (clientOrderId symbol : String) (a : Account) : Prop where
  nodup : (a.venue.map EventExecution.execId).Nodup
  nonneg : ∀ e ∈ a.venue, 0 ≤ e.execQty
  copies : a.ledger.Copies EventExecution.execId EventExecution.execQty a.venue
  fills : ∀ call ∈ a.calls, ∀ fill ∈ call.fills, ∃ e ∈ a.venue,
    fill.fillId = e.execId ∧ fill.qty = e.execQty
  /-- What a call that will say "gone" has still to emit makes up for what the consumer lacks. -/
  complete : ∀ call ∈ a.calls, call.gone = true → a.gone = true ∧ filled a.venue - ExecutionGateway.epsilon ≤
    held a.venue fun e => decide (e.execId ∈ a.ledger.seen ∨ e.execId ∈ call.ids)
  settled : a.reported = true → a.gone = true ∧ filled a.venue - ExecutionGateway.epsilon ≤
    held a.venue fun e => decide (e.execId ∈ a.ledger.seen)

theorem copies_credit (h : Sound clientOrderId symbol a) {fills : List FillEvent}
    (hfills : ∀ fill ∈ fills, ∃ e ∈ a.venue, fill.fillId = e.execId ∧ fill.qty = e.execQty) :
    (credit a.ledger fills).Copies EventExecution.execId EventExecution.execQty a.venue := by
  have hcopies := h.copies
  generalize a.ledger = ledger at hcopies
  unfold credit
  induction fills generalizing ledger with
  | nil => exact hcopies
  | cons fill fills ih =>
    obtain ⟨e, he, hid, hqty⟩ := hfills fill List.mem_cons_self
    have hone : ledger.credit FillEvent.fillId FillEvent.qty fill =
        ledger.credit EventExecution.execId EventExecution.execQty e := by
      simp only [Ledger.credit, hid, hqty]
    rw [Ledger.creditAll_cons, hone]
    exact ih (fun fill' hmem => hfills fill' (List.mem_cons_of_mem _ hmem)) _ (hcopies.credit h.nodup he)

/-- Crediting keeps the invariant, where the calls have as much to emit as before or the consumer has
seen it. -/
theorem Sound.credited (h : Sound clientOrderId symbol a) {fills : List FillEvent} {calls : List CancelCall}
    (hfills : ∀ fill ∈ fills, ∃ e ∈ a.venue, fill.fillId = e.execId ∧ fill.qty = e.execQty)
    (hcalls : ∀ call ∈ calls, ∃ call' ∈ a.calls, call'.gone = call.gone ∧ (∀ fill ∈ call.fills, fill ∈ call'.fills) ∧
      ∀ id ∈ call'.ids, id ∈ call.ids ∨ id ∈ fills.map FillEvent.fillId) :
    Sound clientOrderId symbol { a with ledger := credit a.ledger fills, calls := calls } where
  nodup := h.nodup
  nonneg := h.nonneg
  copies := copies_credit h hfills
  fills := fun call hcall fill hfill => by
    obtain ⟨call', hmem, -, hsub, -⟩ := hcalls call hcall
    exact h.fills call' hmem fill (hsub fill hfill)
  complete := fun call hcall hgone => by
    obtain ⟨call', hmem, heq, -, hids⟩ := hcalls call hcall
    obtain ⟨hg, hle⟩ := h.complete call' hmem (heq.trans hgone)
    refine ⟨hg, hle.trans (held_mono h.nonneg fun e _ he => ?_)⟩
    simp only [decide_eq_true_eq, credit, Ledger.mem_seen_creditAll] at he ⊢
    rcases he with hseen | hid
    · exact Or.inl (Or.inl hseen)
    · exact (hids _ hid).symm.imp_left Or.inr
  settled := fun hrep => by
    obtain ⟨hg, hle⟩ := h.settled hrep
    refine ⟨hg, hle.trans (held_mono h.nonneg fun e _ he => ?_)⟩
    simp only [decide_eq_true_eq, credit, Ledger.mem_seen_creditAll] at he ⊢
    exact Or.inl he

theorem Sound.executes (h : Sound clientOrderId symbol a) {execution : EventExecution}
    (hfresh : execution.execId ∉ a.venue.map EventExecution.execId) (hqty : 0 ≤ execution.execQty)
    (hgone : a.gone = false) : Sound clientOrderId symbol { a with venue := execution :: a.venue } where
  nodup := List.nodup_cons.2 ⟨hfresh, h.nodup⟩
  nonneg := fun e he => by
    rcases List.mem_cons.1 he with rfl | he
    · exact hqty
    · exact h.nonneg e he
  copies := h.copies.record hfresh
  fills := fun call hcall fill hfill => by
    obtain ⟨e, he, heq⟩ := h.fills call hcall fill hfill
    exact ⟨e, List.mem_cons_of_mem _ he, heq⟩
  complete := fun call hcall hg => by
    have hyes := (h.complete call hcall hg).1
    rw [hgone] at hyes
    cases hyes
  settled := fun hrep => by
    have hyes := (h.settled hrep).1
    rw [hgone] at hyes
    cases hyes

theorem Sound.cancel (h : Sound clientOrderId symbol a) {gw : ExecutionGateway}
    (hC : Honest utils clientOrderId symbol a (.cancel gw)) {calls : List CancelCall} {gone : Bool}
    (hcalls : calls = ⟨(gw.cancel clientOrderId symbol).1,
      (gw.cancel clientOrderId symbol).2 = .returned false⟩ :: a.calls)
    (hgone : gone = (a.gone || decide ((gw.cancel clientOrderId symbol).2 = .returned false))) :
    Sound clientOrderId symbol { a with calls := calls, gone := gone } := by
  obtain ⟨hcb, hlist, hhistory⟩ := hC
  have hkept : a.gone = true → gone = true := fun hg => by rw [hgone, hg]; rfl
  have hnew : (∀ fill ∈ (gw.cancel clientOrderId symbol).1, ∃ e ∈ a.venue,
        fill.fillId = e.execId ∧ fill.qty = e.execQty) ∧
      ((gw.cancel clientOrderId symbol).2 = .returned false → filled a.venue - ExecutionGateway.epsilon ≤
        held a.venue fun e => decide (e.execId ∈ a.ledger.seen ∨
          e.execId ∈ (gw.cancel clientOrderId symbol).1.map FillEvent.fillId)) := by
    have hcases := @cancel_cases gw clientOrderId symbol hcb
    rcases hcases with ⟨hnil, hne⟩ | ⟨executions, finalState, hread, hcovers, hcancel⟩
    · rw [hnil]
      exact ⟨fun fill hfill => absurd hfill List.not_mem_nil, fun heq => absurd heq hne⟩
    obtain ⟨hexecutions, hfinal⟩ := ExecutionGateway.readBack_eq_ok.1 hread
    obtain ⟨hids, hmem⟩ := hlist _ hexecutions
    have hmem' : ∀ e ∈ executions.filter ExecutionGateway.isFill, e ∈ a.venue := fun e he =>
      hmem e (List.mem_of_mem_filter he) (List.mem_filter.1 he).2
    rw [hcancel]
    refine ⟨fun fill hfill => ?_, fun _ => ?_⟩
    · obtain ⟨e, he, rfl⟩ := List.mem_map.1 hfill
      exact ⟨e, hmem' e he, rfl, rfl⟩
    · have hnonneg : 0 ≤ ExecutionGateway.listedQty executions :=
        List.sum_nonneg fun q hq => by
          obtain ⟨e, he, rfl⟩ := List.mem_map.1 hq
          exact h.nonneg e (hmem' e he)
      have hle : filled a.venue ≤ ExecutionGateway.listedQty executions + ExecutionGateway.epsilon := by
        rw [← hhistory _ hfinal]
        cases finalState with
        | none => exact add_nonneg hnonneg (by norm_num [ExecutionGateway.epsilon])
        | some order => exact hcovers order rfl
      have hsum : ExecutionGateway.listedQty executions =
          held a.venue fun e => decide (e.execId ∈ (executions.filter ExecutionGateway.isFill).map
            EventExecution.execId) := sum_eq_held h.nodup hids hmem'
      have hmono : (held a.venue fun e => decide (e.execId ∈ (executions.filter ExecutionGateway.isFill).map
            EventExecution.execId)) ≤ held a.venue fun e => decide (e.execId ∈ a.ledger.seen ∨
          e.execId ∈ ((executions.filter ExecutionGateway.isFill).map
            (ExecutionGateway.fillEvent clientOrderId symbol)).map FillEvent.fillId) := by
        refine held_mono h.nonneg fun e _ he => ?_
        rw [List.map_map]
        exact decide_eq_true (Or.inr (of_decide_eq_true he))
      linarith
  refine ⟨h.nodup, h.nonneg, h.copies, fun call hcall => ?_, fun call hcall hg => ?_, fun hrep => ?_⟩
  · rw [hcalls] at hcall
    rcases List.mem_cons.1 hcall with rfl | hcall
    · exact hnew.1
    · exact h.fills call hcall
  · rw [hcalls] at hcall
    rcases List.mem_cons.1 hcall with rfl | hcall
    · have hret : (gw.cancel clientOrderId symbol).2 = .returned false := of_decide_eq_true hg
      exact ⟨by rw [hgone]; simp [hret], hnew.2 hret⟩
    · exact (h.complete call hcall hg).imp_left hkept
  · exact (h.settled hrep).imp_left hkept

theorem Sound.returns (h : Sound clientOrderId symbol a) {call : CancelCall} (hcall : call ∈ a.calls)
    (hfills : call.fills = []) :
    Sound clientOrderId symbol { a with calls := a.calls.erase call, reported := a.reported || call.gone } := by
  refine ⟨h.nodup, h.nonneg, h.copies, fun c hc => h.fills c (List.mem_of_mem_erase hc),
    fun c hc => h.complete c (List.mem_of_mem_erase hc), fun hrep => ?_⟩
  rcases Bool.or_eq_true_iff.1 hrep with hrep | hg
  · exact h.settled hrep
  · have hcomplete := h.complete call hcall hg
    simpa [CancelCall.ids, hfills] using hcomplete

theorem Sound.step (h : Sound clientOrderId symbol a) (hC : Honest utils clientOrderId symbol a act)
    (hs : step utils clientOrderId symbol a act = some a') : Sound clientOrderId symbol a' := by
  cases act with
  | executes execution =>
    obtain rfl := Option.some.inj hs
    exact h.executes hC.2.1 hC.2.2.1 hC.2.2.2
  | message topic data =>
    obtain rfl := Option.some.inj hs
    refine h.credited (fun fill hfill => ?_) fun call (hcall : call ∈ a.calls) =>
      ⟨call, hcall, rfl, fun _ hf => hf, fun _ hid => Or.inl hid⟩
    obtain ⟨hmem, hid⟩ := List.mem_filter.1 hfill
    obtain ⟨items, event, hdata, ⟨item, hitem, hevent⟩, htrade, hlink, hfillId, hqty⟩ := mem_privateEvent hmem
    have hours : event.orderLinkId = clientOrderId := hlink.symm.trans (of_decide_eq_true hid)
    exact ⟨_, hC items hdata item hitem event hevent htrade hours, hfillId, hqty⟩
  | cancel gw =>
    obtain rfl := Option.some.inj hs
    exact h.cancel hC rfl rfl
  | emits call =>
    simp only [Crediting.step] at hs
    split at hs
    swap
    · cases hs
    next hcall =>
      split at hs
      · cases hs
      next fill rest hfills =>
        obtain rfl := Option.some.inj hs
        refine h.credited (fun f hf => ?_) fun c hc => ?_
        · rw [List.mem_singleton.1 hf]
          exact h.fills call hcall fill (by rw [hfills]; exact List.mem_cons_self)
        · rcases List.mem_cons.1 hc with rfl | hc
          · refine ⟨call, hcall, rfl, fun f hf => by rw [hfills]; exact List.mem_cons_of_mem _ hf, fun id hid => ?_⟩
            rw [CancelCall.ids, hfills, List.map_cons, List.mem_cons] at hid
            exact hid.symm.imp_right fun heq => by simp [heq]
          · exact ⟨c, List.mem_of_mem_erase hc, rfl, fun _ hf => hf, fun _ hid => Or.inl hid⟩
  | returns call =>
    simp only [Crediting.step] at hs
    split at hs
    swap
    · cases hs
    next hcall =>
      obtain rfl := Option.some.inj hs
      exact h.returns hcall.1 hcall.2

theorem sound_of_reach (h : (accounting utils clientOrderId symbol).Reach (Honest utils clientOrderId symbol) a) :
    Sound clientOrderId symbol a := by
  refine h.invariant (I := Sound clientOrderId symbol) ?_ fun _ _ _ _ hC hs hI => hI.step hC hs
  exact ⟨List.nodup_nil, fun _ h => absurd h List.not_mem_nil, .empty, fun _ h => absurd h List.not_mem_nil,
    fun _ h => absurd h List.not_mem_nil, fun h => by cases h⟩

end Invariant

/-- **Exactly once.** Whatever the stream loses, repeats or delivers late, and however it falls between
the fills that calls of `cancel` emit: the consumer has credited each fill that it has seen of the
order once, and nothing else; and when a call has said that the order is gone, it has credited all
that the venue filled, up to the tolerance of the check. -/
theorem fills_credited_once (utils : JsonUtils) (clientOrderId symbol : String) (a : Account)
    (h : (accounting utils clientOrderId symbol).Reach (Honest utils clientOrderId symbol) a) :
    a.ledger.total = (held a.venue fun e => decide (e.execId ∈ a.ledger.seen)) ∧
      a.ledger.total ≤ filled a.venue ∧
      (a.reported = true → filled a.venue - ExecutionGateway.epsilon ≤ a.ledger.total) := by
  have hsound := sound_of_reach h
  have htotal : a.ledger.total = held a.venue fun e => decide (e.execId ∈ a.ledger.seen) := hsound.copies.total
  refine ⟨htotal, ?_, fun hrep => ?_⟩
  · rw [htotal]
    exact held_mono hsound.nonneg fun _ _ _ => rfl
  · rw [htotal]
    exact (hsound.settled hrep).2

section Race

def oneFill : EventExecution := ⟨"e1", .Trade, 0, 1, false⟩

/-- The readers of numbers where every number is one. -/
def ones : JsonUtils where
  enumThrows _ := true
  readStringAsDouble json key target := some (if json.contains key then 1 else target)
  readStringAsInt64 _ _ target := some target

def oneRow : Json :=
  .obj [("orderLinkId", .str "id"), ("execId", .str "e1"), ("execType", .str "Trade"), ("execQty", .str "1")]

def raceFill : FillEvent := ExecutionGateway.fillEvent "id" "BTCUSDT" oneFill

theorem reach_readBack :
    (accounting ones "id" "BTCUSDT").Reach (Honest ones "id" "BTCUSDT")
      ⟨[oneFill], .empty, [⟨[raceFill], true⟩], true, false⟩ := by
  have hread : (ExecutionGateway.listing 1 1).rest.getExecutions .linear "BTCUSDT" "id" = .ok [oneFill] := by decide
  have hhistory : (ExecutionGateway.listing 1 1).rest.getOrderHistory .linear "BTCUSDT" "" "id" = .ok (some ⟨1⟩) := rfl
  have hcovers : ExecutionGateway.Covers [oneFill] (some ⟨1⟩) := by
    intro order horder
    cases horder
    have hlisted : ExecutionGateway.listedQty [oneFill] = 1 := by
      simp [ExecutionGateway.listedQty, ExecutionGateway.isFill, oneFill]
    rw [hlisted]
    norm_num [ExecutionGateway.epsilon]
  have hcall : (ExecutionGateway.listing 1 1).cancel "id" "BTCUSDT" = ([raceFill], .returned false) := by
    have hgone : (ExecutionGateway.listing 1 1).rest.cancelOrder .linear "BTCUSDT" "" "id" =
        .error (apiError 110001 "Order does not exist") := rfl
    have hcancel := OrderOp.cancel_of_gone hgone (by decide)
    rw [ExecutionGateway.reconcile_of_covers rfl (ExecutionGateway.readBack_eq_ok.2 ⟨hread, hhistory⟩) hcovers]
      at hcancel
    exact hcancel
  have hexecutes : Honest ones "id" "BTCUSDT" ⟨[], .empty, [], false, false⟩ (.executes oneFill) :=
    ⟨by decide, by decide, by decide, rfl⟩
  have hcancels : Honest ones "id" "BTCUSDT" ⟨[oneFill], .empty, [], false, false⟩
      (.cancel (ExecutionGateway.listing 1 1)) := by
    refine ⟨rfl, fun executions hexecutions => ?_, fun finalState hfinal => ?_⟩
    · cases hread.symm.trans hexecutions
      exact ⟨by decide, fun e he _ => he⟩
    · cases hhistory.symm.trans hfinal
      simp [filled, held, oneFill]
  have hs : step ones "id" "BTCUSDT" ⟨[oneFill], .empty, [], false, false⟩
      (.cancel (ExecutionGateway.listing 1 1)) = some ⟨[oneFill], .empty, [⟨[raceFill], true⟩], true, false⟩ := by
    simp only [step, hcall]
    rfl
  exact (System.Reach.init.step hexecutes rfl).step hcancels hs

/-- The stream delivers the fill between the read of `cancel` and its emission. -/
theorem fills_credited_once_race :
    ∃ a : Account, a.reported = true ∧ filled a.venue = 1 ∧ a.ledger.total ≤ filled a.venue ∧
      filled a.venue - ExecutionGateway.epsilon ≤ a.ledger.total := by
  have hrow : ones.executionFromJson oneRow =
      some ⟨oneFill, "", "", "", "id", .None, 0, 0, 0, 0, 0, 0, 0⟩ := by rfl
  have hmessage : Honest ones "id" "BTCUSDT" ⟨[oneFill], .empty, [⟨[raceFill], true⟩], true, false⟩
      (.message "execution" (.arr [oneRow])) := by
    intro items hitems item hitem event hevent _ _
    cases hitems
    rw [List.mem_singleton.1 hitem, hrow] at hevent
    cases hevent
    exact List.mem_singleton.2 rfl
  have h₃ := reach_readBack.step hmessage rfl
  have h₄ := h₃.step (a := Act.emits ⟨[raceFill], true⟩) trivial rfl
  have h₅ := h₄.step (a := Act.returns ⟨[], true⟩) trivial rfl
  obtain ⟨-, hle, hge⟩ := fills_credited_once ones "id" "BTCUSDT" _ h₅
  exact ⟨_, rfl, by simp [filled, held, oneFill], hle, hge rfl⟩

end Race

end Crediting

end BybitApi.Gateway
