import BybitApi.Gateway.Orders
import BybitApi.Lib.Ledger
import Mathlib.Tactic.Linarith

/-!
# Fills read back at a cancel

When the venue says that the order is gone, `cancel` reads the order's fills back and emits them
again, and the consumer credits each fill id once. The check that the list is complete sums the rows
of the list. So a fill that is listed twice is counted twice there and credited once.
-/

namespace BybitApi.Gateway

open Lib Rest

/-- What the consumer credits, who drops a fill whose id came before. -/
def creditedQty (fills : List FillEvent) : ℚ :=
  (Ledger.empty.creditAll FillEvent.fillId FillEvent.qty fills).total

/-- The fills of a list, each id once. -/
def distinctQty (executions : List EventExecution) : ℚ :=
  (Ledger.empty.creditAll EventExecution.execId EventExecution.execQty
    (executions.filter ExecutionGateway.isFill)).total

namespace ExecutionGateway

variable {gw : ExecutionGateway} {clientOrderId symbol : String} {executions : List EventExecution}
  {finalState : Option OrderResponse}

theorem creditedQty_fillEvents :
    creditedQty ((executions.filter isFill).map (fillEvent clientOrderId symbol)) = distinctQty executions :=
  congrArg Ledger.total (Ledger.creditAll_map _ _)

/-- Where no id is listed twice, the sum over the rows is what is credited. -/
theorem distinctQty_of_nodup (h : ((executions.filter isFill).map EventExecution.execId).Nodup) :
    distinctQty executions = listedQty executions :=
  (Ledger.total_creditAll_of_nodup h fun _ _ => List.not_mem_nil).trans (zero_add _)

/-! ## What the reconciliation does -/

theorem readBack_eq_ok :
    gw.readBack clientOrderId symbol = .ok (executions, finalState) ↔
      gw.rest.getExecutions .linear symbol clientOrderId = .ok executions ∧
      gw.rest.getOrderHistory .linear symbol "" clientOrderId = .ok finalState := by
  unfold readBack
  cases gw.rest.getExecutions .linear symbol clientOrderId <;>
    cases gw.rest.getOrderHistory .linear symbol "" clientOrderId <;>
    simp [bind, Except.bind, pure, Except.pure]

/-- The list covers what the history reports, as far as the rows go. -/
def Covers (executions : List EventExecution) (finalState : Option OrderResponse) : Prop :=
  ∀ order ∈ finalState, order.cumExecQty ≤ listedQty executions + epsilon

theorem reconcile_of_covers (hcb : gw.fillCB = true)
    (hread : gw.readBack clientOrderId symbol = .ok (executions, finalState)) (h : Covers executions finalState) :
    gw.reconcileMissedFills clientOrderId symbol =
      ((executions.filter isFill).map (fillEvent clientOrderId symbol), .ok ()) := by
  have hfilter : (finalState.filter fun order => listedQty executions + epsilon < order.cumExecQty) = none := by
    rw [Option.filter_eq_none_iff]
    intro order horder
    simpa using h order horder
  simp [reconcileMissedFills, hcb, hread, hfilter]

theorem reconcile_of_not_covers (hcb : gw.fillCB = true)
    (h : ∀ executions finalState, gw.readBack clientOrderId symbol = .ok (executions, finalState) →
      ¬ Covers executions finalState) :
    ∃ message, gw.reconcileMissedFills clientOrderId symbol = ([], .error (.executionUnknown message)) := by
  cases hread : gw.readBack clientOrderId symbol with
  | error e => exact ⟨_, by simp only [reconcileMissedFills, hcb, hread]; rfl⟩
  | ok read =>
    obtain ⟨executions, finalState⟩ := read
    obtain ⟨order, horder, hlt⟩ : ∃ order ∈ finalState, listedQty executions + epsilon < order.cumExecQty := by
      simpa [Covers] using h _ _ hread
    have hfilter : (finalState.filter fun order =>
        listedQty executions + epsilon < order.cumExecQty) = some order := by
      rw [Option.filter_eq_some_iff]
      exact ⟨horder, by simpa using hlt⟩
    exact ⟨_, by simp only [reconcileMissedFills, hcb, hread, hfilter]; rfl⟩

/-- `cancel` says that the order is gone only when its fills are emitted, and the consumer then has
what the history reports; otherwise it throws `ExecutionUnknown` and has emitted nothing. -/
def Reconciled (gw : ExecutionGateway) (clientOrderId symbol : String)
    (result : List FillEvent × Ending Bool) : Prop :=
  (result.2 = .returned false → ∃ executions finalState,
    gw.rest.getExecutions .linear symbol clientOrderId = .ok executions ∧
    gw.rest.getOrderHistory .linear symbol "" clientOrderId = .ok finalState ∧
    (∀ execution ∈ executions, execution.execType = .Trade → execution.execId ≠ "" →
      fillEvent clientOrderId symbol execution ∈ result.1) ∧
    ∀ order ∈ finalState, order.cumExecQty - epsilon ≤ creditedQty result.1) ∧
  (result.2 ≠ .returned false → result.1 = [] ∧ ∃ message, result.2 = .thrown (.executionUnknown message))

/-- Rows that repeat an id make up for a fill that is missing. -/
def Masks (executions : List EventExecution) (finalState : Option OrderResponse) : Prop :=
  Covers executions finalState ∧ ∃ order ∈ finalState, distinctQty executions + epsilon < order.cumExecQty

/-- A list with distinct ids masks nothing. -/
theorem not_masks_of_nodup (h : ((executions.filter isFill).map EventExecution.execId).Nodup) :
    ¬ Masks executions finalState := by
  rintro ⟨hcovers, order, horder, hlt⟩
  have hle := hcovers order horder
  rw [distinctQty_of_nodup h] at hlt
  linarith

theorem fillEvent_mem {execution : EventExecution} (h : execution ∈ executions)
    (htrade : execution.execType = .Trade) (hid : execution.execId ≠ "") :
    fillEvent clientOrderId symbol execution ∈ (executions.filter isFill).map (fillEvent clientOrderId symbol) :=
  List.mem_map_of_mem (List.mem_filter.2 ⟨h, by simp [isFill, htrade, hid]⟩)

variable {e : Exception}

/-- At an order-gone answer, exactly the masked fills are lost. -/
theorem gone_fills_credited (hcb : gw.fillCB = true)
    (hcall : gw.rest.cancelOrder .linear symbol "" clientOrderId = .error e)
    (hgone : OrderOp.orderGone e = true) :
    Reconciled gw clientOrderId symbol (gw.cancel clientOrderId symbol) ↔
      ∀ executions finalState, gw.rest.getExecutions .linear symbol clientOrderId = .ok executions →
        gw.rest.getOrderHistory .linear symbol "" clientOrderId = .ok finalState →
        ¬ Masks executions finalState := by
  have hcancel := OrderOp.cancel_of_gone hcall hgone
  by_cases hcase : ∃ executions finalState,
      gw.readBack clientOrderId symbol = .ok (executions, finalState) ∧ Covers executions finalState
  · obtain ⟨executions, finalState, hread, hcovers⟩ := hcase
    rw [reconcile_of_covers hcb hread hcovers] at hcancel
    obtain ⟨hexecutions, hhistory⟩ := readBack_eq_ok.1 hread
    rw [hcancel]
    constructor
    · rintro ⟨hreturned, -⟩ executions' finalState' hexecutions' hhistory' ⟨-, order, horder, hlt⟩
      obtain rfl : executions = executions' := Except.ok.inj (hexecutions.symm.trans hexecutions')
      obtain rfl : finalState = finalState' := Except.ok.inj (hhistory.symm.trans hhistory')
      obtain ⟨_, finalState'', -, hhistory'', -, hcredited⟩ := hreturned rfl
      obtain rfl : finalState = finalState'' := Except.ok.inj (hhistory.symm.trans hhistory'')
      have hle := hcredited order horder
      rw [creditedQty_fillEvents] at hle
      linarith
    · intro h
      refine ⟨fun _ => ⟨executions, finalState, hexecutions, hhistory,
        fun execution hmem htrade hid => fillEvent_mem hmem htrade hid, fun order horder => ?_⟩,
        fun hne => absurd rfl hne⟩
      rw [creditedQty_fillEvents]
      have hnot : ¬ distinctQty executions + epsilon < order.cumExecQty := fun hlt =>
        h executions finalState hexecutions hhistory ⟨hcovers, order, horder, hlt⟩
      linarith
  · have hnot : ∀ executions finalState, gw.readBack clientOrderId symbol = .ok (executions, finalState) →
        ¬ Covers executions finalState := fun executions finalState hread hcovers =>
      hcase ⟨executions, finalState, hread, hcovers⟩
    obtain ⟨message, hthrown⟩ := reconcile_of_not_covers hcb hnot
    rw [hthrown] at hcancel
    rw [hcancel]
    refine ⟨fun _ executions finalState hexecutions hhistory hmasks => ?_, fun _ => ⟨fun heq => by (cases heq),
      fun _ => ⟨rfl, message, rfl⟩⟩⟩
    exact hnot executions finalState (readBack_eq_ok.2 ⟨hexecutions, hhistory⟩) hmasks.1

section Listing

def goneBody : String := "\x7b\"retCode\":110001,\"retMsg\":\"Order does not exist\"\x7d"

/-- A page that holds the only fill of the list. -/
def pageBody (nextCursor : String) : String :=
  "\x7b\"result\":\x7b\"list\":[\x7b\"execId\":\"e1\",\"execType\":\"Trade\",\"execQty\":\"1\"\x7d],\"nextPageCursor\":\"" ++
    nextCursor ++ "\"\x7d\x7d"

def historyBody (filled : String) : String :=
  "\x7b\"result\":\x7b\"list\":[\x7b\"cumExecQty\":\"" ++ filled ++ "\"\x7d]\x7d\x7d"

def listPage (row : List (String × Json)) (nextCursor : String) : Json :=
  .obj [("result", .obj [("list", .arr [.obj row]), ("nextPageCursor", .str nextCursor)])]

def fill : List (String × Json) :=
  [("execId", .str "e1"), ("execType", .str "Trade"), ("execQty", .str "1")]

def parseBody (body : String) : Option Json :=
  if body = goneBody then some (.obj [("retCode", .num 110001), ("retMsg", .str "Order does not exist")])
  else if body = pageBody "2" then some (listPage fill "2")
  else if body = pageBody "" then some (listPage fill "")
  else if body = historyBody "2" then
    some (.obj [("result", .obj [("list", .arr [.obj [("cumExecQty", .str "2")]])])])
  else some (.obj [("result", .obj [("list", .arr [.obj [("cumExecQty", .str "1")]])])])

/-- A venue that has no order to cancel, lists a fill of one on so many pages, and reports so much
filled. -/
def listing (pages filled : Nat) : ExecutionGateway where
  rest := {
    lib := ⟨parseBody, fun _ _ => ""⟩
    send := fun n request =>
      match request with
      | .executions .. => .ok (.ok (if n + 1 < pages then pageBody "2" else pageBody ""))
      | .history .. => .ok (.ok (historyBody (toString filled)))
      | _ => .ok (.ok goneBody)
    findPricePrecisionsForInstrument := fun _ _ => .ok none
    execution := fun _ => .ok ⟨"e1", .Trade, 0, 1, false⟩
    orders := fun json => (Response.fromJson json).map fun response => ⟨response, [⟨filled⟩]⟩ }
  positionIdx := 0
  isLive := true
  fillCB := true
  format := fun _ => ""

theorem gone_fills_credited_once :
    Reconciled (listing 1 1) "id" "BTCUSDT" ((listing 1 1).cancel "id" "BTCUSDT") := by
  have hread : (listing 1 1).rest.getExecutions .linear "BTCUSDT" "id" =
      .ok [⟨"e1", .Trade, 0, 1, false⟩] := by decide
  refine (gone_fills_credited (e := apiError 110001 "Order does not exist") rfl rfl (by decide)).2
    fun executions finalState hexecutions _ => ?_
  cases hread.symm.trans hexecutions
  exact not_masks_of_nodup (by decide)

theorem repeated_fill_lost : ¬ ∀ (gw : ExecutionGateway) (clientOrderId symbol : String) (e : Exception),
    gw.fillCB = true → gw.rest.cancelOrder .linear symbol "" clientOrderId = .error e →
    OrderOp.orderGone e = true →
      Reconciled gw clientOrderId symbol (gw.cancel clientOrderId symbol) := by
  intro h
  have hreconciled := h (listing 2 2) "id" "BTCUSDT" (apiError 110001 "Order does not exist") rfl rfl (by decide)
  have hread : (listing 2 2).readBack "id" "BTCUSDT" =
      .ok ([⟨"e1", .Trade, 0, 1, false⟩, ⟨"e1", .Trade, 0, 1, false⟩], some ⟨2⟩) :=
    readBack_eq_ok.2 ⟨by decide, rfl⟩
  have hcovers : Covers [⟨"e1", .Trade, 0, 1, false⟩, ⟨"e1", .Trade, 0, 1, false⟩] (some ⟨2⟩) := by
    simp [Covers, listedQty, isFill, epsilon]
    norm_num
  have hcall : (listing 2 2).rest.cancelOrder .linear "BTCUSDT" "" "id" =
      .error (apiError 110001 "Order does not exist") :=
    rfl
  rw [OrderOp.cancel_of_gone hcall (by decide), reconcile_of_covers rfl hread hcovers] at hreconciled
  obtain ⟨_, finalState, -, hhistory, -, hcredited⟩ := hreconciled.1 rfl
  obtain rfl : some ⟨2⟩ = finalState := Except.ok.inj ((readBack_eq_ok.1 hread).2.symm.trans hhistory)
  have hle := hcredited ⟨2⟩ rfl
  rw [creditedQty_fillEvents] at hle
  have hdistinct : distinctQty [⟨"e1", .Trade, 0, 1, false⟩, ⟨"e1", .Trade, 0, 1, false⟩] = 1 := by
    simp [distinctQty, isFill, Ledger.credit, Ledger.empty]
  rw [hdistinct] at hle
  norm_num [epsilon] at hle

end Listing

end ExecutionGateway

end BybitApi.Gateway
