import BybitApi.Gateway.Reasons
import BybitApi.Json
import BybitApi.Rest.Client

/-!
# Order updates

What the gateway tells its caller of an item of the private order topic. The item is read into an
`EventOrderUpdate`, whose status is `Created` until a known status is read, and `Created` is reported
as an accepted order.
-/

namespace BybitApi.Gateway

open Rest

inductive OrderStatus where
  | Created | New | Rejected | PartiallyFilled | PartiallyFilledCanceled | Filled | PendingCancel | Cancelled
  | Untriggered | Deactivated | Triggered | Active
  deriving DecidableEq

/-- What `readMagicEnum` and the readers of numbers in `stonky/utils/json_utils.h` do with a value that
is no text, or no number. -/
structure JsonUtils where
  /-- `readMagicEnum` throws at this value; if it does not, it leaves the target as it is. -/
  enumThrows : Json → Bool
  /-- `none` where it throws. -/
  readStringAsDouble : Json → String → ℚ → Option ℚ
  readStringAsInt64 : Json → String → ℤ → Option ℤ

/-- Of these values, the one with this name. -/
def enumCast {α : Type} (names : List (String × α)) (name : String) : Option α :=
  (names.find? fun row => row.1 = name).map Prod.snd

def OrderStatus.names : List (String × OrderStatus) := [
  ("Created", .Created), ("New", .New), ("Rejected", .Rejected), ("PartiallyFilled", .PartiallyFilled),
  ("PartiallyFilledCanceled", .PartiallyFilledCanceled), ("Filled", .Filled), ("PendingCancel", .PendingCancel),
  ("Cancelled", .Cancelled), ("Untriggered", .Untriggered), ("Deactivated", .Deactivated),
  ("Triggered", .Triggered), ("Active", .Active)]

def sideNames : List (String × Side) := [("Buy", .Buy), ("Sell", .Sell), ("None", .None)]

def orderTypeNames : List (String × Rest.OrderType) := [("Limit", .Limit), ("Market", .Market)]

def timeInForceNames : List (String × TimeInForce) :=
  [("GTC", .GTC), ("IOC", .IOC), ("FOK", .FOK), ("PostOnly", .PostOnly)]

/-- As it is constructed. -/
structure EventOrderUpdate where
  category : String := ""
  symbol : String := ""
  orderId : String := ""
  orderLinkId : String := ""
  side : Side := .None
  orderType : Rest.OrderType := .Limit
  orderStatus : OrderStatus := .Created
  rejectReason : String := ""
  cancelType : String := ""
  timeInForce : TimeInForce := .GTC
  price : ℚ := 0
  qty : ℚ := 0
  avgPrice : ℚ := 0
  leavesQty : ℚ := 0
  cumExecQty : ℚ := 0
  cumExecValue : ℚ := 0
  reduceOnly : Bool := false
  createdTime : ℤ := 0
  updatedTime : ℤ := 0

namespace JsonUtils

variable (utils : JsonUtils)

/-- `readMagicEnum<T>(json, key, target)`: the target keeps its value at a name that `T` does not have.
`none` where it throws. -/
def readMagicEnum {α : Type} (names : List (String × α)) (json : Json) (key : String) (target : α) :
    Option α :=
  match json.find? key with
  | none => some target
  | some (.str name) => some ((enumCast names name).getD target)
  | some v => if utils.enumThrows v then none else some target

def readString (json : Json) (key target : String) : Option String :=
  (json.readValue Json.getString key target).toOption

/-- `EventOrderUpdate::fromJson`; `none` where it throws. -/
def fromJson (json : Json) : Option EventOrderUpdate := do
  let event : EventOrderUpdate := {}
  let category ← readString json "category" event.category
  let symbol ← readString json "symbol" event.symbol
  let orderId ← readString json "orderId" event.orderId
  let orderLinkId ← readString json "orderLinkId" event.orderLinkId
  let side ← utils.readMagicEnum sideNames json "side" event.side
  let orderType ← utils.readMagicEnum orderTypeNames json "orderType" event.orderType
  let orderStatus ← utils.readMagicEnum OrderStatus.names json "orderStatus" event.orderStatus
  let rejectReason ← readString json "rejectReason" event.rejectReason
  let cancelType ← readString json "cancelType" event.cancelType
  let timeInForce ← utils.readMagicEnum timeInForceNames json "timeInForce" event.timeInForce
  let price ← utils.readStringAsDouble json "price" event.price
  let qty ← utils.readStringAsDouble json "qty" event.qty
  let avgPrice ← utils.readStringAsDouble json "avgPrice" event.avgPrice
  let leavesQty ← utils.readStringAsDouble json "leavesQty" event.leavesQty
  let cumExecQty ← utils.readStringAsDouble json "cumExecQty" event.cumExecQty
  let cumExecValue ← utils.readStringAsDouble json "cumExecValue" event.cumExecValue
  let reduceOnly ← (json.readValue Json.getBool "reduceOnly" event.reduceOnly).toOption
  let createdTime ← utils.readStringAsInt64 json "createdTime" event.createdTime
  let updatedTime ← utils.readStringAsInt64 json "updatedTime" event.updatedTime
  return ⟨category, symbol, orderId, orderLinkId, side, orderType, orderStatus, rejectReason, cancelType,
    timeInForce, price, qty, avgPrice, leavesQty, cumExecQty, cumExecValue, reduceOnly, createdTime, updatedTime⟩

end JsonUtils

/-! ## The callback -/

/-- The states that the gateway reports. -/
inductive OrderState where
  | Accepted | PartiallyFilled | Filled | Cancelled | Rejected
  deriving DecidableEq

structure OrderUpdate where
  clientOrderId : String
  symbol : String
  price : ℚ
  cumFilledQty : ℚ
  reason : String
  state : OrderState
  /-- None where the gateway does not set it. -/
  rejectKind : Option RejectKind
  deriving DecidableEq

/-- The switch over the status; `none` where the callback returns. -/
def orderState (status : OrderStatus) (rejectReason : String) : Option (OrderState × Option RejectKind) :=
  match status with
  | .Created | .New => some (.Accepted, none)
  | .PartiallyFilled => some (.PartiallyFilled, none)
  | .Filled => some (.Filled, none)
  | .PendingCancel => none
  | .Cancelled | .PartiallyFilledCanceled | .Deactivated =>
    if classifyRejectReason rejectReason = .benignPostOnlyCross then
      some (.Rejected, some .benignPostOnlyCross)
    else some (.Cancelled, none)
  | .Rejected => some (.Rejected, some (classifyRejectReason rejectReason))
  | .Untriggered | .Triggered | .Active => none

/-- The order update that the gateway emits; `orderUpdateCB` says whether a callback is set. -/
def onOrderUpdate (orderUpdateCB : Bool) (event : EventOrderUpdate) : Option OrderUpdate :=
  if orderUpdateCB = false ∨ event.orderLinkId = "" then none
  else
    (orderState event.orderStatus event.rejectReason).map fun state =>
      ⟨event.orderLinkId, event.symbol, event.price, event.cumExecQty, event.rejectReason, state.1, state.2⟩

/-- What comes of one item. -/
def updateOf (utils : JsonUtils) (orderUpdateCB : Bool) (item : Json) : Option OrderUpdate :=
  (utils.fromJson item).bind (onOrderUpdate orderUpdateCB)

/-- `dispatchArray` for the order topic: the updates of one message. An item that fails does not drop
the others. -/
def dispatchArray (utils : JsonUtils) (orderUpdateCB : Bool) : Json → List OrderUpdate
  | .arr items => items.filterMap (updateOf utils orderUpdateCB)
  | _ => []

/-! ## What an update says of its item -/

/-- The statuses of which the gateway may report this state. -/
def OrderState.statuses : OrderState → List String
  | Accepted => ["Created", "New"]
  | PartiallyFilled => ["PartiallyFilled"]
  | Filled => ["Filled"]
  | Cancelled | Rejected => ["Cancelled", "PartiallyFilledCanceled", "Deactivated", "Rejected"]

/-- The item has a status that `OrderStatus` names. -/
def HasStatus (item : Json) : Prop :=
  ∃ name status, item.find? "orderStatus" = some (.str name) ∧ enumCast OrderStatus.names name = some status

/-- An update reports the status of its item, and of an item without one there is no update. -/
structure Faithful (item : Json) (emitted : Option OrderUpdate) : Prop where
  reported : ∀ update ∈ emitted, ∃ name ∈ update.state.statuses, item.find? "orderStatus" = some (.str name)
  silent : ¬ HasStatus item → emitted = none

section Faithful

variable {utils : JsonUtils} {item : Json} {event : EventOrderUpdate} {orderUpdateCB : Bool}
  {update : OrderUpdate}

theorem enumCast_names {name : String} {status : OrderStatus}
    (h : enumCast OrderStatus.names name = some status) : (name, status) ∈ OrderStatus.names := by
  obtain ⟨row, hrow, rfl⟩ := Option.map_eq_some_iff.1 h
  have hname : row.1 = name := by simpa using List.find?_some hrow
  exact hname ▸ List.mem_of_find?_eq_some hrow

/-- The fields that the callback looks at are those of the item. -/
theorem fromJson_reads (h : utils.fromJson item = some event) :
    JsonUtils.readString item "orderLinkId" "" = some event.orderLinkId ∧
      utils.readMagicEnum OrderStatus.names item "orderStatus" .Created = some event.orderStatus := by
  obtain ⟨category, -, h⟩ := Option.bind_eq_some_iff.1 h
  obtain ⟨symbol, -, h⟩ := Option.bind_eq_some_iff.1 h
  obtain ⟨orderId, -, h⟩ := Option.bind_eq_some_iff.1 h
  obtain ⟨orderLinkId, hlink, h⟩ := Option.bind_eq_some_iff.1 h
  obtain ⟨side, -, h⟩ := Option.bind_eq_some_iff.1 h
  obtain ⟨orderType, -, h⟩ := Option.bind_eq_some_iff.1 h
  obtain ⟨orderStatus, hstatus, h⟩ := Option.bind_eq_some_iff.1 h
  obtain ⟨rejectReason, -, h⟩ := Option.bind_eq_some_iff.1 h
  obtain ⟨cancelType, -, h⟩ := Option.bind_eq_some_iff.1 h
  obtain ⟨timeInForce, -, h⟩ := Option.bind_eq_some_iff.1 h
  obtain ⟨price, -, h⟩ := Option.bind_eq_some_iff.1 h
  obtain ⟨qty, -, h⟩ := Option.bind_eq_some_iff.1 h
  obtain ⟨avgPrice, -, h⟩ := Option.bind_eq_some_iff.1 h
  obtain ⟨leavesQty, -, h⟩ := Option.bind_eq_some_iff.1 h
  obtain ⟨cumExecQty, -, h⟩ := Option.bind_eq_some_iff.1 h
  obtain ⟨cumExecValue, -, h⟩ := Option.bind_eq_some_iff.1 h
  obtain ⟨reduceOnly, -, h⟩ := Option.bind_eq_some_iff.1 h
  obtain ⟨createdTime, -, h⟩ := Option.bind_eq_some_iff.1 h
  obtain ⟨updatedTime, -, h⟩ := Option.bind_eq_some_iff.1 h
  obtain rfl := Option.some.inj h
  exact ⟨hlink, hstatus⟩

/-- The switch reports a state of the statuses that stand for it alone. -/
theorem orderState_statuses {name : String} {status : OrderStatus} {reason : String}
    {state : OrderState × Option RejectKind} (hname : (name, status) ∈ OrderStatus.names)
    (h : orderState status reason = some state) : name ∈ state.1.statuses := by
  simp only [OrderStatus.names, List.mem_cons, Prod.mk.injEq, List.not_mem_nil, or_false] at hname
  rcases hname with ⟨rfl, rfl⟩ | ⟨rfl, rfl⟩ | ⟨rfl, rfl⟩ | ⟨rfl, rfl⟩ | ⟨rfl, rfl⟩ | ⟨rfl, rfl⟩ | ⟨rfl, rfl⟩ |
    ⟨rfl, rfl⟩ | ⟨rfl, rfl⟩ | ⟨rfl, rfl⟩ | ⟨rfl, rfl⟩ | ⟨rfl, rfl⟩ <;> simp only [orderState] at h
  all_goals
    generalize classifyRejectReason reason = kind at h
    cases kind <;> cases h <;> decide

theorem onOrderUpdate_eq_some (h : onOrderUpdate orderUpdateCB event = some update) :
    orderUpdateCB = true ∧ event.orderLinkId ≠ "" ∧
      ∃ rejectKind, orderState event.orderStatus event.rejectReason = some (update.state, rejectKind) := by
  unfold onOrderUpdate at h
  split at h
  · cases h
  next hours =>
    rw [not_or] at hours
    obtain ⟨state, hstate, rfl⟩ := Option.map_eq_some_iff.1 h
    exact ⟨by simpa using hours.1, hours.2, state.2, hstate⟩

theorem readMagicEnum_of_hasStatus {name : String} {status : OrderStatus}
    (hfind : item.find? "orderStatus" = some (.str name))
    (hcast : enumCast OrderStatus.names name = some status) :
    utils.readMagicEnum OrderStatus.names item "orderStatus" .Created = some status := by
  simp only [JsonUtils.readMagicEnum, hfind, hcast, Option.getD_some]

theorem readMagicEnum_of_not_hasStatus {status : OrderStatus} (h : ¬ HasStatus item)
    (hread : utils.readMagicEnum OrderStatus.names item "orderStatus" .Created = some status) :
    status = .Created := by
  unfold JsonUtils.readMagicEnum at hread
  split at hread
  · exact (Option.some.inj hread).symm
  next name hfind =>
    have hcast : enumCast OrderStatus.names name = none := by
      cases hcast : enumCast OrderStatus.names name with
      | none => rfl
      | some status => exact absurd ⟨name, status, hfind, hcast⟩ h
    rw [hcast] at hread
    exact (Option.some.inj hread).symm
  · split at hread
    · cases hread
    · exact (Option.some.inj hread).symm

/-- An order of this gateway, of which the item can be read. -/
def IsOurs (utils : JsonUtils) (orderUpdateCB : Bool) (item : Json) : Prop :=
  orderUpdateCB = true ∧ (utils.fromJson item).isSome = true ∧
    ∃ orderLinkId, orderLinkId ≠ "" ∧ item.find? "orderLinkId" = some (.str orderLinkId)

theorem isOurs_of_updateOf (h : updateOf utils orderUpdateCB item = some update) :
    IsOurs utils orderUpdateCB item := by
  obtain ⟨event, hevent, hupdate⟩ := Option.bind_eq_some_iff.1 h
  obtain ⟨hcb, hlink, -⟩ := onOrderUpdate_eq_some hupdate
  refine ⟨hcb, by rw [hevent]; rfl, event.orderLinkId, hlink, ?_⟩
  have hread := (fromJson_reads hevent).1
  cases hfind : item.find? "orderLinkId" with
  | none =>
    rw [JsonUtils.readString, Json.readValue_none hfind] at hread
    exact absurd (Option.some.inj hread).symm hlink
  | some v =>
    rw [JsonUtils.readString, Json.readValue_some hfind] at hread
    cases v with
    | str s => exact congrArg (fun s => some (Json.str s)) (Option.some.inj hread)
    | _ => cases hread

/-- An item of ours that has no status is reported as an accepted order. -/
theorem updateOf_accepted (hours : IsOurs utils orderUpdateCB item) (hstatus : ¬ HasStatus item) :
    ∃ update, updateOf utils orderUpdateCB item = some update ∧ update.state = .Accepted := by
  obtain ⟨hcb, hsome, orderLinkId, hlink, hfind⟩ := hours
  obtain ⟨event, hevent⟩ := Option.isSome_iff_exists.1 hsome
  obtain ⟨hreadLink, hreadStatus⟩ := fromJson_reads hevent
  rw [JsonUtils.readString, Json.readValue_some hfind] at hreadLink
  obtain rfl : orderLinkId = event.orderLinkId := Option.some.inj hreadLink
  have hcreated := readMagicEnum_of_not_hasStatus hstatus hreadStatus
  rw [updateOf, hevent, Option.bind_some, onOrderUpdate, if_neg (by simp [hcb, hlink]), hcreated]
  exact ⟨_, rfl, rfl⟩

/-- **An item is reported as what it is** if and only if it has a status that the library knows, or is
not reported at all. -/
theorem updateOf_faithful_iff : Faithful item (updateOf utils orderUpdateCB item) ↔
    (IsOurs utils orderUpdateCB item → HasStatus item) := by
  constructor
  · intro h hours
    by_contra hstatus
    obtain ⟨update, hupdate, -⟩ := updateOf_accepted hours hstatus
    rw [h.silent hstatus] at hupdate
    cases hupdate
  · intro h
    refine ⟨fun update hupdate => ?_, fun hstatus => ?_⟩
    · obtain ⟨name, status, hfind, hcast⟩ := h (isOurs_of_updateOf hupdate)
      obtain ⟨event, hevent, hcallback⟩ := Option.bind_eq_some_iff.1 hupdate
      obtain ⟨-, -, rejectKind, hstate⟩ := onOrderUpdate_eq_some hcallback
      have hread := (fromJson_reads hevent).2
      rw [readMagicEnum_of_hasStatus hfind hcast] at hread
      obtain rfl := Option.some.inj hread
      exact ⟨name, orderState_statuses (enumCast_names hcast) hstate, hfind⟩
    · cases hupdate : updateOf utils orderUpdateCB item with
      | none => rfl
      | some update => exact absurd (h (isOurs_of_updateOf hupdate)) hstatus

/-- The readers of numbers at the absent keys of the items below. -/
def absentOnly : JsonUtils where
  enumThrows _ := true
  readStringAsDouble json key target := if json.contains key then none else some target
  readStringAsInt64 json key target := if json.contains key then none else some target

/-- An order whose status the library does not know, and one without a status: both are reported as
accepted. -/
theorem unknown_status_accepted :
    let expired : Json := .obj [("orderLinkId", .str "id"), ("orderStatus", .str "Expired")]
    let bare : Json := .obj [("orderLinkId", .str "id")]
    ¬ HasStatus expired ∧ (updateOf absentOnly true expired).map OrderUpdate.state = some .Accepted ∧
    ¬ HasStatus bare ∧ (updateOf absentOnly true bare).map OrderUpdate.state = some .Accepted ∧
    ¬ Faithful expired (updateOf absentOnly true expired) ∧
      ¬ Faithful bare (updateOf absentOnly true bare) := by
  have hexpired : ¬ HasStatus (.obj [("orderLinkId", .str "id"), ("orderStatus", .str "Expired")]) := by
    rintro ⟨name, status, hfind, hcast⟩
    cases hfind
    cases hcast
  have hbare : ¬ HasStatus (.obj [("orderLinkId", .str "id")]) := by
    rintro ⟨name, status, hfind, -⟩
    cases hfind
  refine ⟨hexpired, rfl, hbare, rfl, fun h => ?_, fun h => ?_⟩
  · cases h.silent hexpired
  · cases h.silent hbare

end Faithful

end BybitApi.Gateway
