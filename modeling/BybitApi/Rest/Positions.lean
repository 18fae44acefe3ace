import BybitApi.Rest.Decimals
import BybitApi.Rest.Pages
import Mathlib.Algebra.BigOperators.Group.List.Basic
import Mathlib.Algebra.Order.Ring.Rat
import Mathlib.Tactic.Linarith

/-!
# Positions

`RESTClient::getPositionInfo` lists the positions of a category, and `closeAllPositions` posts a
market order for each of them that is not empty. Of the position the order takes the symbol, the
side and the size; its category and its `positionIdx` are the defaults of an `Order`. Its quantity is
written with as many decimals as the quantity step has that the client finds for the symbol.
-/

namespace BybitApi.Rest

open Lib

structure Position where
  positionIdx : ℤ
  symbol : String
  side : Side
  size : ℚ
  /-- Decided on the decimal text of the size. -/
  zeroSize : Bool
  zeroSize_iff : zeroSize = true ↔ size = 0

/-- The parameters of `/v5/position/list`; an empty one is left out. -/
structure PositionsRequest where
  category : Category
  limit : ℕ
  symbol : Option String
  settleCoin : Option String
  cursor : Option String

def positionsRequest (category : Category) (symbol settleCoin cursor : String) : PositionsRequest :=
  ⟨category, 200, unlessEmpty symbol, unlessEmpty settleCoin, unlessEmpty cursor⟩

section Calls

-- `list n` is the answer to the `n`-th request for the list, checked and decoded.
variable (list : ℕ → PositionsRequest → Except Exception (Page Position)) (rounds : ℕ)

def getPositionInfo (category : Category) (symbol settleCoin : String) :
    Option (Except Exception (List Position)) :=
  listing (fun n cursor => list n (positionsRequest category symbol settleCoin cursor)) rounds

/-- An order as it is constructed. -/
def Order.default : Order where
  category := .linear
  symbol := ""
  side := .Buy
  orderType := .Market
  qty := 0
  price := 0
  timeInForce := .GTC
  positionIdx := 0
  orderLinkId := ""
  reduceOnly := false
  priceStep := 1 / 1000
  qtyStep := 1 / 1000

def closeOrder (pos : Position) : Order :=
  { Order.default with
    symbol := pos.symbol
    side := if pos.side = .Buy then .Sell else .Buy
    orderType := .Market
    qty := pos.size
    timeInForce := .GTC }

/-- The steps that `placeOrder` formats with; they are 0.01 before it looks them up. -/
def RESTClient.steps (rest : RESTClient) (order : Order) : ℚ × ℚ :=
  match rest.findPricePrecisionsForInstrument order.category order.symbol with
  | .ok (some steps) => steps
  | _ => (1 / 100, 1 / 100)

-- `formatDouble decimals value`; `rest n` is the client as the `n`-th order meets it.
variable (formatDouble : ℕ → ℚ → String) (rest : ℕ → RESTClient)

/-- The body that `placeOrder` posts. -/
def RESTClient.posted (rest : RESTClient) (order : Order) : Json :=
  FullOrder.toJson formatDouble
    { order with priceStep := (rest.steps order).1, qtyStep := (rest.steps order).2 }

/-- The loop over the positions; it passes on the bodies it has posted. -/
def closeEach : ℕ → List Position → Except Exception (List Json)
  | _, [] => .ok []
  | n, pos :: positions =>
    if pos.zeroSize then closeEach n positions
    else
      match (rest n).placeOrder (closeOrder pos) with
      | .error e => .error e
      | .ok _ =>
        (closeEach (n + 1) positions).map fun bodies => (rest n).posted formatDouble (closeOrder pos) :: bodies

def closeAllPositions (category : Category) (settleCoin : String) : Option (Except Exception (List Json)) :=
  (getPositionInfo list rounds category "" settleCoin).map fun positions =>
    positions >>= closeEach formatDouble rest 0

end Calls

/-! ## What closes a position -/

/-- A position is held in a leg of a market. -/
structure Leg where
  category : String
  symbol : String
  positionIdx : ℚ
  deriving DecidableEq

namespace Side

/-- `None` has no opposite. -/
def opposite : Side → Option Side
  | Buy => some Sell
  | Sell => some Buy
  | None => none

end Side

/-- What a quantity on a side adds to what is held. -/
def signed (side : String) (q : ℚ) : ℚ := if side = "Buy" then q else if side = "Sell" then -q else 0

def Position.leg (category : Category) (pos : Position) : Leg := ⟨category.name, pos.symbol, pos.positionIdx⟩

/-- A member that is a text; empty where it is none. -/
def textAt (body : Json) (key : String) : String :=
  match body.find? key with
  | some (.str s) => s
  | _ => ""

/-- The leg, the side and the quantity that the body of an order names. -/
structure Posted where
  leg : Leg
  side : String
  qty : ℚ
  deriving DecidableEq

def postedOf (body : Json) : Posted where
  leg :=
    { category := textAt body "category"
      symbol := textAt body "symbol"
      positionIdx := match body.find? "positionIdx" with
        | some (.num q) => q
        | _ => 0 }
  side := textAt body "side"
  qty := Fixed.read (textAt body "qty")

/-- What the body of an order should name that closes the position; a position without a side has none. -/
def closing (category : Category) (pos : Position) : Option Posted :=
  pos.side.opposite.map fun side => ⟨pos.leg category, side.name, pos.size⟩

/-- What is held in a leg. -/
def held (category : Category) (positions : List Position) (leg : Leg) : ℚ :=
  ((positions.filter fun pos => pos.leg category = leg).map fun pos => signed pos.side.name pos.size).sum

/-- What the orders add to a leg when they are executed. -/
def traded (bodies : List Json) (leg : Leg) : ℚ :=
  ((bodies.filter fun body => (postedOf body).leg = leg).map fun body =>
    signed (postedOf body).side (postedOf body).qty).sum

/-- One order for each position that is not empty, in its leg, with the opposite side and its size.
What was held in a leg is then gone, and what was not held is not touched. -/
structure Closes (category : Category) (positions : List Position) (bodies : List Json) : Prop where
  one_each : (bodies.map fun body => some (postedOf body)).Perm
    ((positions.filter fun pos => !pos.zeroSize).map (closing category))
  flat : ∀ leg, held category positions leg + traded bodies leg = 0

/-- What the orders carry over from a position. -/
def CarriedOver (category : Category) (pos : Position) : Prop :=
  category = .linear ∧ pos.positionIdx = 0 ∧ pos.side ≠ .None

/-- The size can be written with the decimals of the quantity step that is found for the order. -/
def SizeFits (rest : RESTClient) (pos : Position) : Prop :=
  HasDecimals pos.size (decimalPlacesFromStep (rest.steps (closeOrder pos)).2)

section Close

variable {list : ℕ → PositionsRequest → Except Exception (Page Position)} {rounds n : ℕ} {rest : ℕ → RESTClient}
  {formatDouble : ℕ → ℚ → String} {client : RESTClient} {category : Category} {settleCoin : String}
  {positions : List Position} {bodies : List Json} {body : Json} {pos : Position} {leg : Leg}

/-! ## One body -/

/-- The members of the body that is posted for a position. -/
theorem postedOf_closeOrder (hformat : FormatsFixed formatDouble) (client : RESTClient) (pos : Position) :
    ∃ t : Fixed, t.decimals = decimalPlacesFromStep (client.steps (closeOrder pos)).2 ∧
      |t.value - pos.size| * 10 ^ t.decimals ≤ 1 / 2 ∧
      postedOf (client.posted formatDouble (closeOrder pos)) =
        ⟨⟨"linear", pos.symbol, 0⟩, if pos.side = .Buy then "Sell" else "Buy", t.value⟩ := by
  obtain ⟨t, htext, hdecimals, hnear⟩ :=
    hformat.nearest (decimalPlacesFromStep (client.steps (closeOrder pos)).2) pos.size
  refine ⟨t, hdecimals, hdecimals ▸ hnear, ?_⟩
  have hqty : (client.posted formatDouble (closeOrder pos)).find? "qty" = some (.str t.text) := by
    rw [← htext]
    exact find_qty _
  have hside : textAt (client.posted formatDouble (closeOrder pos)) "side" =
      if pos.side = .Buy then "Sell" else "Buy" := by
    cases hs : pos.side <;> simp [RESTClient.posted, FullOrder.toJson, textAt, Json.find?, closeOrder, hs,
      Side.name]
  unfold postedOf
  rw [hside]
  simp only [textAt, hqty, Fixed.read_text]
  rfl

/-- Then the order closes the position, and only then. -/
theorem posted_closes_iff (hformat : FormatsFixed formatDouble) :
    some (postedOf (client.posted formatDouble (closeOrder pos))) = closing category pos ↔
      CarriedOver category pos ∧ SizeFits client pos := by
  obtain ⟨t, hdecimals, hnear, hposted⟩ := postedOf_closeOrder hformat client pos
  have hsize : t.value = pos.size ↔ SizeFits client pos := by
    constructor
    · intro heq
      rw [SizeFits, ← hdecimals, ← heq]
      exact t.hasDecimals
    · intro hfits
      rw [SizeFits, ← hdecimals] at hfits
      exact t.hasDecimals.eq_of_near hfits (hnear.trans_lt (by norm_num))
  have hlinear : "linear" = category.name ↔ category = .linear := by cases category <;> simp [Category.name]
  rw [hposted, closing, CarriedOver]
  cases hs : pos.side <;>
    simp [Side.opposite, Side.name, Position.leg, hlinear, hsize, and_assoc, eq_comm (a := (0 : ℚ))]

/-! ## All of them -/

/-- The positions that are not empty, each with the number of its order. -/
def nonEmpty (n : ℕ) (positions : List Position) : List (Position × ℕ) :=
  (positions.filter fun pos => !pos.zeroSize).zipIdx n

theorem nonEmpty_cons_zero (h : pos.zeroSize = true) : nonEmpty n (pos :: positions) = nonEmpty n positions := by
  simp [nonEmpty, h]

theorem nonEmpty_cons (h : pos.zeroSize = false) :
    nonEmpty n (pos :: positions) = (pos, n) :: nonEmpty (n + 1) positions := by
  simp [nonEmpty, h, List.zipIdx_cons]

theorem closeEach_ok (h : closeEach formatDouble rest n positions = .ok bodies) :
    bodies = (nonEmpty n positions).map fun x => (rest x.2).posted formatDouble (closeOrder x.1) := by
  induction positions generalizing n bodies with
  | nil => cases h; rfl
  | cons pos positions ih =>
    cases hzero : pos.zeroSize with
    | true =>
      simp only [closeEach, hzero, if_true] at h
      rw [nonEmpty_cons_zero hzero, ih h]
    | false =>
      simp only [closeEach, hzero, Bool.false_eq_true, if_false] at h
      rw [nonEmpty_cons hzero]
      split at h
      · cases h
      · cases hrest : closeEach formatDouble rest (n + 1) positions with
        | error e => rw [hrest] at h; cases h
        | ok bodies' =>
          rw [hrest] at h
          cases h
          rw [ih hrest, List.map_cons]

theorem held_cons : held category (pos :: positions) leg =
    (if pos.leg category = leg then signed pos.side.name pos.size else 0) + held category positions leg := by
  by_cases h : pos.leg category = leg <;> simp [held, h]

theorem traded_cons : traded (body :: bodies) leg =
    (if (postedOf body).leg = leg then signed (postedOf body).side (postedOf body).qty else 0) +
      traded bodies leg := by
  by_cases h : (postedOf body).leg = leg <;> simp [traded, h]

theorem signed_of_zeroSize (h : pos.zeroSize = true) : signed pos.side.name pos.size = 0 := by
  rw [pos.zeroSize_iff.1 h]
  simp [signed]

/-- The order takes away what is held. -/
theorem signed_of_closing {p : Posted} (h : some p = closing category pos) :
    p.leg = pos.leg category ∧ signed pos.side.name pos.size + signed p.side p.qty = 0 := by
  obtain ⟨side, hside, rfl⟩ := Option.map_eq_some_iff.1 h.symm
  refine ⟨rfl, ?_⟩
  cases hs : pos.side <;> rw [hs] at hside <;> cases hside <;> simp [signed, Side.name]

/-- Orders that each close their position leave nothing. -/
theorem flat_of_closing (h : ∀ x ∈ nonEmpty n positions,
      some (postedOf ((rest x.2).posted formatDouble (closeOrder x.1))) = closing category x.1) :
    held category positions leg +
      traded ((nonEmpty n positions).map fun x => (rest x.2).posted formatDouble (closeOrder x.1)) leg = 0 := by
  induction positions generalizing n with
  | nil => simp [held, traded, nonEmpty]
  | cons pos positions ih =>
    cases hzero : pos.zeroSize with
    | true =>
      rw [nonEmpty_cons_zero hzero] at h ⊢
      rw [held_cons, signed_of_zeroSize hzero, ite_self, zero_add]
      exact ih h
    | false =>
      rw [nonEmpty_cons hzero] at h ⊢
      obtain ⟨hleg, hsum⟩ := signed_of_closing (h (pos, n) List.mem_cons_self)
      have hrest := ih fun x hx => h x (List.mem_cons_of_mem _ hx)
      rw [List.map_cons, held_cons, traded_cons, hleg]
      split
      · linarith
      · linarith

/-- Where the orders are what should be posted, in whatever order, each is what its own position wants: a
size that was cut is not the size of another one with as many decimals or more. -/
theorem closing_of_perm (hformat : FormatsFixed formatDouble)
    (h : ((nonEmpty n positions).map fun x => some (postedOf ((rest x.2).posted formatDouble (closeOrder x.1)))).Perm
      ((nonEmpty n positions).map fun x => closing category x.1)) :
    ∀ x ∈ nonEmpty n positions,
      some (postedOf ((rest x.2).posted formatDouble (closeOrder x.1))) = closing category x.1 := by
  refine eq_of_perm_of_rank (fun x => decimalPlacesFromStep ((rest x.2).steps (closeOrder x.1)).2) rfl h ?_
  rintro ⟨pos, i⟩ - ⟨pos', j⟩ - hrank heq
  dsimp only at hrank heq ⊢
  obtain ⟨t, hdecimals, -, hposted⟩ := postedOf_closeOrder hformat (rest j) pos'
  rw [hposted] at heq
  obtain ⟨side, hside, hp⟩ := Option.map_eq_some_iff.1 heq.symm
  rw [Posted.mk.injEq] at hp
  obtain ⟨hleg, -, hqty⟩ := hp
  refine (posted_closes_iff hformat).2 ⟨⟨?_, ?_, ?_⟩, ?_⟩
  · have hcat : category.name = "linear" := congrArg Leg.category hleg
    cases category <;> first | rfl | exact absurd hcat (by decide)
  · have hidx : (pos.positionIdx : ℚ) = 0 := congrArg Leg.positionIdx hleg
    exact_mod_cast hidx
  · rintro hnone
    rw [hnone] at hside
    cases hside
  · rw [SizeFits, hqty]
    exact t.hasDecimals.mono (hdecimals.trans_le hrank)

theorem closes_iff (hformat : FormatsFixed formatDouble) :
    Closes category positions
        ((nonEmpty 0 positions).map fun x => (rest x.2).posted formatDouble (closeOrder x.1)) ↔
      ∀ x ∈ nonEmpty 0 positions, CarriedOver category x.1 ∧ SizeFits (rest x.2) x.1 := by
  have hwanted : (nonEmpty 0 positions).map (fun x => closing category x.1) =
      (positions.filter fun pos => !pos.zeroSize).map (closing category) := by
    rw [nonEmpty, ← Function.comp_def, ← List.map_map, List.zipIdx_map_fst]
  constructor
  · intro h x hx
    have hperm := h.one_each
    rw [List.map_map, ← hwanted] at hperm
    exact (posted_closes_iff hformat).1 (closing_of_perm hformat hperm x hx)
  · intro h
    have hall : ∀ x ∈ nonEmpty 0 positions,
        some (postedOf ((rest x.2).posted formatDouble (closeOrder x.1))) = closing category x.1 :=
      fun x hx => (posted_closes_iff hformat).2 (h x hx)
    refine ⟨?_, fun leg => flat_of_closing hall⟩
    rw [List.map_map, ← hwanted]
    exact .of_eq (List.map_congr_left hall)

end Close

/-! ## Two accounts -/

/-- A client whose orders are accepted. -/
def accepting : RESTClient where
  lib := ⟨fun _ => some (.obj [("retCode", .num 0), ("retMsg", .str "OK")]), fun _ _ => ""⟩
  send := fun _ _ => .ok (.ok "\x7b\"retCode\":0,\"retMsg\":\"OK\"\x7d")
  findPricePrecisionsForInstrument := fun _ _ => .ok (some (1 / 10, 1 / 1000))
  execution := fun _ => .error .type
  orders := fun _ => .error .type

def longPosition : Position := ⟨0, "BTCUSD", .Buy, 1, false, by simp⟩

/-- The venue lists the long position, whatever it is asked for. -/
def oneLong : ℕ → PositionsRequest → Except Exception (Page Position) := fun _ _ => .ok ⟨[longPosition], ""⟩

/-- The body of the order for it. -/
def longBody : Json :=
  accepting.posted (fun decimals value => (nearestFixed decimals value).text) (closeOrder longPosition)

def smallPosition : Position := ⟨0, "BTCUSD", .Buy, 2 / 5, false, by simp⟩

/-- A spot listing has no quantity step. With its 0 in the cache nothing of a position of 0.4 is closed. -/
example : (postedOf (({ accepting with
    findPricePrecisionsForInstrument := fun _ _ => .ok (some (1 / 10, 0)) } : RESTClient).posted
      (fun decimals value => (nearestFixed decimals value).text) (closeOrder smallPosition))).qty = 0 := by
  decide +kernel

end BybitApi.Rest
