import BybitApi.Json
import BybitApi.Lib.Decimal
import BybitApi.Rest.Client
import Mathlib.Order.Bounds.Defs

/-!
# The decimals of a step

`decimalPlacesFromStep` counts the decimals of an instrument's step, and an order's prices and quantity
are written with so many. The count is the least one that suffices, except for the smallest step that it
has decimals for: at 10⁻¹² the tolerance of the loop is as large as the step.

The arithmetic is exact. `formatDouble` is `stonky/utils`.
-/

namespace BybitApi.Rest

open Lib

/-- The condition of the loop: the tolerance does not reach the nearest integer. -/
def OffInteger (scaled : ℚ) : Prop := |scaled - llround scaled| > scaled * (1 / 10 ^ 9) + 1 / 10 ^ 12

instance (scaled : ℚ) : Decidable (OffInteger scaled) := inferInstanceAs (Decidable (_ < _))

/-- The loop, with so many places left to the cap. -/
def placesLoop : ℕ → ℚ → ℕ → ℕ
  | 0, _, places => places
  | left + 1, scaled, places => if OffInteger scaled then placesLoop left (scaled * 10) (places + 1) else places

def decimalPlacesFromStep (step : ℚ) : ℕ := if step ≤ 0 then 0 else placesLoop 12 step 0

section Loop

variable {step scaled : ℚ} {left places k m n p q : ℕ}

/-- How the loop ends: below the cap only where the number is near an integer, and it was not before. -/
structure LoopEnds (step : ℚ) (p : ℕ) : Prop where
  le_cap : p ≤ 12
  off : ∀ q < p, OffInteger (step * 10 ^ q)
  near : p < 12 → ¬ OffInteger (step * 10 ^ p)

/-- The invariant: so far no number was near an integer. -/
theorem placesLoop_ends (hcap : places + left = 12) (hoff : ∀ q < places, OffInteger (step * 10 ^ q)) :
    LoopEnds step (placesLoop left (step * 10 ^ places) places) := by
  induction left generalizing places with
  | zero => exact ⟨by rw [placesLoop]; omega, hoff, fun hlt => absurd hlt (by rw [placesLoop]; omega)⟩
  | succ left ih =>
    rw [placesLoop]
    split
    next hnow =>
      rw [mul_assoc, ← pow_succ]
      refine ih (by omega) fun q hq => ?_
      rcases (Nat.lt_succ_iff.1 hq).eq_or_lt with rfl | hlt
      · exact hnow
      · exact hoff q hlt
    next hnear => exact ⟨by omega, hoff, fun _ => hnear⟩

theorem decimalPlaces_ends (hstep : 0 < step) : LoopEnds step (decimalPlacesFromStep step) := by
  have hends : LoopEnds step (placesLoop 12 (step * 10 ^ 0) 0) :=
    placesLoop_ends rfl fun q hq => absurd hq (Nat.not_lt_zero q)
  rw [decimalPlacesFromStep, if_neg (not_le.2 hstep)]
  rwa [pow_zero, mul_one] at hends

/-! ## What the tolerance lets pass -/

/-- An integer passes. -/
theorem not_offInteger_of_int (hpos : 0 < scaled) {z : ℤ} (hz : scaled = z) : ¬ OffInteger scaled := by
  have hle := abs_sub_llround_le scaled z
  rw [hz, sub_self, abs_zero, ← hz] at hle
  unfold OffInteger
  have htol : 0 < scaled * (1 / 10 ^ 9) + 1 / 10 ^ 12 := by positivity
  exact not_lt.2 (hle.trans htol.le)

/-- A fraction over a power of ten is as many units away from an integer as its numerator says. -/
theorem dist_mul_pow (hscaled : scaled = k / 10 ^ m) (z : ℤ) :
    |scaled - z| * 10 ^ m = (|(k : ℤ) - z * 10 ^ m| : ℤ) := by
  have hpow : (0 : ℚ) < 10 ^ m := by positivity
  rw [← abs_of_pos hpow, ← abs_mul, sub_mul, hscaled, div_mul_cancel₀ _ hpow.ne']
  push_cast
  rfl

/-- Less than 10⁸ units of 10⁻¹² are two units at least away from every integer, unless they are one. -/
theorem two_le_dist (hk : k < 10 ^ 8) (hzero : k ≠ 0) (hone : k ≠ 1) (z : ℤ) : 2 ≤ |(k : ℤ) - z * 10 ^ 12| := by
  rcases le_or_gt z 0 with hz | hz
  · refine le_trans ?_ (le_abs_self _)
    omega
  · refine le_trans ?_ (neg_le_abs _)
    omega

/-- Nothing else passes, but for one unit of 10⁻¹². -/
theorem offInteger_of_not_int (hscaled : scaled = k / 10 ^ m) (hm : m ≤ 12) (hk : k < 10 ^ 8)
    (hint : ∀ z : ℤ, scaled ≠ z) (hone : m = 12 → k ≠ 1) : OffInteger scaled := by
  have hpow : (0 : ℚ) < 10 ^ m := by positivity
  have hzero : k ≠ 0 := by
    rintro rfl
    exact hint 0 (by simp [hscaled])
  have hsmall : (k : ℚ) / 10 ^ 9 < 1 / 10 := by
    have hk' : (k : ℚ) < 10 ^ 8 := by exact_mod_cast hk
    rw [div_lt_div_iff₀ (by positivity) (by positivity)]
    linarith
  -- Over the denominator, the tolerance is that of the units and what the absolute part adds.
  have htol : (scaled * (1 / 10 ^ 9) + 1 / 10 ^ 12) * 10 ^ m = k / 10 ^ 9 + 10 ^ m / 10 ^ 12 := by
    rw [hscaled]
    field_simp
  refine lt_of_mul_lt_mul_right ?_ hpow.le
  rw [htol, dist_mul_pow hscaled]
  rcases hm.lt_or_eq with hlt | rfl
  · have hfar : (1 : ℚ) ≤ (|(k : ℤ) - llround scaled * 10 ^ m| : ℤ) := by
      have hdiff : (k : ℤ) - llround scaled * 10 ^ m ≠ 0 := by
        intro hzero
        refine hint (llround scaled) (hscaled.trans ?_)
        rw [div_eq_iff hpow.ne']
        exact_mod_cast sub_eq_zero.1 hzero
      exact_mod_cast Int.one_le_abs hdiff
    have hpart : (10 : ℚ) ^ m / 10 ^ 12 ≤ 1 / 10 := by
      have hle : (10 : ℚ) ^ m ≤ 10 ^ 11 := pow_le_pow_right₀ (by norm_num) (by omega)
      rw [div_le_div_iff₀ (by positivity) (by positivity)]
      linarith
    exact lt_of_lt_of_le (by linarith) hfar
  · have hfar : (2 : ℚ) ≤ (|(k : ℤ) - llround scaled * 10 ^ 12| : ℤ) := by
      exact_mod_cast two_le_dist hk hzero (hone rfl) (llround scaled)
    rw [div_self (by positivity)]
    exact lt_of_lt_of_le (by linarith) hfar

/-- The step, moved by some of its decimals. -/
theorem step_mul_pow (hstep : step = k / 10 ^ n) (hq : q ≤ n) : step * 10 ^ q = k / 10 ^ (n - q) := by
  have hpow : ∀ m : ℕ, (10 : ℚ) ^ m ≠ 0 := fun m => pow_ne_zero m (by norm_num)
  rw [hstep, div_mul_eq_mul_div, div_eq_div_iff (hpow n) (hpow _), mul_assoc, ← pow_add, Nat.add_sub_cancel' hq]

/-- **The count is the least that suffices**, for every step but one. -/
theorem decimalPlaces_isLeast (hn : n ≤ 12) (hpos : 1 ≤ k) (hk : k < 10 ^ 8) (hstep : step = k / 10 ^ n)
    (hne : step ≠ 1 / 10 ^ 12) : IsLeast {p | HasDecimals step p} (decimalPlacesFromStep step) := by
  have hstep_pos : 0 < step := by
    rw [hstep]
    have hk' : (0 : ℚ) < k := by exact_mod_cast hpos
    positivity
  have hends := decimalPlaces_ends hstep_pos
  have hpass : ∀ q, HasDecimals step q → ¬ OffInteger (step * 10 ^ q) := by
    rintro q ⟨z, hz⟩
    exact not_offInteger_of_int (by positivity) hz
  have hall : HasDecimals step n := ⟨k, by rw [step_mul_pow hstep le_rfl]; simp⟩
  have hle : decimalPlacesFromStep step ≤ n := by
    by_contra hlt
    exact hpass n hall (hends.off n (not_le.1 hlt))
  refine ⟨?_, ?_⟩
  · by_contra hnot
    have hlt : decimalPlacesFromStep step < n := by
      refine lt_of_le_of_ne hle ?_
      intro heq
      exact hnot (heq ▸ hall)
    refine hends.near (by omega) (offInteger_of_not_int (step_mul_pow hstep hle) (by omega) hk ?_ ?_)
    · intro z hz
      exact hnot ⟨z, hz⟩
    · rintro hfull rfl
      have hall12 : n = 12 := by omega
      exact hne (by rw [hstep, hall12, Nat.cast_one])
  · intro q hq
    by_contra hlt
    exact hpass q hq (hends.off q (not_le.1 hlt))

/-- At one unit of 10⁻¹² the loop stops at once. -/
theorem decimalPlaces_smallest : decimalPlacesFromStep (1 / 10 ^ 12) = 0 := by
  decide +kernel

theorem not_hasDecimals_smallest : ¬ HasDecimals (1 / 10 ^ 12) (decimalPlacesFromStep (1 / 10 ^ 12)) := by
  rintro ⟨z, hz⟩
  rw [decimalPlaces_smallest, pow_zero, mul_one, div_eq_iff (by positivity)] at hz
  have hunit : (1 : ℤ) = z * 10 ^ 12 := by exact_mod_cast hz
  omega

end Loop

/-! ## An order as JSON -/

inductive TriggerPriceType where
  | LastPrice | IndexPrice | MarkPrice | UNKNOWN
  deriving DecidableEq

/-- An order with the fields that only its rendering reads. -/
structure FullOrder extends Order where
  takeProfit : ℚ := 0
  stopLoss : ℚ := 0
  tpTriggerBy : TriggerPriceType := .LastPrice
  slTriggerBy : TriggerPriceType := .LastPrice
  closeOnTrigger : Bool := false

def Category.name : Category → String
  | spot => "spot"
  | linear => "linear"
  | inverse => "inverse"
  | option => "option"

def Side.name : Side → String
  | Buy => "Buy"
  | Sell => "Sell"
  | None => "None"

def OrderType.name : OrderType → String
  | Limit => "Limit"
  | Market => "Market"

def TimeInForce.name : TimeInForce → String
  | GTC => "GTC"
  | IOC => "IOC"
  | FOK => "FOK"
  | PostOnly => "PostOnly"

/-- A member that is set under a condition. -/
def setIf (condition : Prop) [Decidable condition] (key : String) (value : Json) : List (String × Json) :=
  if condition then [(key, value)] else []

section ToJson

-- `formatDouble decimals value`.
variable (formatDouble : ℕ → ℚ → String)

/-- `Order::toJson`. -/
def FullOrder.toJson (order : FullOrder) : Json :=
  let pricePrecision := decimalPlacesFromStep order.priceStep
  .obj ([("category", .str order.category.name), ("side", .str order.side.name), ("symbol", .str order.symbol),
      ("orderType", .str order.orderType.name), ("timeInForce", .str order.timeInForce.name),
      ("reduceOnly", .bool order.reduceOnly), ("closeOnTrigger", .bool order.closeOnTrigger),
      ("positionIdx", .num order.positionIdx)] ++
    (setIf (order.orderLinkId ≠ "") "orderLinkId" (.str order.orderLinkId) ++
    ([("qty", .str (formatDouble (decimalPlacesFromStep order.qtyStep) order.qty))] ++
    (setIf (order.orderType = .Limit) "price" (.str (formatDouble pricePrecision order.price)) ++
    (setIf (order.takeProfit ≠ 0) "takeProfit" (.str (formatDouble pricePrecision order.takeProfit)) ++
    (setIf (order.stopLoss ≠ 0) "stopLoss" (.str (formatDouble pricePrecision order.stopLoss)) ++
    (setIf (order.tpTriggerBy = .LastPrice) "tpTriggerBy" (.str "LastPrice") ++
    setIf (order.slTriggerBy = .LastPrice) "slTriggerBy" (.str "LastPrice"))))))))

section Members

variable {key key' : String} {value v : Json} {members members' : List (String × Json)} {condition : Prop}
  [Decidable condition]

theorem find_of_head (h : Json.find? key (.obj members) = some v) :
    Json.find? key (.obj (members ++ members')) = some v := by
  obtain ⟨row, hrow, rfl⟩ := Option.map_eq_some_iff.1 h
  rw [Json.find?, List.find?_append, hrow]
  rfl

theorem find_of_tail (h : ∀ m ∈ members, m.1 ≠ key) :
    Json.find? key (.obj (members ++ members')) = Json.find? key (.obj members') := by
  have hnone : members.find? (fun m => m.1 = key) = none :=
    List.find?_eq_none.2 fun m hm => by simpa using h m hm
  rw [Json.find?, List.find?_append, hnone, Option.none_or]
  rfl

theorem find_setIf (h : condition) : Json.find? key (.obj (setIf condition key value)) = some value := by
  rw [setIf, if_pos h]
  simp [Json.find?]

theorem ne_of_mem_setIf (h : key ≠ key') : ∀ m ∈ setIf condition key value, m.1 ≠ key' := by
  intro m hm
  unfold setIf at hm
  split at hm
  · obtain rfl := List.mem_singleton.1 hm
    exact h
  · cases hm

end Members

variable {formatDouble} {order : FullOrder}

theorem find_qty (order : FullOrder) : (order.toJson formatDouble).find? "qty" =
    some (.str (formatDouble (decimalPlacesFromStep order.qtyStep) order.qty)) := by
  unfold FullOrder.toJson
  rw [find_of_tail (by simp), find_of_tail (ne_of_mem_setIf (by decide))]
  exact find_of_head rfl

theorem find_price (h : order.orderType = .Limit) : (order.toJson formatDouble).find? "price" =
    some (.str (formatDouble (decimalPlacesFromStep order.priceStep) order.price)) := by
  unfold FullOrder.toJson
  rw [find_of_tail (by simp), find_of_tail (ne_of_mem_setIf (by decide)), find_of_tail (by simp)]
  exact find_of_head (find_setIf h)

theorem find_takeProfit (h : order.takeProfit ≠ 0) : (order.toJson formatDouble).find? "takeProfit" =
    some (.str (formatDouble (decimalPlacesFromStep order.priceStep) order.takeProfit)) := by
  unfold FullOrder.toJson
  rw [find_of_tail (by simp), find_of_tail (ne_of_mem_setIf (by decide)), find_of_tail (by simp),
    find_of_tail (ne_of_mem_setIf (by decide))]
  exact find_of_head (find_setIf h)

theorem find_stopLoss (h : order.stopLoss ≠ 0) : (order.toJson formatDouble).find? "stopLoss" =
    some (.str (formatDouble (decimalPlacesFromStep order.priceStep) order.stopLoss)) := by
  unfold FullOrder.toJson
  rw [find_of_tail (by simp), find_of_tail (ne_of_mem_setIf (by decide)), find_of_tail (by simp),
    find_of_tail (ne_of_mem_setIf (by decide)), find_of_tail (ne_of_mem_setIf (by decide))]
  exact find_of_head (find_setIf h)

end ToJson

/-! ## Serialization without loss -/

/-- What is relied on of `formatDouble(decimals, value)`: a fixed-point text with so many decimals, of a
number that is nearest. -/
structure FormatsFixed (formatDouble : ℕ → ℚ → String) : Prop where
  nearest : ∀ decimals value, ∃ t : Fixed, formatDouble decimals value = t.text ∧ t.decimals = decimals ∧
    |t.value - value| * 10 ^ decimals ≤ 1 / 2

/-- The JSON has this number under the key, written with so many decimals. -/
def Writes (json : Json) (key : String) (value : ℚ) (decimals : ℕ) : Prop :=
  ∃ t : Fixed, json.find? key = some (.str t.text) ∧ t.value = value ∧ t.decimals = decimals

def IsMultiple (step value : ℚ) : Prop := ∃ z : ℤ, value = z * step

/-- What a step should give: the least number of decimals that it can be written with, and with these every
price and every quantity that is a multiple of it is written without loss. -/
structure Serialized (formatDouble : ℕ → ℚ → String) (step : ℚ) : Prop where
  least : IsLeast {p : ℕ | ∃ z : ℤ, step * 10 ^ p = z} (decimalPlacesFromStep step)
  needed : ∀ t : Fixed, t.value = step → decimalPlacesFromStep step ≤ t.decimals
  qty : ∀ order : FullOrder, order.qtyStep = step → IsMultiple step order.qty →
    Writes (order.toJson formatDouble) "qty" order.qty (decimalPlacesFromStep step)
  price : ∀ order : FullOrder, order.priceStep = step → order.orderType = .Limit → IsMultiple step order.price →
    Writes (order.toJson formatDouble) "price" order.price (decimalPlacesFromStep step)
  takeProfit : ∀ order : FullOrder, order.priceStep = step → order.takeProfit ≠ 0 →
    IsMultiple step order.takeProfit →
    Writes (order.toJson formatDouble) "takeProfit" order.takeProfit (decimalPlacesFromStep step)
  stopLoss : ∀ order : FullOrder, order.priceStep = step → order.stopLoss ≠ 0 → IsMultiple step order.stopLoss →
    Writes (order.toJson formatDouble) "stopLoss" order.stopLoss (decimalPlacesFromStep step)

section Serialized

variable {formatDouble : ℕ → ℚ → String} {step value : ℚ} {k n p : ℕ}

/-- A multiple of the step is written as it is, with as many decimals as the step has. -/
theorem FormatsFixed.exact (hformat : FormatsFixed formatDouble) (hstep : HasDecimals step p)
    (hvalue : IsMultiple step value) :
    ∃ t : Fixed, formatDouble p value = t.text ∧ t.value = value ∧ t.decimals = p := by
  obtain ⟨t, htext, rfl, hnear⟩ := hformat.nearest p value
  obtain ⟨z, rfl⟩ := hvalue
  refine ⟨t, htext, t.hasDecimals.eq_of_near (hstep.mul_int z) ?_, rfl⟩
  exact hnear.trans_lt (by norm_num)

theorem serialized_of_isLeast (hformat : FormatsFixed formatDouble)
    (hleast : IsLeast {p | HasDecimals step p} (decimalPlacesFromStep step)) : Serialized formatDouble step where
  least := hleast
  needed := by
    rintro t rfl
    exact hleast.2 t.hasDecimals
  qty := by
    rintro order rfl hmultiple
    obtain ⟨t, htext, hvalue, hdecimals⟩ := hformat.exact hleast.1 hmultiple
    exact ⟨t, htext ▸ find_qty order, hvalue, hdecimals⟩
  price := by
    rintro order rfl hlimit hmultiple
    obtain ⟨t, htext, hvalue, hdecimals⟩ := hformat.exact hleast.1 hmultiple
    exact ⟨t, htext ▸ find_price hlimit, hvalue, hdecimals⟩
  takeProfit := by
    rintro order rfl hset hmultiple
    obtain ⟨t, htext, hvalue, hdecimals⟩ := hformat.exact hleast.1 hmultiple
    exact ⟨t, htext ▸ find_takeProfit hset, hvalue, hdecimals⟩
  stopLoss := by
    rintro order rfl hset hmultiple
    obtain ⟨t, htext, hvalue, hdecimals⟩ := hformat.exact hleast.1 hmultiple
    exact ⟨t, htext ▸ find_stopLoss hset, hvalue, hdecimals⟩

/-- **The decimals of a step** are right for every step but 10⁻¹². -/
theorem serialized_iff (hformat : FormatsFixed formatDouble) (hn : n ≤ 12) (hpos : 1 ≤ k) (hk : k < 10 ^ 8) :
    Serialized formatDouble (k / 10 ^ n) ↔ (k / 10 ^ n : ℚ) ≠ 1 / 10 ^ 12 := by
  constructor
  · intro h heq
    obtain ⟨z, hz⟩ := h.least.1
    rw [heq] at hz
    exact not_hasDecimals_smallest ⟨z, hz⟩
  · intro hne
    exact serialized_of_isLeast hformat (decimalPlaces_isLeast hn hpos hk rfl hne)

theorem formatsFixed_nearest : FormatsFixed fun decimals value => (nearestFixed decimals value).text where
  nearest := fun decimals value => ⟨nearestFixed decimals value, rfl, rfl, nearestFixed_near decimals value⟩

theorem serialized_twentyFive :
    Serialized (fun decimals value => (nearestFixed decimals value).text) ((25 : ℕ) / 10 ^ 6) :=
  (serialized_iff formatsFixed_nearest (by decide) (by decide) (by decide)).2 (by norm_num)

/-- A buy at five steps of 10⁻¹². -/
def smallestStepOrder : FullOrder where
  category := .linear
  symbol := "BTCUSDT"
  side := .Buy
  orderType := .Limit
  qty := 1
  price := 5 / 10 ^ 12
  timeInForce := .GTC
  positionIdx := 0
  orderLinkId := ""
  reduceOnly := false
  priceStep := 1 / 10 ^ 12
  qtyStep := 1

/-- The step has twelve decimals, none are counted, and the price is written as 0. -/
theorem smallestStep_loses_price :
    ¬ IsLeast {p : ℕ | ∃ z : ℤ, (1 / 10 ^ 12 : ℚ) * 10 ^ p = z} (decimalPlacesFromStep (1 / 10 ^ 12)) ∧
      decimalPlacesFromStep (1 / 10 ^ 12) = 0 ∧
      (smallestStepOrder.toJson fun decimals value => (nearestFixed decimals value).text).find? "price" =
        some (.str "0") := by
  refine ⟨?_, decimalPlaces_smallest, ?_⟩
  · intro h
    exact not_hasDecimals_smallest h.1
  · rw [find_price rfl]
    have htext : (nearestFixed (decimalPlacesFromStep (1 / 10 ^ 12)) (5 / 10 ^ 12)).text = "0" := by decide +kernel
    exact congrArg (fun text => some (Json.str text)) htext

end Serialized

end BybitApi.Rest
