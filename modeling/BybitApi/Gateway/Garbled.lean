import BybitApi.Gateway.Unknown

/-!
# Garbled acknowledgements

What the gateway makes of an answer to an order that says nothing about the order. The REST layer
types none of these answers: a missing `retCode` counts as success, and an exception of the JSON
library goes to the text patterns like any other.
-/

namespace BybitApi.Gateway

open Lib Rest

/-- An answer without an integer `retCode`: no JSON, or no object, or `retCode` is missing or of
another type. -/
def Garbled (lib : JsonLibrary) (body : String) : Prop :=
  ∀ json, lib.parse body = some json → ∀ code : ℤ, json.find? "retCode" ≠ some (.num code)

/-- A value that is no integer, but that is read as this code. -/
inductive TakenFor : Json → ℤ → Prop where
  | bool : TakenFor (.bool true) 1
  | fraction (q : ℚ) (h : ∀ code : ℤ, q ≠ code) : TakenFor (.num q) (Json.toSigned UInt32.size q)

/-- The patterns of an unknown outcome are in the text of the exception that decoding the body
raises: the library's own, or that of a `retCode` that is taken for a code other than 0. -/
inductive SaysUnknown (lib : JsonLibrary) (body : String) : Prop where
  | parseError (hparse : lib.parse body = none)
      (text : isAmbiguousOutcomeReason (shown (lib.what body .parse)) = true)
  | typeError (json : Json) (e : JsonError) (hparse : lib.parse body = some json)
      (hjson : OrderId.fromJson json = .error e)
      (text : isAmbiguousOutcomeReason (shown (lib.what body e)) = true)
  | taken (json retCode : Json) (orderId : OrderId) (hparse : lib.parse body = some json)
      (hfind : json.find? "retCode" = some retCode) (htaken : TakenFor retCode orderId.retCode)
      (hjson : OrderId.fromJson json = .ok orderId) (hcode : orderId.retCode ≠ 0)
      (text : isAmbiguousOutcomeReason (shown (apiErrorMessage orderId.retCode orderId.retMsg)) = true)

/-- The caller is told neither that the order was accepted nor that it was rejected. -/
def Ending.IsUnknown {α : Type} (ending : Ending α) : Prop := ∃ e, ending = .rethrown e

section Answer

variable {lib : JsonLibrary} {body : String} {json : Json} {e : Exception} {α : Type}

theorem isUnknown_refused : (Ending.refused e : Ending α).IsUnknown ↔
    (∃ message, e = .transportError message) ∨ isAmbiguousOutcomeReason e.what = true := by
  have hother : (∀ message, e ≠ .transportError message) → ((Ending.refused e : Ending α).IsUnknown ↔
      isAmbiguousOutcomeReason e.what = true) := fun hne => by
    have heq : (Ending.refused e : Ending α) = if isAmbiguousOutcomeReason e.what then .rethrown e
        else .thrown (.gatewayError (classifyRejectReason e.what) e.what) := by
      cases e with
      | transportError message => exact absurd rfl (hne message)
      | _ => rfl
    rw [heq, Ending.IsUnknown]
    by_cases h : isAmbiguousOutcomeReason e.what = true <;> simp [h]
  cases e with
  | transportError message => exact ⟨fun _ => Or.inl ⟨message, rfl⟩, fun _ => ⟨_, rfl⟩⟩
  | _ => simpa using hother fun _ h => by cases h

theorem message_apiError (retCode : ℤ) (retMsg : String) :
    (apiError retCode retMsg).message = apiErrorMessage retCode retMsg := by
  unfold apiError
  split
  · rfl
  · split <;> rfl

theorem apiError_ne_transportError (retCode : ℤ) (retMsg message : String) :
    apiError retCode retMsg ≠ .transportError message := by
  unfold apiError
  split
  · exact fun h => by cases h
  · split <;> exact fun h => by cases h

theorem answer_ok_body : answer lib OrderId.fromJson OrderId.toResponse (.ok (.ok body)) =
    handleBybitResponse lib OrderId.fromJson OrderId.toResponse (.ok body) := rfl

theorem bind_eq_ok {ε β γ : Type} {x : Except ε β} {f : β → Except ε γ} {c : γ} :
    (x >>= f) = .ok c ↔ ∃ b, x = .ok b ∧ f b = .ok c := by
  cases x with
  | error e => simp [bind, Except.bind]
  | ok b => simp [bind, Except.bind]

theorem retCode_of_fromJson {orderId : OrderId} (h : OrderId.fromJson json = .ok orderId) :
    json.readValue Json.getInt "retCode" 0 = .ok orderId.retCode := by
  obtain ⟨response, hresponse, h⟩ := bind_eq_ok.1 h
  obtain ⟨id, -, h⟩ := bind_eq_ok.1 h
  obtain ⟨linkId, -, h⟩ := bind_eq_ok.1 h
  obtain rfl := Except.ok.inj h
  obtain ⟨retCode, hcode, h⟩ := bind_eq_ok.1 hresponse
  obtain ⟨retMsg, -, h⟩ := bind_eq_ok.1 h
  obtain ⟨time, -, h⟩ := bind_eq_ok.1 h
  obtain rfl := Except.ok.inj h
  exact hcode

/-- A garbled answer has a code other than 0 only where `retCode` is taken for one. -/
theorem Garbled.taken {orderId : OrderId} (h : Garbled lib body) (hparse : lib.parse body = some json)
    (hjson : OrderId.fromJson json = .ok orderId) (hcode : orderId.retCode ≠ 0) :
    ∃ retCode, json.find? "retCode" = some retCode ∧ TakenFor retCode orderId.retCode := by
  have hread := retCode_of_fromJson hjson
  cases hfind : json.find? "retCode" with
  | none =>
    rw [Json.readValue_none hfind] at hread
    exact absurd (Except.ok.inj hread).symm hcode
  | some v =>
    rw [Json.readValue_some hfind] at hread
    refine ⟨v, rfl, ?_⟩
    cases v with
    | num q =>
      simp only [Json.getInt, Except.ok.injEq] at hread
      rw [← hread]
      exact .fraction q fun code hq => h json hparse code (by rw [hfind, hq])
    | bool b =>
      simp only [Json.getInt, Except.ok.injEq] at hread
      cases b with
      | true => rw [← hread]; exact .bool
      | false => exact absurd hread.symm hcode
    | _ => cases hread

/-- **A garbled answer is an exception that says the outcome is unknown** in the cases of
`SaysUnknown`. -/
theorem Garbled.saysUnknown_iff (hgarbled : Garbled lib body) : SaysUnknown lib body ↔
    ∃ e, answer lib OrderId.fromJson OrderId.toResponse (.ok (.ok body)) = .error e ∧
      (Ending.refused e : Ending α).IsUnknown := by
  rw [answer_ok_body]
  constructor
  · intro h
    cases h with
    | parseError hparse text =>
      refine ⟨.json (lib.what body .parse), ?_, isUnknown_refused.2 (Or.inr text)⟩
      simp [handleBybitResponse, HttpResponse.ok, hparse]
    | typeError json e hparse hjson text =>
      refine ⟨.json (lib.what body e), ?_, isUnknown_refused.2 (Or.inr text)⟩
      simp [handleBybitResponse, HttpResponse.ok, hparse, hjson]
    | taken json retCode orderId hparse hfind htaken hjson hcode text =>
      refine ⟨apiError orderId.retCode orderId.retMsg, ?_, isUnknown_refused.2 (Or.inr ?_)⟩
      · simp [handleBybitResponse, HttpResponse.ok, hparse, hjson, hcode]
      · rwa [Exception.what, message_apiError]
  · rintro ⟨e, h, hunknown⟩
    have htext := isUnknown_refused.1 hunknown
    unfold handleBybitResponse at h
    cases hparse : lib.parse body with
    | none =>
      simp only [HttpResponse.ok, hparse] at h
      cases h
      exact .parseError hparse (by simpa [Exception.what, Exception.message] using htext)
    | some json =>
      simp only [HttpResponse.ok, hparse] at h
      cases hjson : OrderId.fromJson json with
      | error e =>
        simp only [hjson] at h
        cases h
        exact .typeError json e hparse hjson (by simpa [Exception.what, Exception.message] using htext)
      | ok orderId =>
        simp only [hjson] at h
        split at h
        next hcode =>
          obtain rfl := Except.error.inj h
          obtain ⟨retCode, hfind, htaken⟩ := hgarbled.taken hparse hjson hcode
          have htext := htext.resolve_left (not_exists.2 (apiError_ne_transportError _ _))
          rw [Exception.what, message_apiError] at htext
          exact .taken json retCode orderId hparse hfind htaken hjson hcode htext
        · cases h

end Answer

namespace OrderOp

/-- The operations that send an order. -/
def isSubmit : OrderOp → Bool
  | submitPostOnlyLimit .. | submitReduceOnlyMarket .. => true
  | _ => false

variable {gw : ExecutionGateway} {op : OrderOp} {steps : ℚ × ℚ} {body : String}

theorem run_submit (hsubmit : op.isSubmit = true) (hgate : op.isGated = true → gw.isLive = true) :
    op.run gw = match op.restCall gw with
      | .ok _ => .returned none
      | .error e => .refused e := by
  cases hcall : op.restCall gw with
  | error e =>
    refine run_of_restCall_error hgate hcall fun hcancel => ?_
    cases op <;> simp_all [isSubmit, isCancel]
  | ok orderId =>
    cases op with
    | submitPostOnlyLimit =>
      simp only [restCall] at hcall
      simp [run, ExecutionGateway.submitPostOnlyLimit, ExecutionGateway.requireEventStream, hgate rfl, hcall,
        Ending.map]
    | submitReduceOnlyMarket =>
      simp only [restCall] at hcall
      simp [run, ExecutionGateway.submitReduceOnlyMarket, hcall, Ending.map]
    | _ => cases hsubmit

theorem restCall_submit (hsubmit : op.isSubmit = true)
    (hfound : gw.rest.findPricePrecisionsForInstrument .linear op.symbol = .ok (some steps)) :
    op.restCall gw = gw.rest.orderId (gw.rest.send 0 (op.request gw steps)) := by
  cases op with
  | submitPostOnlyLimit | submitReduceOnlyMarket => exact RESTClient.placeOrder_of_found hfound
  | _ => cases hsubmit

/-- **A garbled answer leaves the outcome unknown** exactly if the text it draws says so. -/
theorem garbled_unknown_iff (hsubmit : op.isSubmit = true) (hgate : op.isGated = true → gw.isLive = true)
    (hfound : gw.rest.findPricePrecisionsForInstrument .linear op.symbol = .ok (some steps))
    (hsend : gw.rest.send 0 (op.request gw steps) = .ok (.ok body)) (hgarbled : Garbled gw.rest.lib body) :
    (op.run gw).IsUnknown ↔ SaysUnknown gw.rest.lib body := by
  rw [run_submit hsubmit hgate, restCall_submit hsubmit hfound, hsend,
    hgarbled.saysUnknown_iff (α := Option Bool)]
  change Ending.IsUnknown (match answer gw.rest.lib OrderId.fromJson OrderId.toResponse (.ok (.ok body)) with
    | .ok _ => .returned none
    | .error e => .refused e) ↔ _
  cases answer gw.rest.lib OrderId.fromJson OrderId.toResponse (.ok (.ok body)) with
  | ok orderId => simp [Ending.IsUnknown]
  | error e => simp

/-! ## Two answers -/

/-- 10016.5 -/
def fraction : ℚ := ⟨20033, 2, by decide, by decide⟩

def fractionalAck : ExecutionGateway :=
  answering "\x7b\"retCode\":10016.5,\"retMsg\":\"\"\x7d" (.obj [("retCode", .num fraction), ("retMsg", .str "")])

/-- It is taken for 10016. -/
theorem garbled_unknown_fraction :
    ((submitReduceOnlyMarket "id" "BTCUSDT" .Sell 1).run fractionalAck).IsUnknown := by
  have hfraction : ∀ code : ℤ, fraction ≠ code := fun code h => by
    have hden := congrArg Rat.den h
    rw [Rat.den_intCast] at hden
    exact absurd hden (by decide)
  have hgarbled : Garbled fractionalAck.rest.lib "\x7b\"retCode\":10016.5,\"retMsg\":\"\"\x7d" := by
    intro json hparse code hfind
    cases hparse
    exact hfraction code (Json.num.inj (Option.some.inj hfind))
  exact (garbled_unknown_iff (by decide) (by decide) rfl rfl hgarbled).2
    (.taken _ _ _ rfl rfl (.fraction _ hfraction) rfl (by decide) (by decide))

/-- What the JSON library says of a body that ends too early. -/
def unexpectedEnd : String :=
  "[json.exception.parse_error.101] parse error at line 1, column 15: syntax error while parsing object - " ++
    "unexpected end of input; expected '\x7d'"

def truncatedAck : ExecutionGateway :=
  { answering "\x7b\"retMsg\":\"OK\"" .null with
    rest := { (answering "\x7b\"retMsg\":\"OK\"" .null).rest with
      lib := ⟨fun _ => none, fun _ _ => unexpectedEnd⟩ } }

/-- A truncated answer to an order is reported as a rejection. -/
theorem truncated_ack_rejected : ¬ ∀ (gw : ExecutionGateway) (op : OrderOp) (steps : ℚ × ℚ) (body : String),
    op.isSubmit = true → (op.isGated = true → gw.isLive = true) →
    gw.rest.findPricePrecisionsForInstrument .linear op.symbol = .ok (some steps) →
    gw.rest.send 0 (op.request gw steps) = .ok (.ok body) → Garbled gw.rest.lib body → (op.run gw).IsUnknown := by
  intro h
  have hunknown := h truncatedAck (submitPostOnlyLimit "id" "BTCUSDT" .Buy 1 50000 false) _ _ rfl (fun _ => rfl)
    rfl rfl (fun json hparse => by cases hparse)
  have hrun : (submitPostOnlyLimit "id" "BTCUSDT" .Buy 1 50000 false).run truncatedAck =
      .refused (.json unexpectedEnd) :=
    run_of_restCall_error (fun _ => rfl) rfl (fun hcancel => by cases hcancel)
  rw [hrun, isUnknown_refused] at hunknown
  obtain ⟨message, heq⟩ | htext := hunknown
  · cases heq
  · exact absurd htext (by decide +kernel)

end OrderOp

end BybitApi.Gateway
