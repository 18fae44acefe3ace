import BybitApi.Gateway.Garbled

/-!
# Rejections by their code

What the gateway makes of an API error whose code it knows. The code stands in front of `retMsg`, so
that `extractRetCode` reads the code whatever `retMsg` says. The patterns are searched in all of the
text: those of an unknown outcome are tried before the classifier, and in `cancel` those of a gone
order before both.
-/

namespace BybitApi.Gateway

open Lib Rest

/-- The codes that `classifyRejectReason` lists. -/
def rejectCodes : List ℤ := [30208, 110094, 10006, 110017, 10029, 30228, 110087]

/-- The codes that `isOrderGoneReason` lists. -/
def orderGoneCodes : List ℤ := [110001, 110008, 110010]

section Texts

variable {retCode : ℤ} {retMsg : String}

theorem mem_rejectCodes : retCode ∈ rejectCodes ↔ (classifyRetCode retCode).isSome = true := by
  unfold classifyRetCode
  split <;> simp_all [rejectCodes]

theorem mem_orderGoneCodes : retCode ∈ orderGoneCodes ↔ isOrderGoneCode retCode = true := by
  simp [orderGoneCodes, isOrderGoneCode, or_assoc]

theorem what_apiError (retCode : ℤ) (retMsg : String) :
    (apiError retCode retMsg).what = apiErrorHead retCode ++ shown retMsg := by
  rw [Exception.what, message_apiError]
  exact shown_apiError

/-- Within the bounds of a C `long`, and of an `int` the more so. -/
theorem extractRetCode_what (h : -2 ^ 63 ≤ retCode) (h' : retCode < 2 ^ 63) :
    extractRetCode (apiError retCode retMsg).what = some retCode := by
  rw [what_apiError]
  exact extractRetCode_apiErrorHead h h' _

/-- A listed code is one that can be read, and says nothing of a gone order. -/
theorem rejectCodes_known (h : retCode ∈ rejectCodes) :
    -2 ^ 63 ≤ retCode ∧ retCode < 2 ^ 63 ∧ isOrderGoneCode retCode = false := by
  revert retCode
  decide

theorem classifyRejectReason_what (h : retCode ∈ rejectCodes) :
    (classifyRetCode retCode) = some (classifyRejectReason (apiError retCode retMsg).what) := by
  obtain ⟨hlow, hhigh, -⟩ := rejectCodes_known h
  obtain ⟨kind, hkind⟩ := Option.isSome_iff_exists.1 (mem_rejectCodes.1 h)
  rw [classifyRejectReason, extractRetCode_what hlow hhigh, Option.bind_some, hkind, Option.getD_some]

/-- The patterns are found behind the code or not at all. -/
theorem misses_rejectCode (h : retCode ∈ rejectCodes) : ∀ pattern ∈ ambiguousTexts ++ orderGoneTexts,
    Misses pattern.toList (toLower (apiErrorHead retCode).toList) := by
  revert retCode
  decide +kernel

theorem isAmbiguousOutcomeReason_what (h : retCode ∈ rejectCodes) :
    isAmbiguousOutcomeReason (apiError retCode retMsg).what = isAmbiguousOutcomeReason (shown retMsg) := by
  rw [what_apiError]
  apply isAmbiguousOutcomeReason_append
  intro pattern hp
  exact misses_rejectCode h pattern (List.mem_append_left _ hp)

theorem isOrderGoneReason_what (h : retCode ∈ rejectCodes) :
    isOrderGoneReason (apiError retCode retMsg).what = isOrderGoneText (shown retMsg) := by
  have hmiss : ∀ pattern ∈ orderGoneTexts, Misses pattern.toList (toLower (apiErrorHead retCode).toList) := by
    intro pattern hp
    exact misses_rejectCode h pattern (List.mem_append_right _ hp)
  rw [what_apiError]
  obtain ⟨hlow, hhigh, hcode⟩ := rejectCodes_known h
  exact isOrderGoneReason_apiErrorHead hlow hhigh hcode hmiss _

theorem isOrderGoneReason_of_code (h : retCode ∈ orderGoneCodes) :
    isOrderGoneReason (apiError retCode retMsg).what = true := by
  have hread : extractRetCode (apiError retCode retMsg).what = some retCode := by
    revert h
    simp only [orderGoneCodes, List.mem_cons, List.not_mem_nil, or_false]
    rintro (rfl | rfl | rfl) <;> exact extractRetCode_what (by decide) (by decide)
  rw [isOrderGoneReason, hread, Option.any_some, mem_orderGoneCodes.1 h, Bool.true_or]

end Texts

/-- What `cancel` does once it has found that the order is gone. -/
def ExecutionGateway.orderGonePath (gw : ExecutionGateway) (clientOrderId symbol : String) :
    List FillEvent × Ending Bool :=
  match gw.reconcileMissedFills clientOrderId symbol with
  | (fills, .ok ()) => (fills, .returned false)
  | (fills, .error e) => (fills, .thrown e)

theorem ExecutionGateway.reconcileMissedFills_error {gw : ExecutionGateway} {clientOrderId symbol : String}
    {fills : List FillEvent} {e : Exception}
    (h : gw.reconcileMissedFills clientOrderId symbol = (fills, .error e)) :
    ∃ message, e = .executionUnknown message := by
  unfold reconcileMissedFills at h
  split at h
  · cases h
  · split at h
    · cases h
      exact ⟨_, rfl⟩
    · split at h <;> cases h
      exact ⟨_, rfl⟩

namespace OrderOp

/-- The venue answers the request of the operation with HTTP 200 and a body that has this code and
this text. -/
structure Answered (gw : ExecutionGateway) (op : OrderOp) (retCode : ℤ) (retMsg : String) : Prop where
  live : op.isGated = true → gw.isLive = true
  answer : ∃ steps response json orderId, (op.isCancel = false →
      gw.rest.findPricePrecisionsForInstrument .linear op.symbol = .ok (some steps)) ∧
    gw.rest.send 0 (op.request gw steps) = .ok response ∧ response.resultInt = 200 ∧
    gw.rest.lib.parse response.body = some json ∧ OrderId.fromJson json = .ok orderId ∧
    orderId.retCode = retCode ∧ orderId.retMsg = retMsg

/-- The text has none of the patterns that are searched before the classifier is asked. -/
def plain (op : OrderOp) (retMsg : String) : Bool :=
  !isAmbiguousOutcomeReason (shown retMsg) && !(op.isCancel && isOrderGoneText (shown retMsg))

/-- Two answers with one code come to one end: a `GatewayError` of one kind if the classifier lists the
code, and for `cancel` the path of a gone order if that is what the code says. -/
structure CodeDecides (op : OrderOp) (retCode : ℤ) (gw gw' : ExecutionGateway) : Prop where
  kind : retCode ∈ rejectCodes → ∃ kind text text', op.run gw = .thrown (.gatewayError kind text) ∧
    op.run gw' = .thrown (.gatewayError kind text')
  gone : retCode ∈ orderGoneCodes → ∀ clientOrderId symbol, op = .cancel clientOrderId symbol →
    gw.cancel clientOrderId symbol = gw.orderGonePath clientOrderId symbol ∧
    gw'.cancel clientOrderId symbol = gw'.orderGonePath clientOrderId symbol

section Decides

variable {gw gw' : ExecutionGateway} {op : OrderOp} {retCode : ℤ}
  {retMsg retMsg' clientOrderId symbol : String}

theorem Answered.restCall_eq (h : op.Answered gw retCode retMsg) (hcode : retCode ≠ 0) :
    op.restCall gw = .error (apiError retCode retMsg) := by
  obtain ⟨steps, response, json, orderId, hfound, hsend, hok, hparse, hjson, rfl, rfl⟩ := h.answer
  have hanswer : gw.rest.orderId (gw.rest.send 0 (op.request gw steps)) =
      .error (apiError orderId.retCode orderId.retMsg) := by
    simp [RESTClient.orderId, Rest.answer, hsend, checkResponse, hok, handleBybitResponse, hparse, hjson, hcode,
      bind, Except.bind]
  cases op with
  | cancel => exact hanswer
  | amendPrice => exact (RESTClient.amendOrder_of_found (hfound rfl)).trans hanswer
  | submitPostOnlyLimit | submitReduceOnlyMarket =>
    exact (RESTClient.placeOrder_of_found (hfound rfl)).trans hanswer

theorem orderGone_apiError :
    orderGone (apiError retCode retMsg) = isOrderGoneReason (apiError retCode retMsg).what := by
  have hne := apiError_ne_transportError retCode retMsg
  cases happi : apiError retCode retMsg with
  | transportError message => exact absurd happi (hne message)
  | _ => rfl

theorem refused_apiError {α : Type} : (Ending.refused (apiError retCode retMsg) : Ending α) =
    if isAmbiguousOutcomeReason (apiError retCode retMsg).what then .rethrown (apiError retCode retMsg)
    else .thrown (.gatewayError (classifyRejectReason (apiError retCode retMsg).what)
      (apiError retCode retMsg).what) := by
  have hne := apiError_ne_transportError retCode retMsg
  cases happi : apiError retCode retMsg with
  | transportError message => exact absurd happi (hne message)
  | _ => rfl

theorem cancel_of_goneCode (h : (cancel clientOrderId symbol).Answered gw retCode retMsg)
    (hcode : retCode ∈ orderGoneCodes) :
    gw.cancel clientOrderId symbol = gw.orderGonePath clientOrderId symbol := by
  have hne : retCode ≠ 0 := by
    rintro rfl
    exact absurd hcode (by decide)
  exact cancel_of_gone (h.restCall_eq hne) (orderGone_apiError.trans (isOrderGoneReason_of_code hcode))

theorem ne_zero_of_rejectCode (hcode : retCode ∈ rejectCodes) : retCode ≠ 0 := by
  rintro rfl
  exact absurd hcode (by decide)

theorem orderGone_rejectCode (hcode : retCode ∈ rejectCodes) :
    orderGone (apiError retCode retMsg) = isOrderGoneText (shown retMsg) :=
  orderGone_apiError.trans (isOrderGoneReason_what hcode)

theorem plain_iff : op.plain retMsg = true ↔ isAmbiguousOutcomeReason (shown retMsg) = false ∧
    (op.isCancel = true → isOrderGoneText (shown retMsg) = false) := by
  simp [plain, imp_iff_not_or]

/-- What one answer with a listed code comes to, unless its text takes a cancel for one of a gone order. -/
theorem run_of_rejectCode (h : op.Answered gw retCode retMsg) (hcode : retCode ∈ rejectCodes)
    (htext : op.isCancel = true → isOrderGoneText (shown retMsg) = false) {kind : RejectKind}
    (hkind : classifyRetCode retCode = some kind) :
    op.run gw = if isAmbiguousOutcomeReason (shown retMsg) then .rethrown (apiError retCode retMsg)
      else .thrown (.gatewayError kind (apiError retCode retMsg).what) := by
  have hcall := h.restCall_eq (ne_zero_of_rejectCode hcode)
  have hnot : op.isCancel = true → orderGone (apiError retCode retMsg) = false := by
    intro hcancel
    rw [orderGone_rejectCode hcode]
    exact htext hcancel
  have hclass := @classifyRejectReason_what retCode retMsg hcode
  rw [hkind, Option.some.injEq] at hclass
  rw [run_of_restCall_error h.live hcall hnot, refused_apiError, isAmbiguousOutcomeReason_what hcode, ← hclass]

/-- A cancel that finds its order gone throws no `GatewayError`. -/
theorem cancel_of_goneText (h : (cancel clientOrderId symbol).Answered gw retCode retMsg)
    (hcode : retCode ∈ rejectCodes) (htext : isOrderGoneText (shown retMsg) = true) (kind : RejectKind)
    (text : String) : (cancel clientOrderId symbol).run gw ≠ .thrown (.gatewayError kind text) := by
  intro hrun
  have hcall := h.restCall_eq (ne_zero_of_rejectCode hcode)
  simp only [run, cancel_of_gone hcall ((orderGone_rejectCode hcode).trans htext)] at hrun
  split at hrun
  · cases hrun
  next fills e hrec =>
    obtain ⟨message, rfl⟩ := ExecutionGateway.reconcileMissedFills_error hrec
    cases hrun

theorem thrown_of_plain (h : op.Answered gw retCode retMsg) (hcode : retCode ∈ rejectCodes)
    (hplain : op.plain retMsg = true) {kind : RejectKind} (hkind : classifyRetCode retCode = some kind) :
    ∃ text, op.run gw = .thrown (.gatewayError kind text) := by
  obtain ⟨hambiguous, htext⟩ := plain_iff.1 hplain
  refine ⟨(apiError retCode retMsg).what, ?_⟩
  rw [run_of_rejectCode h hcode htext hkind, if_neg (Bool.eq_false_iff.1 hambiguous)]

theorem plain_of_thrown (h : op.Answered gw retCode retMsg) (hcode : retCode ∈ rejectCodes) {kind : RejectKind}
    {text : String} (hrun : op.run gw = .thrown (.gatewayError kind text)) : op.plain retMsg = true := by
  obtain ⟨listed, hlisted⟩ := Option.isSome_iff_exists.1 (mem_rejectCodes.1 hcode)
  have htext : op.isCancel = true → isOrderGoneText (shown retMsg) = false := by
    intro hcancel
    rw [Bool.eq_false_iff]
    intro hgone
    cases op with
    | cancel clientOrderId symbol => exact cancel_of_goneText h hcode hgone kind text hrun
    | _ => cases hcancel
  refine plain_iff.2 ⟨?_, htext⟩
  rw [Bool.eq_false_iff]
  intro hambiguous
  rw [run_of_rejectCode h hcode htext hlisted, if_pos hambiguous] at hrun
  cases hrun

/-- **The code decides**, of two answers with the same code, exactly if the classifier does not list
it or neither text has a pattern that is searched before the classifier is asked. -/
theorem retCode_decides_iff (h : op.Answered gw retCode retMsg) (h' : op.Answered gw' retCode retMsg') :
    op.CodeDecides retCode gw gw' ↔
      (retCode ∈ rejectCodes → op.plain retMsg = true ∧ op.plain retMsg' = true) := by
  constructor
  · intro hdecides hcode
    obtain ⟨kind, text, text', hrun, hrun'⟩ := hdecides.kind hcode
    exact ⟨plain_of_thrown h hcode hrun, plain_of_thrown h' hcode hrun'⟩
  · intro hplain
    refine ⟨fun hcode => ?_, ?_⟩
    · obtain ⟨listed, hlisted⟩ := Option.isSome_iff_exists.1 (mem_rejectCodes.1 hcode)
      obtain ⟨text, hrun⟩ := thrown_of_plain h hcode (hplain hcode).1 hlisted
      obtain ⟨text', hrun'⟩ := thrown_of_plain h' hcode (hplain hcode).2 hlisted
      exact ⟨listed, text, text', hrun, hrun'⟩
    · rintro hcode clientOrderId symbol rfl
      exact ⟨cancel_of_goneCode h hcode, cancel_of_goneCode h' hcode⟩

/-- A venue that answers every request alike: the API limit is reached, with this text. -/
def tooManyVisits (retMsg : String) : ExecutionGateway :=
  answering ("\x7b\"retCode\":10006,\"retMsg\":\"" ++ retMsg ++ "\"\x7d")
    (.obj [("retCode", .num 10006), ("retMsg", .str retMsg)])

theorem tooManyVisits_answered (op : OrderOp) (retMsg : String) :
    op.Answered (tooManyVisits retMsg) 10006 retMsg :=
  ⟨fun _ => rfl, (1 / 10, 1 / 1000), _, _, _, fun _ => rfl, rfl, rfl, rfl, rfl,
    show Json.toSigned UInt32.size 10006 = 10006 by decide, rfl⟩

theorem retCode_decides_plain : (cancel "id" "BTCUSDT").CodeDecides 10006 (tooManyVisits "Too many visits!")
    (tooManyVisits "Too many visits. Exceeded the API Rate Limit.") :=
  (retCode_decides_iff (tooManyVisits_answered _ _) (tooManyVisits_answered _ _)).2
    fun _ => by decide +kernel

/-- A text that says `too late` takes a cancel for one of a gone order, and one that quotes another
code takes a submission for one of unknown outcome. -/
theorem retMsg_decides :
    (∀ op retMsg, Answered (tooManyVisits retMsg) op 10006 retMsg) ∧
    ¬ (cancel "id" "BTCUSDT").CodeDecides 10006 (tooManyVisits "Too many visits!")
      (tooManyVisits "Too many visits: too late") ∧
    ¬ (submitReduceOnlyMarket "id" "BTCUSDT" .Sell 1).CodeDecides 10006 (tooManyVisits "Too many visits!")
      (tooManyVisits "Too many visits (code: 10000)") := by
  refine ⟨tooManyVisits_answered, fun hdecides => ?_, fun hdecides => ?_⟩
  · obtain ⟨kind, text, text', -, hrun⟩ := hdecides.kind (by decide)
    exact absurd (plain_of_thrown (tooManyVisits_answered _ _) (by decide) hrun) (by decide +kernel)
  · obtain ⟨kind, text, text', -, hrun⟩ := hdecides.kind (by decide)
    exact absurd (plain_of_thrown (tooManyVisits_answered _ _) (by decide) hrun) (by decide +kernel)

end Decides

end OrderOp

end BybitApi.Gateway
