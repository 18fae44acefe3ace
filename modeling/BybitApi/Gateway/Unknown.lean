import BybitApi.Gateway.Orders

/-!
# Unknown outcomes at the gateway

A failure that the REST layer types as `UnknownOutcomeError` reaches the gateway as a text, and what
the operation makes of it depends on the patterns that the text has. The texts the REST layer puts
around a body or a `retMsg` are skipped here once for every pattern, so that what is left is a
condition on the status, the code and the free text.
-/

namespace BybitApi.Gateway

open Lib Rest

/-! ## Patterns in a message -/

theorem mentions_append {a b pattern : String} (h : Misses pattern.toList (toLower a.toList)) :
    mentions (a ++ b) pattern = mentions b pattern := by
  simp only [mentions, String.toList_append, toLower_append, h.infix_append_iff]

theorem mentions_of_prefix {a b pattern : String} (h : mentions a pattern = true) :
    mentions (a ++ b) pattern = true := by
  simp only [mentions, String.toList_append, toLower_append, decide_eq_true_eq] at h ⊢
  exact h.trans (List.prefix_append _ _).isInfix

theorem extractRetCode_append {a b : String} (h : Misses "code: ".toList a.toList) :
    extractRetCode (a ++ b) = extractRetCode b := by
  simp only [extractRetCode, String.toList_append, h.behind_append]

theorem isOrderGoneText_congr {a b : String}
    (h : ∀ pattern ∈ orderGoneTexts, mentions a pattern = mentions b pattern) :
    isOrderGoneText a = isOrderGoneText b := by
  simp only [orderGoneTexts, List.forall_mem_cons] at h
  simp only [isOrderGoneText, orderGoneTexts, List.any_cons, List.any_nil, h.1, h.2.1, h.2.2.1, h.2.2.2.1]

theorem isOrderGoneText_append {a b : String}
    (h : ∀ pattern ∈ orderGoneTexts, Misses pattern.toList (toLower a.toList)) :
    isOrderGoneText (a ++ b) = isOrderGoneText b :=
  isOrderGoneText_congr fun pattern hp => mentions_append (h pattern hp)

/-- The patterns of `isAmbiguousOutcomeReason`. -/
def ambiguousTexts : List String := ["code: 10000", "code: 10016", "bad response, code 5"]

theorem isAmbiguousOutcomeReason_append {a b : String}
    (h : ∀ pattern ∈ ambiguousTexts, Misses pattern.toList (toLower a.toList)) :
    isAmbiguousOutcomeReason (a ++ b) = isAmbiguousOutcomeReason b := by
  have hskip : ∀ pattern ∈ ambiguousTexts, mentions (a ++ b) pattern = mentions b pattern := by
    intro pattern hp
    exact mentions_append (h pattern hp)
  simp only [ambiguousTexts, List.forall_mem_cons] at hskip
  rw [isAmbiguousOutcomeReason, hskip.1, hskip.2.1, hskip.2.2.1, isAmbiguousOutcomeReason]

theorem nul_notMem_toString (n : Nat) : Char.ofNat 0 ∉ (toString n).toList := by
  rw [Nat.toString_eq_ofList_toDigits, String.toList_ofList]
  exact fun h => absurd (Nat.isDigit_of_mem_toDigits (by decide) (by decide) h) (by decide)

/-! ## The answers of the API -/

section ApiError

variable {retCode : Int} {retMsg : String}

/-- The text in front of `retMsg`. -/
def apiErrorHead (retCode : Int) : String := "Bybit API error, code: " ++ toString retCode ++ ", msg: "

theorem nul_notMem_apiErrorHead (retCode : Int) : Char.ofNat 0 ∉ (apiErrorHead retCode).toList := by
  have hcode : Char.ofNat 0 ∉ (toString retCode).toList := by
    cases retCode with
    | ofNat n => exact nul_notMem_toString n
    | negSucc n =>
      have hneg : toString (Int.negSucc n) = "-" ++ toString (n + 1) := rfl
      rw [hneg, String.toList_append, List.mem_append, not_or]
      exact ⟨by decide, nul_notMem_toString _⟩
  delta apiErrorHead
  simp only [String.toList_append, List.mem_append, not_or]
  exact ⟨⟨by decide, hcode⟩, by decide⟩

theorem shown_apiError : shown (apiErrorMessage retCode retMsg) = apiErrorHead retCode ++ shown retMsg :=
  shown_append (nul_notMem_apiErrorHead retCode)

theorem extractRetCode_apiErrorHead (h : -2 ^ 63 ≤ retCode) (h' : retCode < 2 ^ 63) (s : String) :
    extractRetCode (apiErrorHead retCode ++ s) = some retCode := by
  have hsplit : apiErrorHead retCode ++ s =
      "Bybit API error, " ++ ("code: " ++ (toString retCode ++ ("," ++ (" msg: " ++ s)))) := by
    have hhead : "Bybit API error, code: ".toList = "Bybit API error, ".toList ++ "code: ".toList := by decide
    have hmark : ", msg: ".toList = ",".toList ++ " msg: ".toList := by decide
    delta apiErrorHead
    apply String.toList_inj.1
    simp only [String.toList_append, hhead, hmark, List.append_assoc]
  rw [hsplit, extractRetCode_append (by decide), extractRetCode, String.toList_append, behind_self_append,
    Option.map_some, String.toList_append, String.toList_append]
  exact congrArg some (strtol_toString h h' (by decide) _)

/-- The text decides where neither the code nor anything else in front of it says that the order is
gone. -/
theorem isOrderGoneReason_apiErrorHead (h : -2 ^ 63 ≤ retCode) (h' : retCode < 2 ^ 63)
    (hcode : isOrderGoneCode retCode = false)
    (hmiss : ∀ pattern ∈ orderGoneTexts, Misses pattern.toList (toLower (apiErrorHead retCode).toList))
    (s : String) : isOrderGoneReason (apiErrorHead retCode ++ s) = isOrderGoneText s := by
  rw [isOrderGoneReason, extractRetCode_apiErrorHead h h', Option.any_some, hcode, Bool.false_or]
  exact isOrderGoneText_append hmiss

theorem isOrderGoneReason_apiError (h : isExecutionUnknownCode retCode = true) :
    isOrderGoneReason (shown (apiErrorMessage retCode retMsg)) = isOrderGoneText (shown retMsg) := by
  rw [shown_apiError]
  simp only [isExecutionUnknownCode, Bool.or_eq_true, decide_eq_true_eq] at h
  rcases h with (rfl | rfl) | rfl <;>
    exact isOrderGoneReason_apiErrorHead (by decide) (by decide) (by decide) (by decide +kernel) _

theorem isAmbiguousOutcomeReason_apiError (h : isExecutionUnknownCode retCode = true) :
    isAmbiguousOutcomeReason (shown (apiErrorMessage retCode retMsg)) = true ↔
      retCode ≠ 170007 ∨ isAmbiguousOutcomeReason (shown retMsg) = true := by
  rw [shown_apiError]
  simp only [isExecutionUnknownCode, Bool.or_eq_true, decide_eq_true_eq] at h
  rcases h with (rfl | rfl) | rfl
  · have hm := mentions_of_prefix (b := shown retMsg)
      (show mentions (apiErrorHead 10000) "code: 10000" = true by decide)
    simp [isAmbiguousOutcomeReason, hm]
  · have hm := mentions_of_prefix (b := shown retMsg)
      (show mentions (apiErrorHead 10016) "code: 10016" = true by decide)
    simp [isAmbiguousOutcomeReason, hm]
  · rw [isAmbiguousOutcomeReason_append (by decide +kernel)]
    simp

end ApiError

/-! ## The answers of the web server -/

section BadResponse

variable {response : HttpResponse}

/-- The text in front of the body, cut at a character that no pattern has. -/
theorem shown_badResponse :
    shown (badResponseMessage response) =
      "Bad response, code " ++ ((toString response.resultInt ++ ", m") ++ ("sg: " ++ shown response.body)) := by
  have hnul : Char.ofNat 0 ∉ ("Bad response, code " ++ toString response.resultInt ++ ", msg: ").toList := by
    simp only [String.toList_append, List.mem_append, not_or]
    exact ⟨⟨by decide, nul_notMem_toString _⟩, by decide⟩
  have hmark : ", msg: ".toList = ", m".toList ++ "sg: ".toList := by decide
  delta badResponseMessage
  rw [shown_append hnul]
  apply String.toList_inj.1
  simp only [String.toList_append, hmark, List.append_assoc]

theorem length_status (response : HttpResponse) : (toString response.resultInt).toList.length ≤ 3 := by
  rw [Nat.toString_eq_ofList_toDigits, String.toList_ofList]
  exact (Nat.length_toDigits_le_iff (by decide) (by decide)).2 response.three_digits

/-- The status misses a pattern that has no `m` and is longer than the status. -/
theorem misses_status {pattern status : List Char} (hm : 'm' ∉ pattern) (hlen : 6 ≤ pattern.length)
    (hstatus : status.length ≤ 3) : Misses pattern (status ++ [',', ' '] ++ ['m']) := by
  refine Misses.of_mark hm ?_
  simp only [List.length_append, List.length_cons, List.length_nil]
  omega

/-- What a pattern has to be for its search to skip all that stands in front of the body. -/
structure Skips (pattern : String) : Prop where
  head : Misses pattern.toList (toLower "Bad response, code ".toList)
  mark : 'm' ∉ pattern.toList
  length : 6 ≤ pattern.toList.length
  rest : Misses pattern.toList (toLower "sg: ".toList)

instance (pattern : String) : Decidable (Skips pattern) :=
  decidable_of_iff (Misses pattern.toList (toLower "Bad response, code ".toList) ∧ 'm' ∉ pattern.toList ∧
      6 ≤ pattern.toList.length ∧ Misses pattern.toList (toLower "sg: ".toList))
    ⟨fun ⟨h1, h2, h3, h4⟩ => ⟨h1, h2, h3, h4⟩, fun ⟨h1, h2, h3, h4⟩ => ⟨h1, h2, h3, h4⟩⟩

theorem misses_lower_status {pattern : List Char} (hm : 'm' ∉ pattern) (hlen : 6 ≤ pattern.length) :
    Misses pattern (toLower (toString response.resultInt ++ ", m").toList) := by
  rw [String.toList_append, toLower_append, show toLower ", m".toList = [',', ' '] ++ ['m'] by decide,
    ← List.append_assoc]
  exact misses_status hm hlen ((length_toLower _).trans_le (length_status response))

theorem mentions_badResponse {pattern : String} (h : Skips pattern) :
    mentions (shown (badResponseMessage response)) pattern = mentions (shown response.body) pattern := by
  rw [shown_badResponse, mentions_append h.head, mentions_append (misses_lower_status h.mark h.length),
    mentions_append h.rest]

theorem extractRetCode_badResponse :
    extractRetCode (shown (badResponseMessage response)) = extractRetCode (shown response.body) := by
  have hstatus : Misses "code: ".toList (toString response.resultInt ++ ", m").toList := by
    rw [String.toList_append, show ", m".toList = [',', ' '] ++ ['m'] by decide, ← List.append_assoc]
    exact misses_status (by decide) (by decide) (length_status response)
  rw [shown_badResponse, extractRetCode_append (by decide), extractRetCode_append hstatus,
    extractRetCode_append (by decide)]

theorem isOrderGoneReason_badResponse :
    isOrderGoneReason (shown (badResponseMessage response)) = isOrderGoneReason (shown response.body) := by
  rw [isOrderGoneReason, isOrderGoneReason, extractRetCode_badResponse,
    isOrderGoneText_congr fun pattern hp => mentions_badResponse (by revert pattern; decide)]

/-- The first digit of a status from 500 on. -/
theorem status_digits {n : Nat} (h : 500 ≤ n) (h' : n < 1000) :
    ∃ rest, (toString n).toList = Nat.digitChar (n / 100) :: rest := by
  refine ⟨[Nat.digitChar (n / 10 % 10), Nat.digitChar (n % 10)], ?_⟩
  rw [Nat.toString_eq_ofList_toDigits, String.toList_ofList, Nat.toDigits_of_base_le (by decide) (by omega),
    Nat.toDigits_of_base_le (by decide) (by omega), Nat.toDigits_of_lt_base (by omega), Nat.div_div_eq_div_mul]
  rfl

theorem toLower_digitChar_eq_five {k : Nat} (h : k < 10) : (Nat.digitChar k).toLower = '5' ↔ k = 5 := by
  revert k; decide

/-- `bad response, code 5` is the text of checkResponse itself exactly for the statuses from 500 to
599. -/
theorem mentions_five (h : 500 ≤ response.resultInt) :
    mentions (shown (badResponseMessage response)) "bad response, code 5" = true ↔
      response.resultInt < 600 ∨ mentions (shown response.body) "bad response, code 5" = true := by
  have hlt := response.three_digits
  obtain ⟨digits, hdigits⟩ := status_digits h hlt
  have hbehind : mentions ((toString response.resultInt ++ ", m") ++ ("sg: " ++ shown response.body))
      "bad response, code 5" = mentions (shown response.body) "bad response, code 5" := by
    rw [mentions_append (misses_lower_status (by decide) (by decide)), mentions_append (by decide)]
  simp only [mentions, decide_eq_decide] at hbehind
  have hhead : toLower "Bad response, code ".toList = 'b' :: toLower "ad response, code ".toList := by decide
  have hpattern : "bad response, code 5".toList = toLower "Bad response, code ".toList ++ ['5'] := by decide
  have hmiss : Misses "bad response, code 5".toList (toLower "ad response, code ".toList) := by decide
  rw [shown_badResponse]
  simp only [mentions, decide_eq_true_eq]
  rw [String.toList_append, toLower_append, hhead, List.cons_append, List.infix_cons_iff,
    hmiss.infix_append_iff, hbehind,
    ← List.cons_append, ← hhead]
  refine or_congr_left ?_
  rw [hpattern, List.prefix_append_right_inj, String.toList_append, String.toList_append, hdigits]
  simp only [List.cons_append, toLower, List.map_cons, List.cons_prefix_cons, List.nil_prefix, and_true]
  rw [eq_comm, toLower_digitChar_eq_five (by omega)]
  omega

theorem isAmbiguousOutcomeReason_badResponse (h : 500 ≤ response.resultInt) :
    isAmbiguousOutcomeReason (shown (badResponseMessage response)) = true ↔
      response.resultInt < 600 ∨ isAmbiguousOutcomeReason (shown response.body) = true := by
  simp only [isAmbiguousOutcomeReason, Bool.or_eq_true, mentions_five h,
    mentions_badResponse (show Skips "code: 10000" by decide),
    mentions_badResponse (show Skips "code: 10016" by decide)]
  exact or_left_comm

end BadResponse

/-! ## Failures -/

/-- The handlers find in the text that the outcome is unknown. -/
def recognised : Failure → Bool
  | .transport _ => true
  | .status response _ => response.resultInt < 600 || isAmbiguousOutcomeReason (shown response.body)
  | .answer retCode retMsg _ => retCode ≠ 170007 || isAmbiguousOutcomeReason (shown retMsg)

/-- `cancel` finds in the text that the order is gone. -/
def readsAsGone : Failure → Bool
  | .transport _ => false
  | .status response _ => isOrderGoneReason (shown response.body)
  | .answer _ retMsg _ => isOrderGoneText (shown retMsg)

theorem refused_eq_rethrown_iff {α : Type} (f : Failure) :
    (Ending.refused f.error : Ending α) = .rethrown f.error ↔ recognised f = true := by
  have hrefused : ∀ message, (Ending.refused (.executionUnknown message) : Ending α) =
      .rethrown (.executionUnknown message) ↔ isAmbiguousOutcomeReason (shown message) = true := fun message => by
    simp only [Ending.refused, Exception.what, Exception.message]
    by_cases h : isAmbiguousOutcomeReason (shown message) = true <;> simp [h]
  cases f with
  | transport message => exact ⟨fun _ => rfl, fun _ => rfl⟩
  | status response server =>
    rw [Failure.error, hrefused, isAmbiguousOutcomeReason_badResponse server]
    simp [recognised]
  | answer retCode retMsg unknown =>
    rw [Failure.error, hrefused, isAmbiguousOutcomeReason_apiError unknown]
    simp [recognised]

theorem orderGone_error (f : Failure) : OrderOp.orderGone f.error = readsAsGone f := by
  cases f with
  | transport message => rfl
  | status response server => exact isOrderGoneReason_badResponse
  | answer retCode retMsg unknown => exact isOrderGoneReason_apiError unknown

namespace OrderOp

variable {gw : ExecutionGateway} {op : OrderOp} {f : Failure}

/-- The REST call of the operation fails so, in the look-up of the instrument or in the reply to the
request. -/
inductive FailsAs (gw : ExecutionGateway) (op : OrderOp) (f : Failure) : Prop where
  | lookUp (order : op.isCancel = false)
      (fails : gw.rest.findPricePrecisionsForInstrument .linear op.symbol = .error f.error)
  | reply (steps : ℚ × ℚ)
      (found : op.isCancel = false → gw.rest.findPricePrecisionsForInstrument .linear op.symbol = .ok (some steps))
      (fails : f.Is gw.rest.lib OrderId.fromJson OrderId.toResponse (gw.rest.send 0 (op.request gw steps)))

theorem FailsAs.restCall_eq (h : op.FailsAs gw f) : op.restCall gw = .error f.error := by
  cases h with
  | lookUp order fails =>
    cases op with
    | cancel => cases order
    | amendPrice => exact RESTClient.amendOrder_of_error fails
    | submitPostOnlyLimit | submitReduceOnlyMarket => exact RESTClient.placeOrder_of_error fails
  | reply steps found fails =>
    have hanswer := Failure.answer_eq fails
    cases op with
    | cancel => exact hanswer
    | amendPrice => exact (RESTClient.amendOrder_of_found (found rfl)).trans hanswer
    | submitPostOnlyLimit | submitReduceOnlyMarket =>
      exact (RESTClient.placeOrder_of_found (found rfl)).trans hanswer

/-- Every `UnknownOutcomeError` of the REST call is such a failure, if the session throws none but
`TransportError` and the look-up none but such failures. -/
theorem exists_failsAs {e : Exception} (hcall : op.restCall gw = .error e) (hu : e.isUnknownOutcome = true)
    (hfind : gw.rest.findPricePrecisionsForInstrument .linear op.symbol = .error e → ∃ f : Failure, f.error = e)
    (hsend : ∀ request message, gw.rest.send 0 request ≠ .error (.executionUnknown message)) :
    ∃ f, op.FailsAs gw f ∧ f.error = e := by
  have hlookUp : op.isCancel = false → gw.rest.findPricePrecisionsForInstrument .linear op.symbol = .error e →
      ∃ f, op.FailsAs gw f ∧ f.error = e := fun horder h => by
    obtain ⟨f, rfl⟩ := hfind h
    exact ⟨f, .lookUp horder h, rfl⟩
  have hreply : ∀ steps, (op.isCancel = false →
      gw.rest.findPricePrecisionsForInstrument .linear op.symbol = .ok (some steps)) →
      gw.rest.orderId (gw.rest.send 0 (op.request gw steps)) = .error e → ∃ f, op.FailsAs gw f ∧ f.error = e :=
    fun steps hfound h => by
      obtain ⟨f, hf, rfl⟩ := Failure.of_answer h hu (hsend _)
      exact ⟨f, .reply steps hfound hf, rfl⟩
  cases op with
  | cancel => exact hreply (0, 0) (fun h => by cases h) hcall
  | amendPrice =>
    rcases RESTClient.amendOrder_cases hcall hu with h | ⟨steps, h⟩
    · exact hlookUp rfl h
    · exact hreply steps (fun _ => h) ((RESTClient.amendOrder_of_found h).symm.trans hcall)
  | submitPostOnlyLimit | submitReduceOnlyMarket =>
    rcases RESTClient.placeOrder_cases hcall hu with h | ⟨steps, h⟩
    · exact hlookUp rfl h
    · exact hreply steps (fun _ => h) ((RESTClient.placeOrder_of_found h).symm.trans hcall)

/-- The outcome stays unknown exactly if the text says so and `cancel` does not find that the order
is gone. -/
theorem unknown_outcome_rethrown (hgate : op.isGated = true → gw.isLive = true) (hfail : op.FailsAs gw f) :
    op.run gw = .rethrown f.error ↔ recognised f = true ∧ (op.isCancel = true → readsAsGone f = false) := by
  have hcall := hfail.restCall_eq
  rw [← orderGone_error]
  by_cases hgone : op.isCancel = true ∧ orderGone f.error = true
  · obtain ⟨hcancel, hgone⟩ := hgone
    refine ⟨fun hrun => ?_, fun h => absurd (h.2 hcancel) (by simp [hgone])⟩
    cases op with
    | cancel clientOrderId symbol =>
      have hne := cancel_ne_rethrown hcall hgone f.error
      cases hend : (gw.cancel clientOrderId symbol).2 with
      | rethrown e =>
        simp only [run, hend, Ending.map, Ending.rethrown.injEq] at hrun
        exact absurd (hrun ▸ hend) hne
      | _ => simp [run, hend, Ending.map] at hrun
    | _ => cases hcancel
  · have hgone : op.isCancel = true → orderGone f.error = false := fun hc => by simpa [hc] using hgone
    rw [run_of_restCall_error hgate hcall hgone, refused_eq_rethrown_iff]
    exact ⟨fun h => ⟨h, hgone⟩, fun h => h.1⟩

/-- A live gateway whose venue answers every request with HTTP 200 and this JSON. -/
def answering (body : String) (json : Json) : ExecutionGateway where
  rest := {
    lib := ⟨fun _ => some json, fun _ _ => ""⟩
    send := fun _ _ => .ok (.ok body)
    findPricePrecisionsForInstrument := fun _ _ => .ok (some (1 / 10, 1 / 1000))
    execution := fun _ => .error .type
    orders := fun _ => .error .type }
  positionIdx := 0
  isLive := true
  fillCB := true
  format := fun _ => ""

def serverError : ExecutionGateway :=
  answering "\x7b\"retCode\":10016,\"retMsg\":\"Internal server error.\"\x7d"
    (.obj [("retCode", .num 10016), ("retMsg", .str "Internal server error.")])

theorem unknown_outcome_rethrown_cancel : (OrderOp.cancel "id" "BTCUSDT").run serverError =
    .rethrown (.executionUnknown (apiErrorMessage 10016 "Internal server error.")) := by
  have hfail : (OrderOp.cancel "id" "BTCUSDT").FailsAs serverError
      (.answer 10016 "Internal server error." (by decide)) :=
    .reply (0, 0) (by decide) ⟨_, _, _, rfl, rfl, rfl, rfl, by decide, rfl⟩
  exact (unknown_outcome_rethrown (by decide) hfail).2 (by decide)

/-- The venue did not get an answer from its backend in time. -/
def backendTimeout : ExecutionGateway :=
  answering "\x7b\"retCode\":170007,\"retMsg\":\"Timeout waiting for response from backend server.\"\x7d"
    (.obj [("retCode", .num 170007), ("retMsg", .str "Timeout waiting for response from backend server.")])

theorem unknown_outcome_rejected : ¬ ∀ (gw : ExecutionGateway) (op : OrderOp) (f : Failure),
    (op.isGated = true → gw.isLive = true) → op.FailsAs gw f → op.run gw = .rethrown f.error := by
  intro h
  have hfail : (OrderOp.submitPostOnlyLimit "id" "BTCUSDT" .Buy 1 50000 false).FailsAs backendTimeout
      (.answer 170007 "Timeout waiting for response from backend server." (by decide)) :=
    .reply (1 / 10, 1 / 1000) (fun _ => rfl) ⟨_, _, _, rfl, rfl, rfl, rfl, by decide, rfl⟩
  have hrun := h _ _ _ (by decide) hfail
  rw [run_of_restCall_error (by decide) hfail.restCall_eq (by decide), refused_eq_rethrown_iff] at hrun
  exact absurd hrun (by decide)

end OrderOp

end BybitApi.Gateway
