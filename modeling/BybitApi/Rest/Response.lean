import BybitApi.Exception
import BybitApi.Json

/-!
# Answers of the REST interface

What a response becomes: `checkResponse` looks at its status, `handleBybitResponse` decodes its body
and looks at `retCode`. Both throw `ExecutionUnknown` where the outcome of the request is unknown,
and `Failure` lists these cases together with the transport's own. The update of the rate limiter,
which reads the headers, is left out.
-/

namespace BybitApi.Rest

structure HttpResponse where
  resultInt : Nat
  body : String
  /-- A status line has three digits. -/
  three_digits : resultInt < 1000

/-- HTTP 200 with this body. -/
def HttpResponse.ok (body : String) : HttpResponse := ⟨200, body, by decide⟩

/-- `nlohmann::json`: its parser, and the text of the exception it raises while a body is decoded. -/
structure JsonLibrary where
  parse : String → Option Json
  what : String → JsonError → String

structure Response where
  retCode : Int
  retMsg : String
  retExtInfo : Json
  time : Int
  result : Json

def Response.fromJson (json : Json) : Except JsonError Response := do
  let retCode ← json.readValue Json.getInt "retCode" 0
  let retMsg ← json.readValue Json.getString "retMsg" ""
  let time ← json.readValue Json.getInt64 "time" 0
  return ⟨retCode, retMsg, (json.find? "retExtInfo").getD .null, time, (json.find? "result").getD .null⟩

structure OrderId extends Response where
  orderId : String
  orderLinkId : String

def OrderId.fromJson (json : Json) : Except JsonError OrderId := do
  let response ← Response.fromJson json
  let orderId ← response.result.readValue Json.getString "orderId" ""
  let orderLinkId ← response.result.readValue Json.getString "orderLinkId" ""
  return ⟨response, orderId, orderLinkId⟩

/-- 10000 server timeout, 10016 internal server error, 170007 timeout waiting for the backend. -/
def isExecutionUnknownCode (retCode : Int) : Bool := retCode = 10000 || retCode = 10016 || retCode = 170007

/-- 110001 order does not exist (derivatives), 170213 the same for spot. -/
def isOrderNotFoundCode (retCode : Int) : Bool := retCode = 110001 || retCode = 170213

def apiErrorMessage (retCode : Int) (retMsg : String) : String :=
  "Bybit API error, code: " ++ toString retCode ++ ", msg: " ++ retMsg

def apiError (retCode : Int) (retMsg : String) : Exception :=
  if isExecutionUnknownCode retCode then .executionUnknown (apiErrorMessage retCode retMsg)
  else if isOrderNotFoundCode retCode then .orderNotFound (apiErrorMessage retCode retMsg)
  else .runtimeError (apiErrorMessage retCode retMsg)

/-- `handleBybitResponse<V>`; `fromJson` and `base` are those of `V`. -/
def handleBybitResponse {V : Type} (lib : JsonLibrary) (fromJson : Json → Except JsonError V)
    (base : V → Response) (response : HttpResponse) : Except Exception V :=
  match lib.parse response.body with
  | none => .error (.json (lib.what response.body .parse))
  | some json =>
    match fromJson json with
    | .error e => .error (.json (lib.what response.body e))
    | .ok v => if (base v).retCode ≠ 0 then .error (apiError (base v).retCode (base v).retMsg) else .ok v

def badResponseMessage (response : HttpResponse) : String :=
  "Bad response, code " ++ toString response.resultInt ++ ", msg: " ++ response.body

def checkResponse (response : HttpResponse) : Except Exception HttpResponse :=
  if response.resultInt ≠ 200 then
    if 500 ≤ response.resultInt then .error (.executionUnknown (badResponseMessage response))
    else .error (.runtimeError (badResponseMessage response))
  else .ok response

/-- The end of every request: the session's response, checked and decoded. -/
def answer {V : Type} (lib : JsonLibrary) (fromJson : Json → Except JsonError V) (base : V → Response)
    (reply : Except Exception HttpResponse) : Except Exception V :=
  reply >>= checkResponse >>= handleBybitResponse lib fromJson base

/-! ## Unknown outcomes -/

/-- A way to fail that the REST layer types as `UnknownOutcomeError`. -/
inductive Failure where
  | transport (message : String)
  | status (response : HttpResponse) (server : 500 ≤ response.resultInt)
  | answer (retCode : Int) (retMsg : String) (unknown : isExecutionUnknownCode retCode = true)

namespace Failure

def error : Failure → Exception
  | transport message => .transportError message
  | status response _ => .executionUnknown (badResponseMessage response)
  | answer retCode retMsg _ => .executionUnknown (apiErrorMessage retCode retMsg)

/-- The reply to a request is this failure. -/
def Is {V : Type} (lib : JsonLibrary) (fromJson : Json → Except JsonError V) (base : V → Response)
    (reply : Except Exception HttpResponse) : Failure → Prop
  | transport message => reply = .error (.transportError message)
  | status response _ => reply = .ok response
  | answer retCode retMsg _ => ∃ response json v, reply = .ok response ∧ response.resultInt = 200 ∧
      lib.parse response.body = some json ∧ fromJson json = .ok v ∧ (base v).retCode = retCode ∧
      (base v).retMsg = retMsg

variable {V : Type} {lib : JsonLibrary} {fromJson : Json → Except JsonError V} {base : V → Response}
  {reply : Except Exception HttpResponse}

theorem answer_eq {f : Failure} (h : f.Is lib fromJson base reply) :
    Rest.answer lib fromJson base reply = .error f.error := by
  cases f with
  | transport message => rw [show reply = _ from h]; rfl
  | status response server =>
    rw [show reply = _ from h]
    have hne : response.resultInt ≠ 200 := by omega
    simp [Rest.answer, checkResponse, hne, server, error, bind, Except.bind]
  | answer retCode retMsg unknown =>
    obtain ⟨response, json, v, rfl, hok, hparse, hjson, rfl, rfl⟩ := h
    have hne : (base v).retCode ≠ 0 := by
      intro h0
      rw [h0] at unknown
      exact absurd unknown (by decide)
    simp [Rest.answer, checkResponse, hok, handleBybitResponse, hparse, hjson, hne, apiError, unknown, error, bind,
      Except.bind]

theorem apiError_unknown {retCode : Int} {retMsg : String}
    (h : (apiError retCode retMsg).isUnknownOutcome = true) :
    isExecutionUnknownCode retCode = true := by
  unfold apiError at h
  split at h
  · assumption
  · split at h <;> cases h

theorem checkResponse_error {response : HttpResponse} {e : Exception}
    (h : checkResponse response = .error e) (hu : e.isUnknownOutcome = true) :
    500 ≤ response.resultInt ∧ e = .executionUnknown (badResponseMessage response) := by
  unfold checkResponse at h
  split at h
  · split at h <;> cases h
    · exact ⟨by assumption, rfl⟩
    · cases hu
  · cases h

theorem handleBybitResponse_error {response : HttpResponse} {e : Exception}
    (h : handleBybitResponse lib fromJson base response = .error e) (hu : e.isUnknownOutcome = true) :
    ∃ json v, lib.parse response.body = some json ∧ fromJson json = .ok v ∧
      e = apiError (base v).retCode (base v).retMsg := by
  unfold handleBybitResponse at h
  cases hparse : lib.parse response.body with
  | none => simp only [hparse] at h; cases h; cases hu
  | some json =>
    simp only [hparse] at h
    cases hjson : fromJson json with
    | error e' => simp only [hjson] at h; cases h; cases hu
    | ok v =>
      simp only [hjson] at h
      split at h <;> cases h
      exact ⟨json, v, rfl, hjson, rfl⟩

/-- There are no others: of the exceptions the session itself throws, only a `TransportError` is of
that type. -/
theorem of_answer {e : Exception} (h : Rest.answer lib fromJson base reply = .error e)
    (hu : e.isUnknownOutcome = true)
    (hreply : ∀ message, reply ≠ .error (.executionUnknown message)) :
    ∃ f : Failure, f.Is lib fromJson base reply ∧ f.error = e := by
  cases hr : reply with
  | error e' =>
    rw [hr] at h hreply
    cases h
    cases e with
    | transportError message => exact ⟨.transport message, rfl, rfl⟩
    | executionUnknown message => exact absurd rfl (hreply message)
    | _ => cases hu
  | ok response =>
    rw [hr] at h
    cases hcheck : checkResponse response with
    | error e' =>
      have heq : Rest.answer lib fromJson base (.ok response) = .error e' := by
        simp [Rest.answer, bind, Except.bind, hcheck]
      obtain rfl : e' = e := by rw [heq] at h; cases h; rfl
      obtain ⟨hserver, rfl⟩ := checkResponse_error hcheck hu
      exact ⟨.status response hserver, rfl, rfl⟩
    | ok response' =>
      have hok : response.resultInt = 200 ∧ response' = response := by
        unfold checkResponse at hcheck
        split at hcheck
        · split at hcheck <;> cases hcheck
        · cases hcheck; exact ⟨by omega, rfl⟩
      obtain ⟨hok, rfl⟩ := hok
      have hhandle : handleBybitResponse lib fromJson base response' = .error e := by
        simpa [Rest.answer, bind, Except.bind, hcheck] using h
      obtain ⟨json, v, hparse, hjson, rfl⟩ := handleBybitResponse_error hhandle hu
      have hcode := apiError_unknown hu
      exact ⟨.answer _ _ hcode, ⟨response', json, v, rfl, hok, hparse, hjson, rfl, rfl⟩,
        by simp [error, apiError, hcode]⟩

end Failure

end BybitApi.Rest
