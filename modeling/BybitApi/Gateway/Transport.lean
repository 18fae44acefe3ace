import BybitApi.Gateway.Garbled
import BybitApi.Http.Request

/-!
# From the socket to the gateway

The two ends of an order operation: the event loop of the request it sends, and how the operation ends. Only a
request whose own operations failed makes a `TransportError`, and nothing on the way up turns it into anything
else or makes another one. So whatever else an operation reports, it has read a response that came whole.
-/

namespace BybitApi.Gateway

open Lib Rest Http

/-! ## What a response can be read as -/

section Answer

variable {V : Type} {lib : JsonLibrary} {fromJson : Json → Except JsonError V} {base : V → Response}
  {response : HttpResponse} {message : String}

theorem answer_ne_transportError : answer lib fromJson base (.ok response) ≠ .error (.transportError message) := by
  intro h
  cases hcheck : checkResponse response with
  | error e =>
    have heq : answer lib fromJson base (.ok response) = .error e := by simp [answer, bind, Except.bind, hcheck]
    obtain rfl := Except.error.inj (heq.symm.trans h)
    unfold checkResponse at hcheck
    split at hcheck
    · split at hcheck <;> cases hcheck
    · cases hcheck
  | ok response' =>
    have hhandle : handleBybitResponse lib fromJson base response' = .error (.transportError message) := by
      simpa [answer, bind, Except.bind, hcheck] using h
    unfold handleBybitResponse at hhandle
    split at hhandle
    · cases hhandle
    split at hhandle
    · cases hhandle
    split at hhandle
    · exact apiError_ne_transportError _ _ _ (Except.error.inj hhandle)
    · cases hhandle

end Answer

theorem refused_ne_transportError {α : Type} {e : Exception} (he : ∀ message, e ≠ .transportError message)
    (message : String) : (Ending.refused e : Ending α) ≠ .rethrown (.transportError message) := by
  intro h
  have hsame : e = .transportError message := by
    cases e with
    | transportError message' => exact absurd rfl (he message')
    | _ =>
      simp only [Ending.refused] at h
      split at h <;> cases h
  exact he message hsame

namespace OrderOp

variable {gw : ExecutionGateway} {op : OrderOp} {steps : ℚ × ℚ} {message : String}

/-- The REST call is the request, where the instrument is found. -/
theorem restCall_of_found
    (hfound : op.isCancel = false → gw.rest.findPricePrecisionsForInstrument .linear op.symbol = .ok (some steps)) :
    op.restCall gw = gw.rest.orderId (gw.rest.send 0 (op.request gw steps)) := by
  cases op with
  | cancel => rfl
  | amendPrice => exact RESTClient.amendOrder_of_found (hfound rfl)
  | submitPostOnlyLimit | submitReduceOnlyMarket => exact RESTClient.placeOrder_of_found (hfound rfl)

theorem run_ne_transportError (hcall : ∀ message, op.restCall gw ≠ .error (.transportError message))
    (hgate : op.isGated = true → gw.isLive = true) (message : String) :
    op.run gw ≠ .rethrown (.transportError message) := by
  cases hrest : op.restCall gw with
  | error e =>
    have he : ∀ message, e ≠ .transportError message := by
      rintro message rfl
      exact hcall message hrest
    by_cases hgone : op.isCancel = true ∧ orderGone e = true
    · cases op with
      | cancel clientOrderId symbol =>
        intro hrun
        have hne := cancel_ne_rethrown hrest hgone.2 (.transportError message)
        cases hend : (gw.cancel clientOrderId symbol).2 with
        | rethrown e' =>
          simp only [run, hend, Ending.map, Ending.rethrown.injEq] at hrun
          exact hne (hrun ▸ hend)
        | _ => simp [run, hend, Ending.map] at hrun
      | _ => cases hgone.1
    · have hgone : op.isCancel = true → orderGone e = false := fun hcancel => by simpa [hcancel] using hgone
      rw [run_of_restCall_error hgate hrest hgone]
      exact refused_ne_transportError he message
  | ok orderId =>
    cases op with
    | submitPostOnlyLimit =>
      simp only [restCall] at hrest
      simp [run, ExecutionGateway.submitPostOnlyLimit, ExecutionGateway.requireEventStream, hgate rfl, hrest,
        Ending.map]
    | amendPrice =>
      simp only [restCall] at hrest
      simp [run, ExecutionGateway.amendPrice, ExecutionGateway.requireEventStream, hgate rfl, hrest, Ending.map]
    | cancel =>
      simp only [restCall] at hrest
      simp [run, ExecutionGateway.cancel, hrest, Ending.map]
    | submitReduceOnlyMarket =>
      simp only [restCall] at hrest
      simp [run, ExecutionGateway.submitReduceOnlyMarket, hrest, Ending.map]

/-- **What an order operation rests on.** The request it sends is a run of the event loop. Either one of the
operations before the closing failed or was late, and then the caller gets the `TransportError` that names the
target, as it was thrown; or the response came whole, each operation in time, and then the caller never gets one:
what it gets was read off that response. -/
theorem outcome_answered (gw : ExecutionGateway) (op : OrderOp) (hgate : op.isGated = true → gw.isLive = true)
    (steps : ℚ × ℚ)
    (hfound : op.isCancel = false → gw.rest.findPricePrecisionsForInstrument .linear op.symbol = .ok (some steps))
    (target : String) (timeoutMs lastSuccessMs : ℤ) (r : Req)
    (h : (Http.request target timeoutMs lastSuccessMs).Reach System.Free r)
    (hsend : r.ended = some (gw.rest.send 0 (op.request gw steps))) :
    (∃ message, r.Ended target lastSuccessMs (.error (.transportError message)) ∧
        op.run gw = .rethrown (.transportError message)) ∨
      ∃ response, r.Ended target lastSuccessMs (.ok response) ∧
        op.restCall gw = gw.rest.orderId (.ok response) ∧
        ∀ message, op.run gw ≠ .rethrown (.transportError message) := by
  have hended : r.Ended target lastSuccessMs (gw.rest.send 0 (op.request gw steps)) := by
    simpa only [Req.Known, hsend] using known_of_reach h
  have hcall := restCall_of_found hfound
  cases hreply : gw.rest.send 0 (op.request gw steps) with
  | error e =>
    rw [hreply] at hended hcall
    have hmessage : ∃ message, e = .transportError message := by
      obtain ⟨-, -, -, what, -, -, -, -, -, -, he⟩ := hended
      exact ⟨_, he⟩
    obtain ⟨message, rfl⟩ := hmessage
    left
    refine ⟨message, hended, ?_⟩
    rw [run_of_restCall_error hgate hcall (fun _ => rfl)]
    rfl
  | ok response =>
    rw [hreply] at hended hcall
    right
    refine ⟨response, hended, hcall, ?_⟩
    intro message
    apply run_ne_transportError _ hgate
    intro message hfail
    exact answer_ne_transportError (hcall.symm.trans hfail)

/-- A live gateway all of whose requests fail so. -/
def failing (e : Exception) : ExecutionGateway where
  rest := {
    lib := ⟨fun _ => none, fun _ _ => ""⟩
    send := fun _ _ => .error e
    findPricePrecisionsForInstrument := fun _ _ => .ok (some (1 / 10, 1 / 1000))
    execution := fun _ => .error .type
    orders := fun _ => .error .type }
  positionIdx := 0
  isLive := true
  fillCB := true
  format := fun _ => ""

/-- The order was written, and its answer was complete just after the timer. -/
theorem outcome_answered_late : ∃ (gw : ExecutionGateway) (r : Req) (message : String), r.parsed.isSome ∧
    r.Ended "/v5/order/create" 7 (.error (.transportError message)) ∧
    (OrderOp.submitPostOnlyLimit "id" "BTCUSDT" .Buy 1 50000 false).run gw = .rethrown (.transportError message) := by
  let e : Exception := .transportError "Transport failure for /v5/order/create: Connection timed out"
  obtain ⟨r, hr, hparsed, hended⟩ := System.Reach.exists_of_exec (S := Http.request "/v5/order/create" 15000 7)
    (C := System.Free)
    (l := (List.replicate 4 (completes none)).flatten ++
      [.complete none (some (HttpResponse.ok "OK")), .expire, .runTimer, .runOperation, .leave 0])
    (P := fun r => r.parsed.isSome = true ∧ r.ended.map (Except.map fun _ => ()) =
      some (.error (.transportError "Transport failure for /v5/order/create: Connection timed out")))
    (by decide +kernel)
  obtain ⟨result, hresult, herror⟩ := Option.map_eq_some_iff.1 hended
  cases result with
  | ok response => cases herror
  | error e' =>
    have he : e' = e := Except.error.inj herror
    have hsend : r.ended = some ((failing e).rest.send 0 ((OrderOp.submitPostOnlyLimit "id" "BTCUSDT" .Buy 1 50000
        false).request (failing e) (1 / 10, 1 / 1000))) := by
      rw [hresult, he]
      rfl
    obtain ⟨message, hfailed, hrun⟩ | ⟨response, -, -, hrun⟩ := outcome_answered (failing e)
      (.submitPostOnlyLimit "id" "BTCUSDT" .Buy 1 50000 false) (fun _ => rfl) (1 / 10, 1 / 1000) (fun _ => rfl)
      "/v5/order/create" 15000 7 r hr hsend
    · exact ⟨failing e, r, message, hparsed, hfailed, hrun⟩
    · exact absurd rfl (hrun "Transport failure for /v5/order/create: Connection timed out")

end OrderOp

end BybitApi.Gateway
