import BybitApi.Json
import BybitApi.Session.State

/-!
# The handlers of a session

`WebSocketSession::P`, function by function. `gen` is the generation a completion handler captured;
the guard `gen != generation` stands in `completion`, where the source has it in the lambda, except
for the ping timer, which has it in `onPingTimer`.

The functions that call `dump()` on what they were given can throw. What they did before stays done
(`Ended`); `onRead` catches the exception, every other one leaves the handler.
-/

namespace BybitApi.Session

/-- The session as a function leaves it, by returning or by throwing. -/
structure Ended where
  world : World
  threw : Bool

/-! ## Op acks -/

def isApiControlMsg (json : Json) : Bool :=
  (json.contains "success" || json.contains "op") && !json.contains "topic"

/-- The fields of an op ack. -/
structure Ack where
  operation : String
  success : Bool
  retMsg : String
  reqId : ReqId
  deriving DecidableEq

/-- The reads of `handleApiControlMsg`; `req_id` is read of a subscribe ack only. All of them come
before the first write, so a type error leaves the session as it was. -/
def readAck (json : Json) : Except JsonError Ack := do
  let operation ← json.readValue Json.getString "op" ""
  let success ← json.readValue Json.getBool "success" true
  let retMsg ← json.readValue Json.getString "ret_msg" ""
  if operation = "subscribe" && retMsg ≠ "pong" then
    let reqId ← json.readValue Json.getString "req_id" ""
    return ⟨operation, success, retMsg, reqId⟩
  else
    return ⟨operation, success, retMsg, ""⟩

namespace World

/-! ## Outbound write pump -/

def enqueueOp (op : Op) (w : World) : World :=
  let frame : Frame := ⟨w.generation, op⟩
  { w with outboundQueue := w.outboundQueue ++ [frame] }.log (.enqueued frame)

def pump (w : World) : World :=
  match w.ws, w.outboundQueue with
  | some ws, frame :: rest =>
    if w.writeInFlight || !w.connected || !ws.isOpen then w
    else
      ({ w with outboundQueue := rest, writeBuffer := some frame, writeInFlight := true }.start .write).log
        (.written ws.gen frame)
  | _, _ => w

/-- `enqueueOp(json.dump()); pump(self);` -/
def sendOp (op : Op) (w : World) : Ended :=
  if op.isUtf8 then ⟨(w.enqueueOp op).pump, false⟩ else ⟨w, true⟩

/-! ## Topic bookkeeping -/

def addTopic (topic : Topic) (w : World) : World :=
  { w with books := w.books.addTopic topic }.log (.requested topic)

/-- The section of `flushTopics` under `locker`. -/
def flushBooks (w : World) : World := { w with books := w.books.flush }

/-- The op of `flushTopics`. -/
def subscribeOp (w : World) : Op := .subscribe w.books.pendingTopics w.books.nextReqId

/-- The books are changed before `dump()` can throw. -/
def flushTopics (w : World) : Ended :=
  if !w.connected || (w.authRequired && !w.authenticated) then ⟨w, false⟩
  else if w.books.pendingTopics = [] then ⟨w, false⟩
  else w.flushBooks.sendOp w.subscribeOp

/-! ## Error, reconnect, close -/

/-- The assignments of `handleError`. The socket is closed too; the operations on it may fail in any
case. -/
def takeDown (w : World) : World :=
  { w with
    reconnectScheduled := true
    connected := false
    authenticated := false
    authenticatedFlag := false
    writeInFlight := false
    authDeadline := none
    outboundQueue := []
    books := w.books.replay
    reconnectDelayS := min (w.reconnectDelayS * 2) reconnectDelayMaxInS }.log
      (.teardown w.generation w.reconnectDelayS)

/-- `handleError` past its guards. -/
def teardown (w : World) : World := (w.takeDown.cancel .pingTimer).arm .reconnectTimer

def handleError (gen : ℕ) (w : World) : World :=
  if gen ≠ w.generation || w.reconnectScheduled then w
  else if w.userClosed then w
  else w.teardown

/-- `closeByUser`: the flag and the timers. The resolver is cancelled too; a resolve may fail in any
case. -/
def setClosed (w : World) : World :=
  ({ w with userClosed := true }.cancel .pingTimer).cancel .reconnectTimer

/-- `closeByUser`: the stream. `async_close` takes it out of its open state; dropping the transport
does not. -/
def closeStream (w : World) : World :=
  match w.ws with
  | none => w
  | some ws => if ws.isOpen && !w.writeInFlight then { w with ws := some ws.closed }.start .close else w

def closeByUser (w : World) : World := if w.userClosed then w else w.setClosed.closeStream

/-! ## Auth -/

def sendAuth (now : Clock) (w : World) : World :=
  let expires := now.wall + authExpiresOffsetInMs
  ({ w with authDeadline := some (now.steady + authAckTimeoutInS * 1000) }.enqueueOp
    (.auth w.apiKey expires (w.apiSecret, s!"GET/realtime{expires}"))).pump

/-! ## Connect chain -/

/-- The assignments of `startConnect`. -/
def nextGeneration (w : World) : World :=
  { w with
    generation := w.generation + 1
    connected := false
    authenticated := false
    authenticatedFlag := false
    writeInFlight := false
    authDeadline := none
    ws := some ⟨w.generation + 1, false⟩ }.log (.started (w.generation + 1))

def startConnect (w : World) : World := if w.userClosed then w else w.nextGeneration.start .resolve

def onResolve (gen : ℕ) (ec : Bool) (w : World) : World :=
  if ec then w.handleError gen else w.start .connect

/-- `sni` is the result of `SSL_set_tlsext_host_name`. -/
def onConnect (gen : ℕ) (ec sni : Bool) (w : World) : World :=
  if ec then w.handleError gen else if !sni then w.handleError gen else w.start .sslHandshake

/-- `ws->control_callback(..)`. -/
def setControlCallback (w : World) : World :=
  { w with controlCallbacks := w.controlCallbacks ++ [w.generation] }

def onSSLHandshake (gen : ℕ) (ec : Bool) (w : World) : World :=
  if ec then w.handleError gen else w.setControlCallback.start .handshake

/-- The first part of `onHandshake`. The stream is open once its handshake has succeeded. -/
def setConnected (now : Clock) (w : World) : World :=
  { w with
    ws := w.ws.map Stream.opened
    connected := true
    lastPongTime := now.steady }.arm .pingTimer

/-- `onHandshake` up to the first read. -/
def goUp (now : Clock) (w : World) : Ended :=
  if w.authRequired then ⟨(w.setConnected now).sendAuth now, false⟩ else (w.setConnected now).flushTopics

/-- No read is started after an exception. -/
def onHandshake (gen : ℕ) (ec : Bool) (now : Clock) (w : World) : Ended :=
  if ec then ⟨w.handleError gen, false⟩
  else if w.userClosed then ⟨{ w with ws := w.ws.map Stream.opened }, false⟩
  else if (w.goUp now).threw then w.goUp now
  else ⟨(w.goUp now).world.start .read, false⟩

/-! ## Inbound -/

/-- History only: the answer of the venue that a subscribe ack stands for. -/
def noteAnswer (gen : ℕ) (success : Bool) (w : World) : World :=
  match unanswered gen w.trace with
  | [] => w
  | op :: _ => w.log (.answered gen op.1 success)

/-- The assignments on a success auth ack. -/
def setAuthenticated (gen : ℕ) (w : World) : World :=
  { w with
    authenticated := true
    authenticatedFlag := true
    authDeadline := none
    reconnectDelayS := 1 }.log (.authAck gen true)

/-- The auth branch of `handleApiControlMsg` on a success ack. -/
def authAccepted (gen : ℕ) (w : World) : Ended := (w.setAuthenticated gen).flushTopics

def handleAck (gen : ℕ) (now : Clock) (ack : Ack) (w : World) : Ended :=
  if ack.operation = "pong" || ack.retMsg = "pong" then ⟨{ w with lastPongTime := now.steady }, false⟩
  else if ack.operation = "auth" then
    if ack.success then w.authAccepted gen else ⟨(w.log (.authAck gen false)).handleError gen, false⟩
  else if ack.operation = "subscribe" then
    ⟨{ w with books := w.books.ackSubscribe ack.success ack.reqId }.noteAnswer gen ack.success, false⟩
  else ⟨w, false⟩

def handleApiControlMsg (gen : ℕ) (now : Clock) (json : Json) (w : World) : Ended :=
  match readAck json with
  | .error _ => ⟨w, true⟩
  | .ok ack => w.handleAck gen now ack

theorem handleApiControlMsg_error {json : Json} {e : JsonError} (h : readAck json = .error e) (gen : ℕ)
    (now : Clock) (w : World) : w.handleApiControlMsg gen now json = ⟨w, true⟩ := by
  unfold handleApiControlMsg
  rw [h]

theorem handleApiControlMsg_ok {json : Json} {ack : Ack} (h : readAck json = .ok ack) (gen : ℕ)
    (now : Clock) (w : World) : w.handleApiControlMsg gen now json = w.handleAck gen now ack := by
  unfold handleApiControlMsg
  rw [h]

/-- The end of `onRead`: the backoff reset and the next `async_read`. -/
def readAgain (gen : ℕ) (w : World) : World :=
  if gen ≠ w.generation || w.reconnectScheduled || !w.connected then w
  else (if !w.authRequired || w.authenticated then { w with reconnectDelayS := 1 } else w).start .read

/-- `onRead` after a control message: the catch clause, or the next read. -/
def afterControlMsg (gen : ℕ) (ended : Ended) : World :=
  if ended.threw then ended.world.handleError gen else ended.world.readAgain gen

/-- `json` is the frame parsed, `none` where `json::parse` throws. What the data callback does with
an event is outside the session; whatever it throws is caught and logged. -/
def onRead (gen : ℕ) (ec : Bool) (json : Option Json) (now : Clock) (w : World) : World :=
  if ec then w.handleError gen
  else
    match json with
    | none => w.handleError gen
    | some json =>
      if json.isObject && isApiControlMsg json then
        afterControlMsg gen (w.handleApiControlMsg gen now json)
      else w.readAgain gen

/-! ## Heartbeat -/

/-- `sincePong`: `duration_cast<seconds>` rounds towards zero. -/
def sincePong (now : Clock) (w : World) : ℕ := (now.steady - w.lastPongTime) / 1000

def onPingTimer (gen : ℕ) (ec : Bool) (now : Clock) (w : World) : World :=
  if ec || gen ≠ w.generation then w
  else if w.userClosed then w
  else if w.connected then
    if w.sincePong now > pongTimeoutInS then w.handleError gen
    else if w.authRequired && !w.authenticated && w.authDeadline.any (· < now.steady) then w.handleError gen
    else (w.enqueueOp .ping).pump.arm .pingTimer
  else w.arm .pingTimer

/-! ## The remaining completion handlers -/

def writeDone (w : World) : World := { w with writeInFlight := false }

def onWrite (gen : ℕ) (ec : Bool) (w : World) : World :=
  if ec then w.writeDone.handleError gen else w.writeDone.pump

def unschedule (w : World) : World := { w with reconnectScheduled := false }

def onReconnectTimer (ec : Bool) (w : World) : World :=
  if ec || w.userClosed then w.unschedule else w.unschedule.startConnect

/-- The callback for control frames. It captures no generation. -/
def controlCallback (isPong : Bool) (now : Clock) (w : World) : World :=
  if isPong then { w with lastPongTime := now.steady } else w

/-! ## The public calls and the tasks they post -/

def subscribe (topic : Topic) (w : World) : World := (w.addTopic topic).post .flushTopics

def removeTopic (topic : Topic) (w : World) : World :=
  { w with books := (w.books.removeTopic topic).2 }.log (.removed topic)

def unsubscribe (topic : Topic) (w : World) : World :=
  if (w.books.removeTopic topic).1 then (w.removeTopic topic).post (.sendUnsubscribe topic)
  else w.removeTopic topic

/-- The task `unsubscribe` posts. -/
def sendUnsubscribe (topic : Topic) (w : World) : Ended :=
  if !w.connected then ⟨w, false⟩ else w.sendOp (.unsubscribe [topic])

def run (subscriptionFilter : Topic) (w : World) : World :=
  ({ w with ran := true }.addTopic subscriptionFilter).post .startConnect

def isAuthenticated (w : World) : Bool := w.authenticatedFlag

def isSubscribed (topic : Topic) (w : World) : Bool := w.books.isSubscribed topic

def isSubscriptionConfirmed (topic : Topic) (w : World) : Bool := w.books.isSubscriptionConfirmed topic

/-- The exception of a task leaves `ioContext.run()`; the session stays as the task left it. -/
def runTask (t : Task) (w : World) : Ended :=
  match t with
  | .startConnect => ⟨w.startConnect, false⟩
  | .flushTopics => w.flushTopics
  | .sendUnsubscribe topic => w.sendUnsubscribe topic
  | .closeByUser => ⟨w.closeByUser, false⟩

end World

/-! ## Completions -/

/-- How an operation ends. -/
inductive Result where
  /-- With an error code. -/
  | failed
  | done
  /-- A connect that succeeds, where `SSL_set_tlsext_host_name` then fails. -/
  | sniRefused
  /-- A read, with the frame parsed. -/
  | frame (json : Option Json)

namespace Result

def ec : Result → Bool
  | failed => true
  | _ => false

def sni : Result → Bool
  | sniRefused => false
  | _ => true

def json : Result → Option Json
  | frame json => json
  | _ => none

/-- Which results an operation can have. A timer wait fails only when it was cancelled. -/
def fits (p : Pending) : Result → Bool
  | failed => !p.kind.isTimer || p.cancelled
  | done => p.kind ≠ .read
  | sniRefused => p.kind = .connect
  | frame _ => p.kind = .read

end Result

/-- The completion handler that an operation of kind `kind` registered in generation `gen`. Only that
of the handshake can end with an exception; it leaves `ioContext.run()`, as that of a task does. -/
def completion (kind : Kind) (gen : ℕ) (r : Result) (now : Clock) (w : World) : World :=
  match kind with
  | .resolve => if gen ≠ w.generation then w else w.onResolve gen r.ec
  | .connect => if gen ≠ w.generation then w else w.onConnect gen r.ec r.sni
  | .sslHandshake => if gen ≠ w.generation then w else w.onSSLHandshake gen r.ec
  | .handshake => if gen ≠ w.generation then w else (w.onHandshake gen r.ec now).world
  | .read => if gen ≠ w.generation then w else w.onRead gen r.ec r.json now
  | .write => if gen ≠ w.generation then w else w.onWrite gen r.ec
  | .pingTimer => w.onPingTimer gen r.ec now
  | .reconnectTimer => if gen ≠ w.generation then w else w.onReconnectTimer r.ec
  | .close => w

end BybitApi.Session
