import BybitApi.Session.Books

/-!
# The state of a session

`World` is the state of `WebSocketSession::P` together with what the io_context holds for it: the
tasks posted to the strand, the asynchronous operations that are outstanding, and the streams that
have a control callback.

* A handler runs to its end on the strand before the next one starts. It enters `locker` for the
  books at most once, and the outbound queue is used on the strand only, so a call from another
  thread, whose one section under `locker` touches nothing but the books, comes before or after a
  handler as far as either of them can tell.
* `tasks` are the tasks posted to the strand, or about to be posted by a call that is past its
  locked section. They run in any order, which includes the strand's own.
* `pending` are the operations whose completion handler has not run: still in progress, or completed
  and queued.
* `trace` is history, latest event first. No handler reads it; what is proved about runs is stated
  over it.

Left out: `host`, `port`, `path`, `hostHeader`, `ctx` and `resolver`, which only name the endpoint,
the inbound `buffer`, whose content comes with the completion of a read, and the texts of log lines.
-/

namespace BybitApi.Session

def pingIntervalInS : ℕ := 20

/-- Reconnect when no pong arrived for this long. -/
def pongTimeoutInS : ℕ := 3 * pingIntervalInS

def reconnectDelayMaxInS : ℕ := 30

def authExpiresOffsetInMs : ℕ := 5000

def authAckTimeoutInS : ℕ := 15

/-- The two clocks a handler reads. -/
structure Clock where
  /-- `steady_clock::now()` in ms. -/
  steady : ℕ
  /-- `getMsTimestamp(currentTime())`. -/
  wall : ℕ
  deriving DecidableEq

/-- The payloads handed to `enqueueOp`. The HMAC is not computed: a signature is the secret and the
text it signs. -/
inductive Op where
  | auth (apiKey : String) (expires : ℕ) (sign : String × String)
  | subscribe (args : List Topic) (reqId : ReqId)
  | unsubscribe (args : List Topic)
  | ping
  deriving DecidableEq

/-- Every string of the payload is UTF-8, so that `dump()` does not throw. -/
def Op.isUtf8 : Op → Bool
  | subscribe args _ | unsubscribe args => args.all StdString.isUtf8
  | auth _ _ _ | ping => true

def Op.isAuth : Op → Bool
  | auth _ _ _ => true
  | _ => false

def Op.isSubscribe : Op → Bool
  | subscribe _ _ => true
  | _ => false

/-- A queued payload. `conn` is history: the generation it was enqueued in. -/
structure Frame where
  conn : ℕ
  op : Op
  deriving DecidableEq

/-- The Beast stream: which `startConnect` made it, and `is_open()`. -/
structure Stream where
  gen : ℕ
  isOpen : Bool
  deriving DecidableEq

/-- The stream after its WebSocket handshake. -/
def Stream.opened (ws : Stream) : Stream := { ws with isOpen := true }

/-- The stream out of its open state. -/
def Stream.closed (ws : Stream) : Stream := { ws with isOpen := false }

/-- The tasks posted to the strand. -/
inductive Task where
  | startConnect
  | flushTopics
  | sendUnsubscribe (topic : Topic)
  | closeByUser
  deriving DecidableEq

/-- The operations that complete on the strand. -/
inductive Kind where
  | resolve | connect | sslHandshake | handshake | read | write | pingTimer | reconnectTimer | close
  deriving DecidableEq

/-- The four operations of the connect chain. -/
def Kind.isChain : Kind → Bool
  | resolve | connect | sslHandshake | handshake => true
  | _ => false

/-- The two timer waits. -/
def Kind.isTimer : Kind → Bool
  | pingTimer | reconnectTimer => true
  | _ => false

/-- An operation whose completion handler has not run. The handler captured `gen`; `cancelled` says
that the timer the operation waits for was cancelled or set anew. -/
structure Pending where
  kind : Kind
  gen : ℕ
  cancelled : Bool
  deriving DecidableEq

/-- History. -/
inductive Event where
  /-- `startConnect` began a generation. -/
  | started (gen : ℕ)
  /-- `handleError` tore the generation down and armed a reconnect. -/
  | teardown (gen delayS : ℕ)
  /-- `addTopic`, whether or not the topic was new. -/
  | requested (topic : Topic)
  /-- `removeTopic`, whether or not the topic was there. -/
  | removed (topic : Topic)
  | enqueued (frame : Frame)
  /-- A frame was handed to `async_write` on the stream of `gen`. -/
  | written (gen : ℕ) (frame : Frame)
  /-- An auth ack was processed. -/
  | authAck (gen : ℕ) (success : Bool)
  /-- A subscribe ack was processed: the venue's answer to the op `reqId` of connection `gen`. -/
  | answered (gen : ℕ) (reqId : ReqId) (success : Bool)
  deriving DecidableEq

/-- The connection whose traffic an event is. -/
def Event.conn? : Event → Option ℕ
  | .enqueued frame => some frame.conn
  | .written gen _ | .authAck gen _ | .answered gen _ _ => some gen
  | _ => none

/-- The subscribe ops of connection `gen` the venue has not answered, in the order they were
enqueued. The venue answers the ops of a connection in request order, so an answer is to the first
of them. -/
def unanswered (gen : ℕ) : List Event → List (ReqId × List Topic)
  | [] => []
  | .enqueued ⟨conn, .subscribe args reqId⟩ :: trace =>
    if conn = gen then unanswered gen trace ++ [(reqId, args)] else unanswered gen trace
  | .answered conn _ _ :: trace => if conn = gen then (unanswered gen trace).tail else unanswered gen trace
  | _ :: trace => unanswered gen trace

structure World where
  apiKey : String
  apiSecret : String
  authRequired : Bool
  ws : Option Stream
  outboundQueue : List Frame
  writeInFlight : Bool
  writeBuffer : Option Frame
  books : Books
  reconnectDelayS : ℕ
  generation : ℕ
  connected : Bool
  authenticated : Bool
  authenticatedFlag : Bool
  reconnectScheduled : Bool
  userClosed : Bool
  lastPongTime : ℕ
  /-- `none` is `time_point::max()`. -/
  authDeadline : Option ℕ
  /-- `run()` was called. -/
  ran : Bool
  tasks : List Task
  pending : List Pending
  /-- The generations whose stream got a control callback. -/
  controlCallbacks : List ℕ
  trace : List Event

/-- A session after its constructor and, where there are credentials, `setCredentials`. The API key is
text, so the auth op can be dumped. -/
def World.init (apiKey apiSecret : String) : World where
  apiKey := apiKey
  apiSecret := apiSecret
  authRequired := apiKey ≠ "" && apiSecret ≠ ""
  ws := none
  outboundQueue := []
  writeInFlight := false
  writeBuffer := none
  books := .empty
  reconnectDelayS := 1
  generation := 0
  connected := false
  authenticated := false
  authenticatedFlag := false
  reconnectScheduled := false
  userClosed := false
  lastPongTime := 0
  authDeadline := none
  ran := false
  tasks := []
  pending := []
  controlCallbacks := []
  trace := []

namespace World

def log (e : Event) (w : World) : World := { w with trace := e :: w.trace }

/-- Post a task to the strand. -/
def post (t : Task) (w : World) : World := { w with tasks := w.tasks ++ [t] }

/-- Start an operation with a completion handler that captures the current generation. -/
def start (k : Kind) (w : World) : World := { w with pending := w.pending ++ [⟨k, w.generation, false⟩] }

/-- `timer.cancel()`: waits that have not expired complete with `operation_aborted`; one that has
expired and is queued still completes as it would have. -/
def cancel (k : Kind) (w : World) : World :=
  { w with pending := w.pending.map fun p => if p.kind = k then { p with cancelled := true } else p }

/-- `timer.expires_after(..)` and `timer.async_wait(..)`; setting the expiry cancels the waits there
are. -/
def arm (k : Kind) (w : World) : World := (w.cancel k).start k

/-- The task `t` is about to run. -/
def begin (w : World) (t : Task) : World := { w with tasks := w.tasks.erase t }

/-- The completion handler of `p` is about to run. -/
def taken (w : World) (p : Pending) : World := { w with pending := w.pending.erase p }

end World

end BybitApi.Session
