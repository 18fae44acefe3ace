import BybitApi.Session.Step

/-!
# The WebSocket client

`WebSocketClient`, as far as its session goes: the first `subscribe` makes the session and runs it,
and every later call is passed on to it. Each call holds `clientLocker`, so it is one step.

Left out: the io_context and its thread, which are what runs the tasks and completions of the
session, the endpoint, and the callbacks.
-/

namespace BybitApi

open Session

structure Client where
  apiKey : String
  apiSecret : String
  session : Option World

namespace Client

def init (apiKey apiSecret : String) : Client := ⟨apiKey, apiSecret, none⟩

/-- The session that `subscribe` makes. It gets the credentials where both are set. -/
def newSession (c : Client) : World :=
  if c.apiKey ≠ "" && c.apiSecret ≠ "" then World.init c.apiKey c.apiSecret else World.init "" ""

/-- `run` throws on an empty filter; the session is there all the same, and does not run. -/
def subscribe (subscriptionFilter : Topic) (c : Client) : Client × Except String Unit :=
  match c.session with
  | some w => ({ c with session := some (w.subscribe subscriptionFilter) }, .ok ())
  | none =>
    if subscriptionFilter = "" then
      ({ c with session := some c.newSession }, .error "SubscriptionFilter cannot be empty")
    else ({ c with session := some (c.newSession.run subscriptionFilter) }, .ok ())

def unsubscribe (subscriptionFilter : Topic) (c : Client) : Client :=
  { c with session := c.session.map (World.unsubscribe subscriptionFilter) }

def isSubscribed (subscriptionFilter : Topic) (c : Client) : Bool :=
  c.session.any (World.isSubscribed subscriptionFilter)

def isSubscriptionConfirmed (subscriptionFilter : Topic) (c : Client) : Bool :=
  c.session.any (World.isSubscriptionConfirmed subscriptionFilter)

def isAuthenticated (c : Client) : Bool := c.session.any World.isAuthenticated

end Client

end BybitApi
