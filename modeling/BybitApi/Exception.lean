import BybitApi.Lib.Text

/-!
# Exceptions

What the REST client and the execution gateway throw. `UnknownOutcomeError` is the base of two of
these classes. An exception of another library that derives from `std::exception` is a `json` or a
`runtimeError`: no code of the repository tells it from those.
-/

namespace BybitApi

/-- The kinds of `RejectKind` that the gateway gives. -/
inductive RejectKind where
  | benignPostOnlyCross | minNotional | throttled | positionClosed | permanent | hard
  deriving DecidableEq

inductive Exception where
  | transportError (message : String)
  | executionUnknown (message : String)
  | orderNotFound (message : String)
  | runtimeError (message : String)
  /-- `nlohmann::json::exception`. -/
  | json (message : String)
  | gatewayError (kind : RejectKind) (message : String)
  deriving DecidableEq

namespace Exception

def message : Exception → String
  | transportError m | executionUnknown m | orderNotFound m | runtimeError m | json m | gatewayError _ m => m

/-- `e.what()`, made a `std::string` again by the function it is passed to. -/
def what (e : Exception) : String := Lib.shown e.message

/-- It derives from `UnknownOutcomeError`. -/
def isUnknownOutcome : Exception → Bool
  | transportError _ | executionUnknown _ => true
  | _ => false

end Exception

end BybitApi
