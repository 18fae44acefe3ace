import Mathlib.Algebra.Order.Ring.Rat

/-!
# JSON values and the `readValue` helpers

A value as `nlohmann::json` holds it after parsing. The parser and `stonky/utils/json_utils.h` are
not part of the repository: a text that does not parse is a missing value (`none`) where the
handlers take one, and `readValue` is modelled by what the handlers rely on. An absent key leaves
the target as it is, a value of another type raises nlohmann's `type_error`. Every exception of the
library is caught as `nlohmann::json::exception`, so one constructor for each of the two kinds is
enough.
-/

namespace BybitApi

/-- A JSON value. An object keeps its members in a list; nlohmann's map has each key once. -/
inductive Json where
  | null
  | bool (b : Bool)
  | num (q : ℚ)
  | str (s : String)
  | arr (elements : List Json)
  | obj (members : List (String × Json))

/-- `nlohmann::json::exception`. -/
inductive JsonError where
  | parse | type
  deriving DecidableEq

namespace Json

def isObject : Json → Bool
  | obj _ => true
  | _ => false

/-- `json.find(key)`; only an object has members. -/
def find? (key : String) : Json → Option Json
  | obj members => (members.find? fun m => m.1 = key).map Prod.snd
  | _ => none

def contains (json : Json) (key : String) : Bool := (json.find? key).isSome

/-- `get<std::string>()`. -/
def getString : Json → Except JsonError String
  | str s => .ok s
  | _ => .error .type

/-- `get<bool>()`. -/
def getBool : Json → Except JsonError Bool
  | bool b => .ok b
  | _ => .error .type

/-- nlohmann holds the number as an integer of 64 bits; any other one is a `double`. -/
def isInteger (q : ℚ) : Bool := q.den = 1 && -2 ^ 63 ≤ q.num && q.num < 2 ^ 64

/-- `static_cast` of a number to a signed type of so many values. An integer is wrapped. A `double` is cut
towards zero; out of range the language leaves it undefined, and x86-64 gives the lowest value. -/
def toSigned (size : Nat) (q : ℚ) : Int :=
  if isInteger q then Int.bmod q.num size
  else
    let cut := q.num.tdiv q.den
    if -(size / 2 : Int) ≤ cut ∧ cut < size / 2 then cut else -(size / 2 : Int)

example : toSigned UInt32.size 4294977296 = 10000 ∧ toSigned UInt32.size (20033 / 2) = 10016 ∧
    toSigned UInt32.size (8589954593 / 2) = -2147483648 := by decide +kernel

/-- `get<int>()`; it takes a boolean for a number. -/
def getInt : Json → Except JsonError Int
  | num q => .ok (toSigned UInt32.size q)
  | bool b => .ok (if b then 1 else 0)
  | _ => .error .type

/-- `get<std::int64_t>()`. -/
def getInt64 : Json → Except JsonError Int
  | num q => .ok (toSigned UInt64.size q)
  | _ => .error .type

/-- `readValue<T>(json, key, target)`, `get` being the conversion to `T`. -/
def readValue {α : Type} (get : Json → Except JsonError α) (json : Json) (key : String) (target : α) :
    Except JsonError α :=
  match json.find? key with
  | some v => get v
  | none => .ok target

@[simp] theorem readValue_none {α : Type} {get : Json → Except JsonError α} {json : Json} {key : String}
    {target : α} (h : json.find? key = none) : readValue get json key target = .ok target := by
  simp [readValue, h]

@[simp] theorem readValue_some {α : Type} {get : Json → Except JsonError α} {json v : Json} {key : String}
    {target : α} (h : json.find? key = some v) : readValue get json key target = get v := by
  simp [readValue, h]

end Json

end BybitApi
