import BybitApi.Exception

/-!
# Reading a reject reason

The gateway gets an error of the REST layer as its text and finds out from the text what happened.
-/

namespace BybitApi.Gateway

open Lib

/-- `r.find(pattern) != npos`, `r` being the reason in lower case. -/
def mentions (reason pattern : String) : Bool := decide (pattern.toList <:+: toLower reason.toList)

/-- The number behind the first `code: `. -/
def extractRetCode (reason : String) : Option Int := (behind "code: ".toList reason.toList).map strtol

def classifyRetCode : Int → Option RejectKind
  | 30208 => some .benignPostOnlyCross
  | 110094 => some .minNotional
  | 10006 => some .throttled
  | 110017 => some .positionClosed
  | 10029 | 30228 | 110087 => some .permanent
  | _ => none

/-- The patterns of `classifyRejectReason`, in the order of its tests. -/
def rejectTexts : List (List String × RejectKind) := [
  (["postonly", "post only", "post-only", "take liquidity", "takeliquidity"], .benignPostOnlyCross),
  (["minimum order value", "min notional", "min size", "exceeded lower limit"], .minNotional),
  (["too many visits", "rate limit"], .throttled),
  (["reduce-only rule", "reduce only rule", "position is zero"], .positionClosed),
  (["sign the required agreement", "unmatched ip", "delisting", "no new positions", "position idx", "position mode",
    "whitelist"], .permanent)]

def classifyRejectText (reason : String) : RejectKind :=
  ((rejectTexts.find? fun row => row.1.any (mentions reason)).map Prod.snd).getD .hard

/-- The number decides where there is one that it knows, and else the text. -/
def classifyRejectReason (reason : String) : RejectKind :=
  ((extractRetCode reason).bind classifyRetCode).getD (classifyRejectText reason)

/-- 110001 order does not exist, 110008 already finished, 110010 already cancelled. -/
def isOrderGoneCode (code : Int) : Bool := code = 110001 || code = 110008 || code = 110010

def orderGoneTexts : List String := ["order not exists", "too late", "order does not exist", "110001"]

def isOrderGoneText (reason : String) : Bool := orderGoneTexts.any (mentions reason)

def isOrderGoneReason (reason : String) : Bool :=
  (extractRetCode reason).any isOrderGoneCode || isOrderGoneText reason

def isAmbiguousOutcomeReason (reason : String) : Bool :=
  mentions reason "code: 10000" || mentions reason "code: 10016" || mentions reason "bad response, code 5"

end BybitApi.Gateway
