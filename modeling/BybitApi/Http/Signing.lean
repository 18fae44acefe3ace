import BybitApi.Json
import BybitApi.Lib.Index
import BybitApi.Lib.Query
import Mathlib.Data.List.TakeWhile

/-!
# Signed requests

What `HTTPSession` signs. A `get` carries the signature in its headers, over the timestamp, the key, the
window and the query of the target, so over its parameters but not over its path; a `post` carries it in
its body, over a rendering of the body. What was signed can be read off what is sent, with one exception:
a member `sign` of the caller's is signed and then written over.
-/

namespace BybitApi.Http

open Lib

/-- `HTTPSession::P`, as far as it signs: `hmac` is the hex of HMAC-SHA256 of a secret and a text, and the
rendering of a body is the one of stonky/utils. -/
structure Signer where
  apiKey : String
  apiSecret : String
  hmac : String → String → String
  queryStringFromJson : Json → String

def receiveWindow : ℤ := 5000

/-- The parameters come in the order of their keys. -/
def createQueryStr (parameters : List (String × String)) : String :=
  let queryStr := parameters.foldl (fun queryStr (fst, snd) => queryStr ++ fst ++ "=" ++ snd ++ "&") ""
  if queryStr = "" then queryStr else String.ofList queryStr.toList.dropLast

def finalPath (path : String) (parameters : List (String × String)) : String :=
  let queryString := createQueryStr parameters
  if queryString = "" then path else path ++ "?" ++ queryString

structure GetRequest where
  target : String
  headers : List (String × String)

/-- Behind the first question mark. -/
def queryOf (target : String) : String :=
  match find target.toList '?' 0 with
  | none => ""
  | some pos => String.ofList (substr target.toList (pos + 1) none)

namespace Signer

variable (s : Signer)

def parameterString (ts : ℤ) (target : String) : String :=
  toString ts ++ s.apiKey ++ toString receiveWindow ++ queryOf target

/-- Without a key nothing is signed. -/
def authenticateNonPost (ts : ℤ) (target : String) : List (String × String) :=
  if s.apiKey = "" then []
  else [("X-BAPI-API-KEY", s.apiKey), ("X-BAPI-SIGN", s.hmac s.apiSecret (s.parameterString ts target)),
    ("X-BAPI-SIGN-TYPE", "2"), ("X-BAPI-TIMESTAMP", toString ts), ("X-BAPI-RECV-WINDOW", toString receiveWindow)]

def get (ts : ℤ) (path : String) (parameters : List (String × String)) : GetRequest :=
  let target := finalPath path parameters
  ⟨target, s.authenticateNonPost ts target⟩

end Signer

def fieldOf (parameter : String × String) : List Char × List Char := (parameter.1.toList, parameter.2.toList)

/-- Nothing in it is taken for a sign of the query. -/
def PlainParameter (parameter : String × String) : Prop := Plain '=' '&' (fieldOf parameter)

section Get

variable {s : Signer} {path path' : String} {parameters parameters' : List (String × String)} {ts ts' : ℤ}

theorem toList_createQueryStr (parameters : List (String × String)) :
    (createQueryStr parameters).toList = joinFields '=' '&' (parameters.map fieldOf) := by
  have hfold : ∀ acc : String,
      (parameters.foldl (fun queryStr (fst, snd) => queryStr ++ fst ++ "=" ++ snd ++ "&") acc).toList =
        acc.toList ++ (parameters.map fieldOf).flatMap fun field => joinField '=' field ++ ['&'] := by
    induction parameters with
    | nil => simp
    | cons parameter parameters ih =>
      intro acc
      rw [List.foldl_cons, ih, List.map_cons, List.flatMap_cons]
      simp [joinField, fieldOf, String.toList_append]
  have hall := hfold ""
  rw [String.toList_empty, List.nil_append] at hall
  rw [createQueryStr, joinFields, ← hall]
  split
  · next hempty =>
    rw [hempty]
    rfl
  · rw [String.toList_ofList]

/-! ## The target, cut again -/

theorem queryOf_of_not_mem (h : '?' ∉ path.toList) : queryOf path = "" := by
  rw [queryOf, find_of_not_mem h]

theorem queryOf_append {query : List Char} (h : '?' ∉ path.toList) {target : String}
    (htarget : target.toList = path.toList ++ '?' :: query) : queryOf target = String.ofList query := by
  rw [queryOf, htarget, find_append h]
  simp [substr]

/-- The text that is signed ends with the query, and so does the target. -/
theorem queryOf_finalPath (h : '?' ∉ path.toList) :
    queryOf (finalPath path parameters) = createQueryStr parameters := by
  simp only [finalPath]
  split
  · next hempty => rw [queryOf_of_not_mem h, hempty]
  · exact (queryOf_append h (by simp [String.toList_append])).trans (String.ofList_toList)

theorem cutField_finalPath (h : '?' ∉ path.toList) :
    cutField '?' (finalPath path parameters).toList = (path.toList, (createQueryStr parameters).toList) := by
  have hpos : ∀ c ∈ path.toList, decide (c ≠ '?') = true := fun c hc => decide_eq_true fun heq => h (heq ▸ hc)
  simp only [finalPath]
  split
  · next hempty =>
    rw [cutField, List.takeWhile_eq_self_iff.2 hpos, List.dropWhile_eq_nil_iff.2 hpos, hempty]
    rfl
  · have htarget : (path ++ "?" ++ createQueryStr parameters).toList =
        joinField '?' (path.toList, (createQueryStr parameters).toList) := by
      simp [joinField, String.toList_append]
    rw [htarget, cutField_joinField h]

theorem plain_fields (h : ∀ parameter ∈ parameters, PlainParameter parameter) :
    ∀ field ∈ parameters.map fieldOf, Plain '=' '&' field := by
  intro field hfield
  obtain ⟨parameter, hparameter, rfl⟩ := List.mem_map.1 hfield
  exact h parameter hparameter

theorem map_fieldOf_injective (h : parameters.map fieldOf = parameters'.map fieldOf) : parameters = parameters' :=
  List.map_injective_iff.2 (fun a b hab => by
    obtain ⟨hfst, hsnd⟩ := Prod.mk.inj hab
    exact Prod.ext (String.toList_inj.1 hfst) (String.toList_inj.1 hsnd)) h

theorem cutFields_createQueryStr (hplain : ∀ parameter ∈ parameters, PlainParameter parameter) :
    cutFields '=' '&' (createQueryStr parameters).toList = parameters.map fieldOf := by
  rw [toList_createQueryStr, cutFields_joinFields (by decide) (plain_fields hplain)]

/-- Timestamps of one length and the queries behind them come apart again. -/
theorem eq_of_parameterString (h : '?' ∉ path.toList) (h' : '?' ∉ path'.toList)
    (hplain : ∀ parameter ∈ parameters, PlainParameter parameter)
    (hplain' : ∀ parameter ∈ parameters', PlainParameter parameter)
    (hlength : (toString ts).toList.length = (toString ts').toList.length)
    (heq : s.parameterString ts (finalPath path parameters) = s.parameterString ts' (finalPath path' parameters')) :
    ts = ts' ∧ parameters = parameters' := by
  simp only [Signer.parameterString, queryOf_finalPath h, queryOf_finalPath h'] at heq
  have hlist := congrArg String.toList heq
  simp only [String.toList_append, List.append_assoc] at hlist
  obtain ⟨htimestamp, hrest⟩ := List.append_inj hlist hlength
  have hquery := List.append_cancel_left (List.append_cancel_left hrest)
  rw [toList_createQueryStr, toList_createQueryStr] at hquery
  have hfields := joinFields_injective (by decide) (plain_fields hplain) (plain_fields hplain') hquery
  exact ⟨toString_injective htimestamp, map_fieldOf_injective hfields⟩

/-- The path is not signed. -/
theorem parameterString_finalPath (h : '?' ∉ path.toList) (h' : '?' ∉ path'.toList) :
    s.parameterString ts (finalPath path parameters) = s.parameterString ts (finalPath path' parameters) := by
  rw [Signer.parameterString, Signer.parameterString, queryOf_finalPath h, queryOf_finalPath h']

/-- **A signed `get`.** The target, cut at its first question mark, is the path and a query that gives the
parameters back, and the signature is over the timestamp, the key, the window and this query; so it fits,
among the timestamps of as many digits, only this one and only these parameters, but any path. -/
theorem get_signed (s : Signer) (hkey : s.apiKey ≠ "") (ts : ℤ) (path : String)
    (parameters : List (String × String)) (h : '?' ∉ path.toList)
    (hplain : ∀ parameter ∈ parameters, PlainParameter parameter) :
    ∃ query : String,
      cutField '?' (s.get ts path parameters).target.toList = (path.toList, query.toList) ∧
      cutFields '=' '&' query.toList = parameters.map fieldOf ∧
      (s.get ts path parameters).headers = [("X-BAPI-API-KEY", s.apiKey),
        ("X-BAPI-SIGN", s.hmac s.apiSecret (toString ts ++ s.apiKey ++ toString receiveWindow ++ query)),
        ("X-BAPI-SIGN-TYPE", "2"), ("X-BAPI-TIMESTAMP", toString ts),
        ("X-BAPI-RECV-WINDOW", toString receiveWindow)] ∧
      ∀ (ts' : ℤ) (path' : String) (parameters' : List (String × String)), '?' ∉ path'.toList →
        (∀ parameter ∈ parameters', PlainParameter parameter) →
        (toString ts).toList.length = (toString ts').toList.length →
        (s.parameterString ts (finalPath path parameters) = s.parameterString ts' (finalPath path' parameters') ↔
          ts = ts' ∧ parameters = parameters') := by
  refine ⟨createQueryStr parameters, cutField_finalPath h, cutFields_createQueryStr hplain, ?_,
    fun ts' path' parameters' h' hplain' hlength =>
      ⟨eq_of_parameterString h h' hplain hplain' hlength, fun ⟨hts, hparameters⟩ => ?_⟩⟩
  · simp only [Signer.get, Signer.authenticateNonPost, if_neg hkey, Signer.parameterString, queryOf_finalPath h]
  · rw [← hts, ← hparameters]
    exact parameterString_finalPath h h'

/-- The open orders of a symbol, on their second page. -/
theorem get_signed_orders :
    let s : Signer := ⟨"key", "secret", fun secret text => secret ++ text, fun _ => ""⟩
    let parameters := [("category", "linear"), ("cursor", "a%3A1"), ("limit", "50")]
    let r := s.get 1700000000000 "/v5/order/realtime" parameters
    ("X-BAPI-SIGN", "secret1700000000000key5000category=linear&cursor=a%3A1&limit=50") ∈ r.headers ∧
      ∃ query : String, cutField '?' r.target.toList = ("/v5/order/realtime".toList, query.toList) ∧
        cutFields '=' '&' query.toList = parameters.map fieldOf := by
  intro s parameters r
  obtain ⟨query, htarget, hquery, -, -⟩ := get_signed s (by decide) 1700000000000 "/v5/order/realtime" parameters
    (by decide) (fun parameter hparameter => by
      simp only [parameters, List.mem_cons, List.not_mem_nil, or_false] at hparameter
      rcases hparameter with rfl | rfl | rfl <;> exact ⟨by decide, by decide, by decide⟩)
  exact ⟨by decide +kernel, query, htarget, hquery⟩

end Get

/-! ## Bodies -/

/-- `std::map` keeps its keys in order. -/
def insertMember (key : String) (value : Json) : List (String × Json) → List (String × Json)
  | [] => [(key, value)]
  | m :: members =>
    if m.1 = key then (key, value) :: members
    else if key < m.1 then (key, value) :: m :: members
    else m :: insertMember key value members

/-- `json[key] = value`; it throws on what is neither an object nor null. -/
def assign (key : String) (value : Json) : Json → Except JsonError Json
  | .obj members => .ok (.obj (insertMember key value members))
  | .null => .ok (.obj [(key, value)])
  | _ => .error .type

def without (key : String) : Json → Json
  | .obj members => .obj (members.filter fun m => m.1 ≠ key)
  | json => json

/-- The body of a `post`, before it is dumped. -/
def Signer.authenticatePost (s : Signer) (ts : ℤ) (json : Json) : Except JsonError Json := do
  let extendedJson ← assign "timestamp" (.num ts) json
  let extendedJson ← assign "recv_window" (.num receiveWindow) extendedJson
  let extendedJson ← assign "api_key" (.str s.apiKey) extendedJson
  assign "sign" (.str (s.hmac s.apiSecret (s.queryStringFromJson extendedJson))) extendedJson

section Post

variable {key apiKey : String} {value : Json} {members : List (String × Json)} {s : Signer} {ts : ℤ}

theorem find_cons (m : String × Json) (members : List (String × Json)) (k : String) :
    (Json.obj (m :: members)).find? k = if m.1 = k then some m.2 else (Json.obj members).find? k := by
  simp only [Json.find?, List.find?_cons]
  split_ifs with hk <;> simp [hk]

theorem find_insertMember (members : List (String × Json)) (k : String) :
    (Json.obj (insertMember key value members)).find? k =
      if key = k then some value else (Json.obj members).find? k := by
  induction members with
  | nil => rw [insertMember, find_cons]
  | cons m members ih =>
    rw [insertMember]
    split
    · next hm =>
      rw [find_cons, find_cons, hm]
      split <;> rfl
    · next hm =>
      split
      · rw [find_cons]
      · rw [find_cons, ih, find_cons]
        -- The two keys are not the same one.
        by_cases hk : m.1 = k
        · rw [if_pos hk, if_pos hk, if_neg fun hkey => hm (hk.trans hkey.symm)]
        · rw [if_neg hk, if_neg hk]

theorem without_insertMember (members : List (String × Json)) :
    without key (.obj (insertMember key value members)) = without key (.obj members) := by
  simp only [without, Json.obj.injEq]
  induction members with
  | nil => simp [insertMember]
  | cons m members ih =>
    rw [insertMember]
    split
    · next hm => simp [hm]
    · split
      · rw [List.filter_cons_of_neg (by simp)]
      · rw [List.filter_cons, List.filter_cons, ih]

theorem without_of_find (h : (Json.obj members).find? key = none) : without key (.obj members) = .obj members := by
  rw [without, List.filter_eq_self.2]
  intro m hm
  simp only [ne_eq, decide_eq_true_eq]
  rintro rfl
  rw [Json.find?, Option.map_eq_none_iff, List.find?_eq_none] at h
  exact h m hm (decide_eq_true rfl)

theorem find_without (members : List (String × Json)) : (without key (.obj members)).find? key = none := by
  rw [without, Json.find?, Option.map_eq_none_iff, List.find?_eq_none]
  intro m hm
  simpa using (List.mem_filter.1 hm).2

/-- What is signed: the request, with the members that every request has. -/
def extended (apiKey : String) (ts : ℤ) (members : List (String × Json)) : List (String × Json) :=
  insertMember "api_key" (.str apiKey) (insertMember "recv_window" (.num receiveWindow)
    (insertMember "timestamp" (.num ts) members))

theorem authenticatePost_eq (members : List (String × Json)) :
    s.authenticatePost ts (.obj members) = .ok (.obj (insertMember "sign"
      (.str (s.hmac s.apiSecret (s.queryStringFromJson (.obj (extended s.apiKey ts members)))))
      (extended s.apiKey ts members))) :=
  rfl

theorem find_extended (members : List (String × Json)) (k : String) :
    (Json.obj (extended apiKey ts members)).find? k =
      if "api_key" = k then some (.str apiKey) else if "recv_window" = k then some (.num receiveWindow)
      else if "timestamp" = k then some (.num ts) else (Json.obj members).find? k := by
  rw [extended, find_insertMember, find_insertMember, find_insertMember]

theorem find_extended_sign :
    (Json.obj (extended apiKey ts members)).find? "sign" = (Json.obj members).find? "sign" := by
  rw [find_extended, if_neg (by decide), if_neg (by decide), if_neg (by decide)]

/-- **A signed `post`.** Its body has the members of the request, but for the four that the session sets; and the
rest of the body is what was signed exactly if the request has no member `sign` of its own, which would be
signed and then written over. -/
theorem post_signed (apiKey apiSecret : String) (ts : ℤ) (members : List (String × Json)) :
    ∃ signed : Json, ∀ hmac queryStringFromJson, ∃ body,
      (Signer.mk apiKey apiSecret hmac queryStringFromJson).authenticatePost ts (.obj members) = .ok body ∧
      body.find? "timestamp" = some (.num ts) ∧ body.find? "recv_window" = some (.num receiveWindow) ∧
      body.find? "api_key" = some (.str apiKey) ∧
      (∀ k, k ∉ ["sign", "api_key", "recv_window", "timestamp"] → body.find? k = (Json.obj members).find? k) ∧
      body.find? "sign" = some (.str (hmac apiSecret (queryStringFromJson signed))) ∧
      (without "sign" body = signed ↔ (Json.obj members).find? "sign" = none) := by
  refine ⟨.obj (extended apiKey ts members), fun hmac queryStringFromJson =>
    ⟨_, authenticatePost_eq members, ?_, ?_, ?_, fun k hk => ?_, ?_, fun h => ?_, fun h => ?_⟩⟩
  · rw [find_insertMember, if_neg (by decide), find_extended]
    rfl
  · rw [find_insertMember, if_neg (by decide), find_extended]
    rfl
  · rw [find_insertMember, if_neg (by decide), find_extended]
    rfl
  · simp only [List.mem_cons, List.not_mem_nil, or_false, not_or] at hk
    obtain ⟨hsign, hkey, hwindow, htimestamp⟩ := hk
    rw [find_insertMember, if_neg (Ne.symm hsign), find_extended, if_neg (Ne.symm hkey), if_neg (Ne.symm hwindow),
      if_neg (Ne.symm htimestamp)]
  · rw [find_insertMember, if_pos rfl]
  · rw [← find_extended_sign, ← h]
    exact find_without _
  · rw [without_insertMember, without_of_find (find_extended_sign.trans h)]

end Post

end BybitApi.Http
