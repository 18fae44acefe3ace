import BybitApi.Exception
import BybitApi.Lib.Index
import Mathlib.Data.List.DropRight

/-!
# The last timestamp of a trade CSV

`lastCsvTimestamp` finds the last line by indexes, from the end of the text. What it finds is the last
line that is not empty, where a text is cut at its line breaks, and the number in its second field.
-/

namespace BybitApi.Rest

open Lib

/-- A carriage return or a line feed. -/
def isBreak (c : Char) : Bool := c = '\n' || c = '\r'

/-- `std::stoll`, whose exceptions are caught as `std::exception`. -/
def stollOrThrow (s : List Char) : Except Exception ℤ := (stoll s).mapError fun _ => .runtimeError "stoll"

def lastCsvTimestamp (csv : String) : Except Exception ℤ :=
  let csv := csv.toList
  let stop := stepBack isBreak csv csv.length
  if stop = 0 then .error (.runtimeError "CSV data is empty")
  else
    let start :=
      match rfind csv '\n' (stop - 1) with
      | none => 0
      | some lineStart => lineStart + 1
    let lastLine := substr csv start (some (stop - start))
    match find lastLine ',' 0 with
    | none => .error (.runtimeError "Unexpected CSV format: no comma in last line")
    | some comma1 =>
      let comma2 := find lastLine ',' (comma1 + 1)
      let tsStr := substr lastLine (comma1 + 1) (comma2.map fun comma2 => comma2 - comma1 - 1)
      stollOrThrow tsStr

/-! ## Lines and fields -/

/-- The lines of a text, without the carriage returns before their ends. -/
def csvLines (csv : List Char) : List (List Char) :=
  (csv.splitOn '\n').map (List.rdropWhile fun c => c = '\r')

def lastLine (csv : List Char) : Option (List Char) := ((csvLines csv).filter fun line => line ≠ []).getLast?

/-- The number in the second field of a line. -/
def secondField (line : List Char) : Except Exception ℤ :=
  match line.splitOn ',' with
  | _ :: field :: _ => stollOrThrow field
  | _ => .error (.runtimeError "Unexpected CSV format: no comma in last line")

section Lines

variable {csv line a b rest : List Char} {c : Char}

theorem lastLine_append (a b : List Char) : lastLine (a ++ '\n' :: b) = (lastLine b).or (lastLine a) := by
  rw [lastLine, csvLines, List.splitOn_append_cons_self, List.map_append, List.filter_append, List.getLast?_append]
  rfl

theorem lastLine_of_not_mem (h : '\n' ∉ a) : lastLine a =
    if a.rdropWhile (fun c => c = '\r') = [] then none else some (a.rdropWhile fun c => c = '\r') := by
  rw [lastLine, csvLines, List.splitOn_eq_singleton h, List.map_singleton]
  split
  next hnil =>
    rw [List.filter_cons_of_neg (by rw [hnil]; decide)]
    rfl
  next hne =>
    rw [List.filter_cons_of_pos (by exact decide_eq_true hne)]
    rfl

theorem lastLine_nil : lastLine [] = none := rfl

/-- A line break at the end makes no line. -/
theorem lastLine_concat (h : isBreak c) (csv : List Char) : lastLine (csv ++ [c]) = lastLine csv := by
  rcases (by simpa [isBreak] using h : c = '\n' ∨ c = '\r') with rfl | rfl
  · rw [lastLine_append, lastLine_nil, Option.none_or]
  · have hline : ∀ {b : List Char}, '\n' ∉ b → lastLine (b ++ ['\r']) = lastLine b := by
      intro b hb
      have hb' : '\n' ∉ b ++ ['\r'] := by simpa using hb
      rw [lastLine_of_not_mem hb', lastLine_of_not_mem hb, List.rdropWhile_concat_pos _ _ _ (by simp)]
    by_cases hmem : '\n' ∈ csv
    · obtain ⟨a, b, rfl, hb⟩ := exists_last_of_mem hmem
      rw [List.append_assoc, List.cons_append, lastLine_append, lastLine_append, hline hb]
    · exact hline hmem

theorem lastLine_append_breaks (hrest : ∀ c ∈ rest, isBreak c) : lastLine (csv ++ rest) = lastLine csv := by
  induction rest using List.reverseRecOn with
  | nil => rw [List.append_nil]
  | append_singleton rest c ih =>
    rw [← List.append_assoc, lastLine_concat (hrest c (by simp))]
    exact ih fun c hc => hrest c (List.mem_append_left _ hc)

/-- A line is a text whose end is no line break. -/
theorem lastLine_of_line (h : '\n' ∉ line) (hline : ∀ c, line.getLast? = some c → ¬ isBreak c) (hne : line ≠ []) :
    lastLine line = some line := by
  have hself : line.rdropWhile (fun c => c = '\r') = line := by
    refine List.rdropWhile_eq_self_iff.2 fun hl hcr => ?_
    refine hline _ (List.getLast?_eq_some_getLast hl) ?_
    simp only [isBreak, Bool.or_eq_true]
    exact Or.inr hcr
  rw [lastLine_of_not_mem h, hself, if_neg hne]

theorem secondField_of_no_comma (h : ',' ∉ line) :
    secondField line = .error (.runtimeError "Unexpected CSV format: no comma in last line") := by
  rw [secondField, List.splitOn_eq_singleton h]

theorem secondField_append (h : ',' ∉ a) (h' : ',' ∉ b) : secondField (a ++ ',' :: b) = stollOrThrow b := by
  rw [secondField, List.splitOn_append_cons_self_of_not_mem h, List.splitOn_eq_singleton h']

theorem secondField_append_append (h : ',' ∉ a) (h' : ',' ∉ b) :
    secondField (a ++ ',' :: (b ++ ',' :: rest)) = stollOrThrow b := by
  rw [secondField, List.splitOn_append_cons_self_of_not_mem h, List.splitOn_append_cons_self_of_not_mem h']

end Lines

/-! ## What the indexes find -/

section Indexes

variable {csv line a b rest : List Char}

/-- The second half of the function, with the last line. -/
theorem field_by_index (line : List Char) :
    (match find line ',' 0 with
      | none => .error (.runtimeError "Unexpected CSV format: no comma in last line")
      | some comma1 => stollOrThrow (substr line (comma1 + 1)
        ((find line ',' (comma1 + 1)).map fun comma2 => comma2 - comma1 - 1))) = secondField line := by
  by_cases hcomma : ',' ∈ line
  · obtain ⟨id, fields, rfl, hid⟩ := List.eq_append_cons_of_mem hcomma
    have hbehind : id ++ ',' :: fields = (id ++ [',']) ++ fields := by simp
    have hlength : (id ++ [',']).length = id.length + 1 := by simp
    rw [find_append hid]
    dsimp only
    rw [← hlength]
    by_cases hsecond : ',' ∈ fields
    · obtain ⟨field, more, rfl, hfield⟩ := List.eq_append_cons_of_mem hsecond
      rw [secondField_append_append hid hfield, hbehind, find_length, find_append hfield]
      have hcount : id.length + 1 + field.length - id.length - 1 = field.length := by omega
      rw [Option.map_some, Option.map_some, hlength, hcount, ← hlength, substr_length_length]
    · rw [secondField_append hid hsecond, hbehind, find_length, find_of_not_mem hsecond]
      rw [Option.map_none, Option.map_none, substr_length]
  · rw [find_of_not_mem hcomma, secondField_of_no_comma hcomma]

/-- Where the last line begins. -/
def lastLineStart (csv : List Char) (stop : ℕ) : ℕ :=
  match rfind csv '\n' (stop - 1) with
  | none => 0
  | some lineStart => lineStart + 1

theorem lastLineStart_of_not_mem (h : '\n' ∉ line) (hne : line ≠ []) : lastLineStart (line ++ rest) line.length = 0 := by
  have hpos := List.length_pos_iff.2 hne
  rw [lastLineStart, rfind_of_not_mem h (by omega)]

theorem lastLineStart_append (h : '\n' ∉ line) :
    lastLineStart (a ++ '\n' :: (line ++ rest)) (a.length + 1 + line.length) = a.length + 1 := by
  have hpos : a.length + 1 + line.length - 1 = a.length + line.length := by omega
  rw [lastLineStart, hpos, rfind_append h]

/-- The text between the two indexes is the last line. -/
theorem lastLine_by_index {text : List Char} (hne : text ≠ []) (hend : ∀ c, text.getLast? = some c → ¬ isBreak c)
    (rest : List Char) : lastLine text = some (substr (text ++ rest) (lastLineStart (text ++ rest) text.length)
      (some (text.length - lastLineStart (text ++ rest) text.length))) := by
  by_cases hmem : '\n' ∈ text
  · obtain ⟨a, line, rfl, hline⟩ := exists_last_of_mem hmem
    have hlength : (a ++ '\n' :: line).length = a.length + 1 + line.length := by
      simp
      omega
    have hlast : (a ++ '\n' :: line).getLast? = ('\n' :: line).getLast? := by
      rw [List.getLast?_append, List.getLast?_cons, Option.some_or]
    have hne' : line ≠ [] := by
      rintro rfl
      exact hend '\n' (by rw [hlast]; rfl) (by decide)
    have hend' : ∀ c, line.getLast? = some c → ¬ isBreak c := by
      intro c hc
      refine hend c ?_
      rw [hlast, List.getLast?_cons, hc]
      rfl
    rw [lastLine_append, lastLine_of_line hline hend' hne', Option.some_or]
    rw [List.append_assoc, List.cons_append, hlength, lastLineStart_append hline, Nat.add_sub_cancel_left]
    have hbehind : a ++ '\n' :: (line ++ rest) = (a ++ ['\n']) ++ (line ++ rest) := by simp
    have hstart : (a ++ ['\n']).length = a.length + 1 := by simp
    rw [hbehind, ← hstart, substr_length_length]
  · rw [lastLine_of_line hmem hend hne, lastLineStart_of_not_mem hmem hne, Nat.sub_zero]
    exact congrArg some (substr_length_length [] text rest).symm

end Indexes

/-- **The function by lines**: of the last line that is not empty, the number in the second field. -/
theorem lastCsvTimestamp_eq (csv : String) : lastCsvTimestamp csv =
    match lastLine csv.toList with
    | none => .error (.runtimeError "CSV data is empty")
    | some line => secondField line := by
  -- The text without the line breaks at its end, and these.
  have hsplit : csv.toList = csv.toList.rdropWhile isBreak ++ csv.toList.rtakeWhile isBreak :=
    List.rdropWhile_append_rtakeWhile.symm
  have hend : ∀ c, (csv.toList.rdropWhile isBreak).getLast? = some c → ¬ isBreak c := by
    intro c hc
    have hne : csv.toList.rdropWhile isBreak ≠ [] := by
      intro hnil
      rw [hnil] at hc
      cases hc
    rw [List.getLast?_eq_some_getLast hne] at hc
    obtain rfl := Option.some.inj hc
    exact List.rdropWhile_last_not _ _ hne
  have hrest : ∀ c ∈ csv.toList.rtakeWhile isBreak, isBreak c := fun c hc => List.mem_rtakeWhile_imp hc
  generalize csv.toList.rdropWhile isBreak = text at hsplit hend
  generalize csv.toList.rtakeWhile isBreak = rest at hsplit hrest
  unfold lastCsvTimestamp
  dsimp only
  rw [hsplit, stepBack_append hrest hend, lastLine_append_breaks hrest]
  by_cases hne : text = []
  · subst hne
    rfl
  · rw [if_neg (fun h => hne (List.length_eq_zero_iff.1 h)), lastLine_by_index hne hend rest]
    exact field_by_index _

/-! ## Records -/

/-- A record of the file, as it is written. -/
structure TradeRecord where
  id : String
  timestamp : ℤ
  /-- Price, volume, side and flag, or what there is of them. -/
  fields : List String
  id_plain : ∀ c ∈ id.toList, c ≠ ',' ∧ ¬ isBreak c
  int64 : -2 ^ 63 ≤ timestamp ∧ timestamp < 2 ^ 63
  fields_plain : ∀ field ∈ fields, ∀ c ∈ field.toList, ¬ isBreak c

inductive LineEnd where
  | lf | crlf
  deriving DecidableEq

def LineEnd.text : LineEnd → String
  | lf => "\n"
  | crlf => "\r\n"

def TradeRecord.line (record : TradeRecord) : String :=
  record.id ++ "," ++ toString record.timestamp ++ String.join (record.fields.map fun field => "," ++ field)

/-- The records, one a line; behind the `n`-th of them stands `lineEnd n`, and nothing behind the last. -/
def csvText (lineEnd : ℕ → LineEnd) : List TradeRecord → String
  | [] => ""
  | [record] => record.line
  | record :: records => record.line ++ (lineEnd 0).text ++ csvText (fun n => lineEnd (n + 1)) records

section Records

variable {record : TradeRecord} {records : List TradeRecord} {rest : List Char}

theorem toList_line (record : TradeRecord) : record.line.toList =
    record.id.toList ++ ',' :: ((toString record.timestamp).toList ++
      record.fields.flatMap fun field => ',' :: field.toList) := by
  simp [TradeRecord.line, String.toList_append, String.toList_join, List.flatMap_map]

theorem timestamp_plain {c : Char} (hc : c ∈ (toString record.timestamp).toList) : c ≠ ',' ∧ ¬ isBreak c := by
  rcases mem_toString hc with rfl | hdigit
  · decide
  · refine ⟨?_, fun hbreak => ?_⟩
    · rintro rfl
      cases hdigit
    · rcases (by simpa [isBreak] using hbreak : c = '\n' ∨ c = '\r') with rfl | rfl
      · cases hdigit
      · cases hdigit

theorem line_plain : ∀ c ∈ record.line.toList, ¬ isBreak c := by
  intro c hc
  rw [toList_line] at hc
  rcases List.mem_append.1 hc with hc | hc
  · exact (record.id_plain c hc).2
  rcases List.mem_cons.1 hc with rfl | hc
  · decide
  rcases List.mem_append.1 hc with hc | hc
  · exact (timestamp_plain hc).2
  · obtain ⟨field, hfield, hc⟩ := List.mem_flatMap.1 hc
    rcases List.mem_cons.1 hc with rfl | hc
    · decide
    · exact record.fields_plain field hfield c hc

/-- The second field of a record's line is its timestamp. -/
theorem secondField_line (record : TradeRecord) : secondField record.line.toList = .ok record.timestamp := by
  have hid : ',' ∉ record.id.toList := fun hc => (record.id_plain ',' hc).1 rfl
  have hts : ',' ∉ (toString record.timestamp).toList := fun hc => (timestamp_plain hc).1 rfl
  have hread : stollOrThrow (toString record.timestamp).toList = .ok record.timestamp := by
    rw [stollOrThrow, stoll_toString record.int64.1 record.int64.2]
    rfl
  rw [toList_line]
  cases record.fields with
  | nil => rw [List.flatMap_nil, List.append_nil, secondField_append hid hts, hread]
  | cons field fields =>
    rw [List.flatMap_cons, List.cons_append, secondField_append_append hid hts, hread]

theorem lastLine_line (record : TradeRecord) : lastLine record.line.toList = some record.line.toList := by
  refine lastLine_of_line (fun hc => line_plain '\n' hc (by decide)) (fun c hc => ?_) fun hnil => ?_
  · exact line_plain c (List.mem_of_getLast? hc)
  · rw [toList_line] at hnil
    simp at hnil

/-- The last line of the file is the last record. -/
theorem lastLine_csvText (lineEnd : ℕ → LineEnd) (h : records ≠ []) :
    lastLine (csvText lineEnd records).toList = some (records.getLast h).line.toList := by
  induction records generalizing lineEnd with
  | nil => exact absurd rfl h
  | cons record records ih =>
    cases records with
    | nil => exact lastLine_line record
    | cons next records =>
      have hlater := ih (fun n => lineEnd (n + 1)) (List.cons_ne_nil _ _)
      have hsplit : csvText lineEnd (record :: next :: records) =
          record.line ++ (lineEnd 0).text ++ csvText (fun n => lineEnd (n + 1)) (next :: records) := rfl
      obtain ⟨before, hbefore⟩ : ∃ before, record.line.toList ++ (lineEnd 0).text.toList = before ++ ['\n'] := by
        cases lineEnd 0 with
        | lf => exact ⟨record.line.toList, rfl⟩
        | crlf => exact ⟨record.line.toList ++ ['\r'], by simp [LineEnd.text]⟩
      rw [List.getLast_cons (List.cons_ne_nil _ _), hsplit, String.toList_append, String.toList_append, hbefore,
        List.append_assoc, List.singleton_append, lastLine_append, hlater, Option.some_or]

end Records

/-- **The last timestamp.** Of a file it is that of the last record, whatever line breaks follow. Without
a line, or without a comma in the last line that is not empty, the function throws. -/
theorem lastCsvTimestamp_spec :
    (∀ (lineEnd : ℕ → LineEnd) (records : List TradeRecord) (h : records ≠ []) (trailing : String),
      (∀ c ∈ trailing.toList, isBreak c) →
        lastCsvTimestamp (csvText lineEnd records ++ trailing) = .ok (records.getLast h).timestamp) ∧
    (∀ csv : String, (∀ c ∈ csv.toList, isBreak c) → ∃ e, lastCsvTimestamp csv = .error e) ∧
    ∀ (csv : String) (line : List Char), lastLine csv.toList = some line → ',' ∉ line →
      ∃ e, lastCsvTimestamp csv = .error e := by
  refine ⟨?_, ?_, ?_⟩
  · intro lineEnd records h trailing htrailing
    rw [lastCsvTimestamp_eq, String.toList_append, lastLine_append_breaks htrailing, lastLine_csvText lineEnd h]
    exact secondField_line _
  · intro csv hbreaks
    have hnone : lastLine csv.toList = none := by
      have hnil : lastLine ([] ++ csv.toList) = lastLine [] := lastLine_append_breaks hbreaks
      rwa [List.nil_append, lastLine_nil] at hnil
    rw [lastCsvTimestamp_eq, hnone]
    exact ⟨_, rfl⟩
  · intro csv line hline hcomma
    rw [lastCsvTimestamp_eq, hline]
    exact ⟨_, secondField_of_no_comma hcomma⟩

/-- A record without further fields, and one with all of them. -/
def bareRecord : TradeRecord := ⟨"7", -1, [], by simp [isBreak], by decide, by simp⟩

def fullRecord : TradeRecord :=
  ⟨"8", 1700000000000, ["0.5", "12", "buy", ""], by simp [isBreak], by decide, by simp [isBreak]⟩

theorem lastCsvTimestamp_twoRecords :
    lastCsvTimestamp "7,-1\r\n8,1700000000000,0.5,12,buy,\n\r\n" = .ok 1700000000000 ∧
      lastCsvTimestamp "8,1700000000000,0.5,12,buy,\n7,-1" = .ok (-1) ∧
      (∃ e, lastCsvTimestamp "\r\n\n" = .error e) ∧ ∃ e, lastCsvTimestamp "7,-1\n8\r\n" = .error e :=
  ⟨lastCsvTimestamp_spec.1 (fun _ => .crlf) [bareRecord, fullRecord] (by decide) "\n\r\n" (by simp [isBreak]),
    lastCsvTimestamp_spec.1 (fun _ => .lf) [fullRecord, bareRecord] (by decide) "" (by simp),
    lastCsvTimestamp_spec.2.1 "\r\n\n" (by simp [isBreak]),
    lastCsvTimestamp_spec.2.2 "7,-1\n8\r\n" ['8'] (by decide +kernel) (by decide)⟩

end BybitApi.Rest
