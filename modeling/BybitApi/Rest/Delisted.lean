import BybitApi.Lib.Scan
import BybitApi.Rest.Gzip
import BybitApi.Rest.TradeCsv

/-!
# Delisted symbols

What `RESTClient` reads from public.bybit.com: the names of all spot symbols there ever were
(`fetchPublicSpotSymbols`), and of one that was delisted the time of its last trade
(`fetchLastTimestampForDelistedSymbol`). Both search an HTML listing with a regular expression, the second one
for the name of the newest of a symbol's daily files, which it then downloads, decompresses and reads.

* A match never overlaps another, so the iterator passes none over (`apart_fileRegex`, `apart_linkRegex`).
* Dates are compared as texts; that is the order of the calendar (`lt_iff_number`).

The site is a parameter: what the `n`-th request to it gives, whatever its status, or the exception it ends with.
-/

namespace BybitApi.Rest

open Lib

/-- `[A-Z0-9]`. -/
def isSymbolChar (c : Char) : Bool := c.isUpper || c.isDigit

/-- A symbol as the listing has it. It stands in `fileRegex` for itself. -/
structure SpotSymbol where
  name : List Char
  plain : ∀ c ∈ name, isSymbolChar c = true

/-- A body, a `char` for each byte. -/
def textOf (body : List UInt8) : List Char := body.map fun byte => Char.ofNat byte.toNat

/-! ## The regular expressions -/

/-- Each character of a text as it is. -/
def literal (s : List Char) : List (Char → Bool) := s.map fun c x => decide (x = c)

/-- `\d{n}`. -/
def digits (n : ℕ) : List (Char → Bool) := List.replicate n Char.isDigit

/-- `\d{4}-\d{2}-\d{2}`. -/
def datePattern : List (Char → Bool) := digits 4 ++ (literal ['-'] ++ (digits 2 ++ (literal ['-'] ++ digits 2)))

/-- `\.csv\.gz`. -/
def extension : List Char := ['.', 'c', 's', 'v', '.', 'g', 'z']

def filePattern (symbol : SpotSymbol) : List (Char → Bool) :=
  literal symbol.name ++ (literal ['_'] ++ (datePattern ++ literal extension))

theorem filePattern_ne_nil (symbol : SpotSymbol) : filePattern symbol ≠ [] := by
  unfold filePattern
  simp [literal]

/-- `symbol + R"re(_(\d{4}-\d{2}-\d{2})\.csv\.gz)re"`. -/
def fileRegex (symbol : SpotSymbol) : Matcher Char := fixed (filePattern symbol) (filePattern_ne_nil symbol)

/-- `(*it)[1]`. -/
def capturedDate (symbol : SpotSymbol) (found : List Char) : List Char := (found.drop (symbol.name.length + 1)).take 10

def fileName (symbol : SpotSymbol) (date : List Char) : List Char := symbol.name ++ '_' :: (date ++ extension)

section FilePattern

variable {symbol : SpotSymbol} {s t date : List Char}

theorem fits_literal : Fits (literal s) t ↔ t = s := by
  induction s generalizing t with
  | nil => exact Iff.rfl
  | cons c s ih =>
    cases t with
    | nil => exact iff_of_false id nofun
    | cons x t =>
      change decide (x = c) = true ∧ Fits (literal s) t ↔ _
      rw [ih, decide_eq_true_eq, List.cons.injEq]

/-- What matches is the name of a file, for some date. -/
theorem fits_filePattern : Fits (filePattern symbol) t ↔ ∃ date, Fits datePattern date ∧ t = fileName symbol date := by
  constructor
  · intro h
    obtain ⟨name, behindName, rfl, hname, hbehind⟩ := Fits.of_append h
    obtain ⟨mark, behindMark, rfl, hmark, hbehind⟩ := Fits.of_append hbehind
    obtain ⟨date, behindDate, rfl, hdate, hbehind⟩ := Fits.of_append hbehind
    rw [fits_literal.1 hname, fits_literal.1 hmark, fits_literal.1 hbehind]
    exact ⟨date, hdate, rfl⟩
  · rintro ⟨date, hdate, rfl⟩
    exact (fits_literal.2 rfl).append
      ((fits_literal (s := ['_']) (t := ['_']).2 rfl).append (hdate.append (fits_literal.2 rfl)))

theorem length_date (h : Fits datePattern date) : date.length = 10 := h.length_eq

theorem capturedDate_fileName (h : Fits datePattern date) : capturedDate symbol (fileName symbol date) = date := by
  have hsplit : fileName symbol date = (symbol.name ++ ['_']) ++ (date ++ extension) := by simp [fileName]
  have hlength : (symbol.name ++ ['_']).length = symbol.name.length + 1 := by simp
  rw [capturedDate, hsplit, ← hlength, List.drop_left, ← length_date h, List.take_left]

/-- The classes behind the underscore. -/
def tailPattern : List (Char → Bool) := datePattern ++ literal extension

theorem getElem?_tail (symbol : SpotSymbol) (i : ℕ) :
    (filePattern symbol)[symbol.name.length + 1 + i]? = tailPattern[i]? := by
  have hsplit : filePattern symbol = (literal symbol.name ++ literal ['_']) ++ tailPattern := by
    simp [filePattern, tailPattern]
  have hlength : (literal symbol.name ++ literal ['_']).length = symbol.name.length + 1 := by simp [literal]
  rw [hsplit, ← hlength, List.getElem?_append_right (Nat.le_add_right _ _), Nat.add_sub_cancel_left]

/-- **No file name begins within another**: either the underscore of the second would be at a place behind that of
the first, or the end of the first within the symbol of the second. -/
theorem apart_fileRegex (symbol : SpotSymbol) : (fileRegex symbol).Apart := by
  refine apart_fixed _ fun k hk hlt => ?_
  have hlength : (filePattern symbol).length = symbol.name.length + 18 := by
    simp [filePattern, literal, datePattern, digits, extension]
  rw [hlength] at hlt
  by_cases hnear : k < 18
  · have hmark : (filePattern symbol)[symbol.name.length]? = some fun x => decide (x = '_') := by
      have hname : (literal symbol.name).length = symbol.name.length := by simp [literal]
      rw [filePattern, ← hname, List.getElem?_append_right (Nat.le_refl _), Nat.sub_self]
      rfl
    have hnone : ∀ d ∈ tailPattern, d '_' = false := by decide
    have htail : k - 1 < tailPattern.length := by
      change k - 1 < 17
      omega
    refine ⟨symbol.name.length, _, tailPattern[k - 1], hmark, ?_, fun x hx hdx => ?_⟩
    · have hplace : symbol.name.length + k = symbol.name.length + 1 + (k - 1) := by omega
      rw [hplace, getElem?_tail, List.getElem?_eq_getElem htail]
    · obtain rfl : x = '_' := of_decide_eq_true hx
      rw [hnone _ (List.getElem_mem htail)] at hdx
      cases hdx
  · have hlast : (filePattern symbol)[symbol.name.length + 17]? = some fun x => decide (x = 'z') :=
      getElem?_tail symbol 16
    have hi : symbol.name.length + 17 - k < symbol.name.length := by omega
    refine ⟨symbol.name.length + 17 - k, fun x => decide (x = symbol.name[symbol.name.length + 17 - k]),
      fun x => decide (x = 'z'), ?_, ?_, fun x hx hdx => ?_⟩
    · rw [filePattern, List.getElem?_append_left (by simpa [literal] using hi)]
      simp [literal, hi]
    · have hplace : symbol.name.length + 17 - k + k = symbol.name.length + 17 := by omega
      rw [hplace, hlast]
    · obtain rfl : x = 'z' := of_decide_eq_true hdx
      have hplain := symbol.plain _ (List.getElem_mem hi)
      rw [← of_decide_eq_true hx] at hplain
      exact absurd hplain (by decide)

end FilePattern

/-! ## Dates -/

/-- The number a date reads as, without its dashes: years before months before days. -/
def dateNumber (date : List Char) : ℕ := Nat.ofDigitChars 10 (date.filter Char.isDigit) 0

/-- A class of digits, or of one character that is none. -/
def DigitOrMark (c : Char → Bool) : Prop := c = Char.isDigit ∨ ∃ mark, mark.isDigit = false ∧ c = fun x => decide (x = mark)

theorem toNat_of_isDigit {x : Char} (hx : x.isDigit = true) : 48 ≤ x.toNat ∧ x.toNat ≤ 57 := by
  simpa [Char.isDigit, UInt32.le_iff_toNat_le] using hx

/-- A number that is larger so far stays larger. -/
theorem ofDigitChars_lt_of_lt {p : List (Char → Bool)} (hp : ∀ c ∈ p, DigitOrMark c) {a b : List Char} (ha : Fits p a)
    (hb : Fits p b) {i j : ℕ} (hlt : i < j) : Nat.ofDigitChars 10 (a.filter Char.isDigit) i <
      Nat.ofDigitChars 10 (b.filter Char.isDigit) j := by
  induction p generalizing a b i j with
  | nil =>
    obtain rfl : a = [] := ha
    obtain rfl : b = [] := hb
    exact hlt
  | cons c p ih =>
    cases a with
    | nil => exact absurd ha id
    | cons x a =>
    cases b with
    | nil => exact absurd hb id
    | cons y b =>
    have hp' : ∀ c ∈ p, DigitOrMark c := fun c hc => hp c (List.mem_cons_of_mem _ hc)
    rcases hp c (by simp) with rfl | ⟨mark, hmark, rfl⟩
    · rw [List.filter_cons_of_pos ha.1, List.filter_cons_of_pos hb.1, Nat.ofDigitChars_cons, Nat.ofDigitChars_cons]
      have hx := toNat_of_isDigit ha.1
      have hy := toNat_of_isDigit hb.1
      refine ih hp' ha.2 hb.2 ?_
      change 10 * i + (x.toNat - 48) < 10 * j + (y.toNat - 48)
      omega
    · obtain rfl := of_decide_eq_true ha.1
      obtain rfl := of_decide_eq_true hb.1
      rw [List.filter_cons_of_neg (by simp [hmark]), List.filter_cons_of_neg (by simp [hmark])]
      exact ih hp' ha.2 hb.2 hlt

/-- **Texts of digits with the same marks** compare as the numbers do. -/
theorem lt_iff_ofDigitChars {p : List (Char → Bool)} (hp : ∀ c ∈ p, DigitOrMark c) {a b : List Char} (ha : Fits p a)
    (hb : Fits p b) (i : ℕ) : a < b ↔
      Nat.ofDigitChars 10 (a.filter Char.isDigit) i < Nat.ofDigitChars 10 (b.filter Char.isDigit) i := by
  induction p generalizing a b i with
  | nil =>
    obtain rfl : a = [] := ha
    obtain rfl : b = [] := hb
    simp
  | cons c p ih =>
    cases a with
    | nil => exact absurd ha id
    | cons x a =>
    cases b with
    | nil => exact absurd hb id
    | cons y b =>
    have hp' : ∀ c ∈ p, DigitOrMark c := fun c hc => hp c (List.mem_cons_of_mem _ hc)
    rw [List.cons_lt_cons_iff]
    rcases hp c (by simp) with rfl | ⟨mark, hmark, rfl⟩
    · rw [List.filter_cons_of_pos ha.1, List.filter_cons_of_pos hb.1, Nat.ofDigitChars_cons, Nat.ofDigitChars_cons]
      have hx := toNat_of_isDigit ha.1
      have hy := toNat_of_isDigit hb.1
      change x < y ∨ x = y ∧ a < b ↔ Nat.ofDigitChars 10 (a.filter Char.isDigit) (10 * i + (x.toNat - 48)) <
        Nat.ofDigitChars 10 (b.filter Char.isDigit) (10 * i + (y.toNat - 48))
      rcases Nat.lt_trichotomy x.toNat y.toNat with hlt | heq | hgt
      · exact iff_of_true (Or.inl hlt) (ofDigitChars_lt_of_lt hp' ha.2 hb.2 (by omega))
      · obtain rfl : x = y := Char.toNat_inj.1 heq
        rw [← ih hp' ha.2 hb.2]
        simp
      · refine iff_of_false ?_ (Nat.lt_asymm (ofDigitChars_lt_of_lt hp' hb.2 ha.2 (by omega)))
        rintro (hlt | ⟨rfl, -⟩)
        · exact absurd hlt (Nat.lt_asymm hgt)
        · exact absurd hgt (Nat.lt_irrefl _)
    · obtain rfl := of_decide_eq_true ha.1
      obtain rfl := of_decide_eq_true hb.1
      rw [List.filter_cons_of_neg (by simp [hmark]), List.filter_cons_of_neg (by simp [hmark]), ← ih hp' ha.2 hb.2]
      simp

theorem lt_iff_dateNumber {a b : List Char} (ha : Fits datePattern a) (hb : Fits datePattern b) :
    a < b ↔ dateNumber a < dateNumber b := by
  refine lt_iff_ofDigitChars (p := datePattern) (fun c hc => ?_) ha hb 0
  simp only [datePattern, digits, literal, List.mem_append, List.mem_replicate, List.map_cons, List.map_nil,
    List.mem_singleton] at hc
  rcases hc with ⟨-, rfl⟩ | rfl | ⟨-, rfl⟩ | rfl | ⟨-, rfl⟩
  · exact Or.inl rfl
  · exact Or.inr ⟨'-', by decide, rfl⟩
  · exact Or.inl rfl
  · exact Or.inr ⟨'-', by decide, rfl⟩
  · exact Or.inl rfl

/-! ## The newest file -/

/-- `latestDate` and `latestFilename`. -/
structure Latest where
  date : List Char
  filename : List Char
  deriving DecidableEq

def later (symbol : SpotSymbol) (latest : Latest) (found : List Char) : Latest :=
  let date := capturedDate symbol found
  if latest.date < date then ⟨date, found⟩ else latest

def latestFile (symbol : SpotSymbol) (body : List Char) : Latest :=
  ((fileRegex symbol).scan 0 body).foldl (later symbol) ⟨[], []⟩

/-- The listing names the file of this date. -/
def FileListed (symbol : SpotSymbol) (body date : List Char) : Prop :=
  Fits datePattern date ∧ fileName symbol date <:+: body

/-- It names it, and none of a later date. -/
def Newest (symbol : SpotSymbol) (body date : List Char) : Prop :=
  FileListed symbol body date ∧ ∀ other, FileListed symbol body other → dateNumber other ≤ dateNumber date

section LatestFile

variable {symbol : SpotSymbol} {body date found : List Char}

theorem mem_scan_fileRegex : found ∈ (fileRegex symbol).scan 0 body ↔
    ∃ date, FileListed symbol body date ∧ found = fileName symbol date := by
  rw [Matcher.mem_scan (apart_fileRegex symbol)]
  constructor
  · rintro ⟨b, hb, hfind⟩
    obtain ⟨hfits, hprefix⟩ := takeFit_eq_some.1 hfind
    obtain ⟨date, hdate, rfl⟩ := fits_filePattern.1 hfits
    exact ⟨date, ⟨hdate, hprefix.isInfix.trans hb.isInfix⟩, rfl⟩
  · rintro ⟨date, ⟨hdate, before, behind, hbody⟩, rfl⟩
    refine ⟨fileName symbol date ++ behind, ⟨before, by rw [← hbody, List.append_assoc]⟩, ?_⟩
    exact takeFit_eq_some.2 ⟨fits_filePattern.2 ⟨date, hdate, rfl⟩, List.prefix_append _ _⟩

theorem later_fileName (h : Fits datePattern date) (latest : Latest) : later symbol latest (fileName symbol date) =
    if latest.date < date then ⟨date, fileName symbol date⟩ else latest := by
  rw [later, capturedDate_fileName h]

/-- The rest of the loop, once it has a file. -/
theorem foldl_later (symbol : SpotSymbol) {dates : List (List Char)} (hdates : ∀ d ∈ dates, Fits datePattern d)
    (h : Fits datePattern date) : ∃ newest,
      (dates.map (fileName symbol)).foldl (later symbol) ⟨date, fileName symbol date⟩ =
        ⟨newest, fileName symbol newest⟩ ∧ (newest = date ∨ newest ∈ dates) ∧
      dateNumber date ≤ dateNumber newest ∧ ∀ d ∈ dates, dateNumber d ≤ dateNumber newest := by
  induction dates generalizing date with
  | nil => exact ⟨date, rfl, Or.inl rfl, Nat.le_refl _, nofun⟩
  | cons d dates ih =>
    have hd : Fits datePattern d := hdates d (by simp)
    have hrest : ∀ d ∈ dates, Fits datePattern d := fun d hd => hdates d (List.mem_cons_of_mem _ hd)
    rw [List.map_cons, List.foldl_cons, later_fileName hd]
    split
    · next hlt =>
      obtain ⟨newest, heq, hmem, hle, hall⟩ := ih hrest hd
      have hdate := (lt_iff_dateNumber h hd).1 hlt
      refine ⟨newest, heq, Or.inr ?_, by omega, ?_⟩
      · rcases hmem with rfl | hmem
        · exact List.mem_cons_self
        · exact List.mem_cons_of_mem _ hmem
      · exact List.forall_mem_cons.2 ⟨hle, hall⟩
    · next hlt =>
      obtain ⟨newest, heq, hmem, hle, hall⟩ := ih hrest h
      rw [lt_iff_dateNumber h hd, Nat.not_lt] at hlt
      exact ⟨newest, heq, hmem.imp id (List.mem_cons_of_mem _), hle,
        List.forall_mem_cons.2 ⟨hlt.trans hle, hall⟩⟩

/-- The files found are names of files, for dates. -/
theorem scan_fileRegex (symbol : SpotSymbol) (body : List Char) : ∃ dates : List (List Char),
    (fileRegex symbol).scan 0 body = dates.map (fileName symbol) ∧ ∀ d ∈ dates, Fits datePattern d := by
  have hall : ∀ found ∈ (fileRegex symbol).scan 0 body, fileName symbol (capturedDate symbol found) = found ∧
      Fits datePattern (capturedDate symbol found) := by
    intro found hfound
    obtain ⟨date, ⟨hdate, -⟩, rfl⟩ := mem_scan_fileRegex.1 hfound
    rw [capturedDate_fileName hdate]
    exact ⟨rfl, hdate⟩
  refine ⟨((fileRegex symbol).scan 0 body).map (capturedDate symbol), ?_, fun d hd => ?_⟩
  · have hsame : ((fileRegex symbol).scan 0 body).map (fileName symbol ∘ capturedDate symbol) =
        ((fileRegex symbol).scan 0 body).map id := List.map_congr_left fun found hfound => (hall found hfound).1
    rw [List.map_map, hsame, List.map_id]
  · obtain ⟨found, hfound, rfl⟩ := List.mem_map.1 hd
    exact (hall found hfound).2

/-- **The loop finds the newest file**, if the listing names one at all. -/
theorem latestFile_cases (symbol : SpotSymbol) (body : List Char) :
    (latestFile symbol body).filename = [] ∧ (∀ date, ¬ FileListed symbol body date) ∨
      ∃ date, latestFile symbol body = ⟨date, fileName symbol date⟩ ∧ Newest symbol body date := by
  obtain ⟨dates, hscan, hfits⟩ := scan_fileRegex symbol body
  have hlisted : ∀ date, FileListed symbol body date → date ∈ dates := by
    intro date hdate
    have hmem := mem_scan_fileRegex.2 ⟨date, hdate, rfl⟩
    rw [hscan] at hmem
    obtain ⟨d, hd, heq⟩ := List.mem_map.1 hmem
    have hcaptured := congrArg (capturedDate symbol) heq
    rw [capturedDate_fileName (hfits d hd), capturedDate_fileName hdate.1] at hcaptured
    rwa [← hcaptured]
  have hnamed : ∀ date ∈ dates, FileListed symbol body date := by
    intro date hdate
    have hmem : fileName symbol date ∈ (fileRegex symbol).scan 0 body := by
      rw [hscan]
      exact List.mem_map_of_mem hdate
    obtain ⟨d, hd, heq⟩ := mem_scan_fileRegex.1 hmem
    have hcaptured := congrArg (capturedDate symbol) heq
    rw [capturedDate_fileName (hfits date hdate), capturedDate_fileName hd.1] at hcaptured
    rwa [hcaptured]
  unfold latestFile
  rw [hscan]
  cases dates with
  | nil => exact Or.inl ⟨rfl, fun date hdate => nomatch hlisted date hdate⟩
  | cons date dates =>
    refine Or.inr ?_
    have hdate : Fits datePattern date := hfits date (by simp)
    have hpos : ([] : List Char) < date := by
      cases date with
      | nil => exact absurd hdate id
      | cons x date => exact List.nil_lt_cons x date
    rw [List.map_cons, List.foldl_cons, later_fileName hdate, if_pos hpos]
    obtain ⟨newest, heq, hmem, hle, hall⟩ := foldl_later symbol
      (fun d hd => hfits d (List.mem_cons_of_mem _ hd)) hdate
    refine ⟨newest, heq, hnamed newest ?_, fun other hother => ?_⟩
    · rcases hmem with rfl | hmem
      · exact List.mem_cons_self
      · exact List.mem_cons_of_mem _ hmem
    · rcases List.mem_cons.1 (hlisted other hother) with rfl | hother
      · exact hle
      · exact hall other hother

theorem fileName_ne_nil (symbol : SpotSymbol) (date : List Char) : fileName symbol date ≠ [] := by simp [fileName]

end LatestFile

/-! ## The last timestamp -/

section Fetch

-- `site n path` is what the `n`-th request gives.
variable (site : ℕ → String → Except Exception (List UInt8)) (z : Zlib) (rounds : ℕ)

def spotPath (symbol : SpotSymbol) : String := "/spot/" ++ String.ofList symbol.name ++ "/"

/-- `lastCsvTimestamp(decompressGzip(body))`. -/
def readTimestamp (file : List UInt8) : Option (Except Exception ℤ) :=
  (decompressGzip z rounds file).map fun r => r.bind fun csv => lastCsvTimestamp (String.ofList (textOf csv))

/-- The `try` block, from the request `sent` on: the requests sent then, and what it returns or throws. -/
def attempt (symbol : SpotSymbol) (sent : ℕ) : ℕ × Option (Except Exception ℤ) :=
  match site sent (spotPath symbol) with
  | .error e => (sent + 1, some (.error e))
  | .ok body =>
    let latest := latestFile symbol (textOf body)
    if latest.filename = [] then (sent + 1, some (.ok 0))
    else
      match site (sent + 1) (spotPath symbol ++ String.ofList latest.filename) with
      | .error e => (sent + 2, some (.error e))
      | .ok file => (sent + 2, readTimestamp z rounds file)

/-- The loop over the attempts that are left. -/
def fetchAttempts (symbol : SpotSymbol) : ℕ → ℕ → ℕ × Option ℤ
  | 0, sent => (sent, some 0)
  | left + 1, sent =>
    match attempt site z rounds symbol sent with
    | (sent, none) => (sent, none)
    | (sent, some (.ok timestamp)) => (sent, some timestamp)
    | (sent, some (.error _)) => fetchAttempts symbol left sent

def maxRetries : ℕ := 3

/-- With at most so many calls of `inflate` for a file. With the result it gives the number of requests. -/
def fetchLastTimestampForDelistedSymbol (symbol : SpotSymbol) : ℕ × Option ℤ :=
  fetchAttempts site z rounds symbol maxRetries 0

end Fetch

/-- What one file gives: the number in the second field of its last line. -/
def Reads (z : Zlib) (file : List UInt8) (timestamp : ℤ) : Prop :=
  ∃ rounds csv line, decompressGzip z rounds file = some (.ok csv) ∧ lastLine (textOf csv) = some line ∧
    secondField line = .ok timestamp

/-- **What the function is for**: `Answers left sent sent' t` says that with so many attempts left the newest file of
the symbol gives `t`, or there is none, or all attempts fail; the requests from `sent` to `sent'` are made for it. -/
inductive Answers (site : ℕ → String → Except Exception (List UInt8)) (z : Zlib) (symbol : SpotSymbol) :
    ℕ → ℕ → ℕ → ℤ → Prop
  | exhausted (sent : ℕ) : Answers site z symbol 0 sent sent 0
  | noFile {left sent : ℕ} {body : List UInt8} (hlist : site sent (spotPath symbol) = .ok body)
      (hnone : ∀ date, ¬ FileListed symbol (textOf body) date) : Answers site z symbol (left + 1) sent (sent + 1) 0
  | reads {left sent : ℕ} {body file : List UInt8} {date : List Char} {timestamp : ℤ}
      (hlist : site sent (spotPath symbol) = .ok body) (hnewest : Newest symbol (textOf body) date)
      (hfile : site (sent + 1) (spotPath symbol ++ String.ofList (fileName symbol date)) = .ok file)
      (hreads : Reads z file timestamp) : Answers site z symbol (left + 1) sent (sent + 2) timestamp
  | noListing {left sent sent' : ℕ} {e : Exception} {timestamp : ℤ} (hlist : site sent (spotPath symbol) = .error e)
      (hagain : Answers site z symbol left (sent + 1) sent' timestamp) :
      Answers site z symbol (left + 1) sent sent' timestamp
  | unread {left sent sent' : ℕ} {body : List UInt8} {date : List Char} {timestamp : ℤ}
      (hlist : site sent (spotPath symbol) = .ok body) (hnewest : Newest symbol (textOf body) date)
      (hfile : ∀ file, site (sent + 1) (spotPath symbol ++ String.ofList (fileName symbol date)) = .ok file →
        ∀ timestamp, ¬ Reads z file timestamp)
      (hagain : Answers site z symbol left (sent + 2) sent' timestamp) :
      Answers site z symbol (left + 1) sent sent' timestamp

section Fetch

variable {site : ℕ → String → Except Exception (List UInt8)} {z : Zlib} {symbol : SpotSymbol} {rounds : ℕ}
  {file : List UInt8}

theorem decompressGzip_add {r : Except Exception (List UInt8)} (h : decompressGzip z rounds file = some r) (k : ℕ) :
    decompressGzip z (rounds + k) file = some r := by
  unfold decompressGzip at h ⊢
  split at h
  · exact h
  · exact loop_add h k

theorem decompressGzip_unique {rounds' : ℕ} {r r' : Except Exception (List UInt8)}
    (h : decompressGzip z rounds file = some r) (h' : decompressGzip z rounds' file = some r') : r = r' := by
  have hadd := decompressGzip_add h rounds'
  rw [Nat.add_comm, decompressGzip_add h' rounds] at hadd
  exact (Option.some.inj hadd).symm

theorem readTimestamp_add {r : Except Exception ℤ} (h : readTimestamp z rounds file = some r) (k : ℕ) :
    readTimestamp z (rounds + k) file = some r := by
  obtain ⟨csv, hcsv, rfl⟩ := Option.map_eq_some_iff.1 h
  unfold readTimestamp
  rw [decompressGzip_add hcsv k]
  rfl

/-- Once the file is decompressed, the function reads its last line. -/
theorem readTimestamp_of_ends {r : Except Exception (List UInt8)} (h : decompressGzip z rounds file = some r) :
    (∃ timestamp, readTimestamp z rounds file = some (.ok timestamp) ∧ Reads z file timestamp) ∨
      (∃ e, readTimestamp z rounds file = some (.error e)) ∧ ∀ timestamp, ¬ Reads z file timestamp := by
  unfold readTimestamp
  rw [h]
  cases r with
  | error e =>
    refine Or.inr ⟨⟨e, rfl⟩, ?_⟩
    rintro timestamp ⟨rounds', csv, line, hends, -⟩
    cases decompressGzip_unique h hends
  | ok csv =>
    have hread := lastCsvTimestamp_eq (String.ofList (textOf csv))
    rw [String.toList_ofList] at hread
    have hcsv : ∀ timestamp, Reads z file timestamp → ∃ line, lastLine (textOf csv) = some line ∧
        secondField line = .ok timestamp := by
      rintro timestamp ⟨rounds', csv', line, hends, hline, hfield⟩
      obtain rfl := Except.ok.inj (decompressGzip_unique h hends)
      exact ⟨line, hline, hfield⟩
    change (∃ timestamp, some (lastCsvTimestamp _) = some (.ok timestamp) ∧ _) ∨
      (∃ e, some (lastCsvTimestamp _) = some (.error e)) ∧ _
    rw [hread]
    cases hline : lastLine (textOf csv) with
    | none =>
      refine Or.inr ⟨⟨_, rfl⟩, fun timestamp hreads => ?_⟩
      obtain ⟨line, hline', -⟩ := hcsv timestamp hreads
      rw [hline] at hline'
      cases hline'
    | some line =>
      dsimp only
      cases hfield : secondField line with
      | ok timestamp => exact Or.inl ⟨timestamp, rfl, rounds, csv, line, h, hline, hfield⟩
      | error e =>
        refine Or.inr ⟨⟨e, rfl⟩, fun timestamp hreads => ?_⟩
        obtain ⟨line', hline', hfield'⟩ := hcsv timestamp hreads
        rw [hline] at hline'
        cases hline'
        rw [hfield] at hfield'
        cases hfield'

/-- The attempts that are left, with enough rounds for all of their files. -/
theorem fetchAttempts_answers (symbol : SpotSymbol) (hends : ∀ n date file,
      site n (spotPath symbol ++ String.ofList (fileName symbol date)) = .ok file →
        ∃ rounds r, decompressGzip z rounds file = some r) (left sent : ℕ) :
    ∃ rounds sent' timestamp, (∀ k, fetchAttempts site z (rounds + k) symbol left sent = (sent', some timestamp)) ∧
      Answers site z symbol left sent sent' timestamp := by
  induction left generalizing sent with
  | zero => exact ⟨0, sent, 0, fun _ => rfl, .exhausted sent⟩
  | succ left ih =>
    cases hlist : site sent (spotPath symbol) with
    | error e =>
      obtain ⟨rounds, sent', timestamp, hfetch, hanswers⟩ := ih (sent + 1)
      refine ⟨rounds, sent', timestamp, fun k => ?_, .noListing hlist hanswers⟩
      simp only [fetchAttempts, attempt, hlist]
      exact hfetch k
    | ok body =>
      rcases latestFile_cases symbol (textOf body) with ⟨hnil, hnone⟩ | ⟨date, hlatest, hnewest⟩
      · refine ⟨0, sent + 1, 0, fun k => ?_, .noFile hlist hnone⟩
        simp only [fetchAttempts, attempt, hlist, hnil, if_true]
      · have hne := fileName_ne_nil symbol date
        cases hfile : site (sent + 1) (spotPath symbol ++ String.ofList (fileName symbol date)) with
        | error e =>
          obtain ⟨rounds, sent', timestamp, hfetch, hanswers⟩ := ih (sent + 2)
          refine ⟨rounds, sent', timestamp, fun k => ?_, .unread hlist hnewest (fun file hok => ?_) hanswers⟩
          · simp only [fetchAttempts, attempt, hlist, hlatest, hne, if_false, hfile]
            exact hfetch k
          · rw [hfile] at hok
            cases hok
        | ok file =>
          obtain ⟨rounds, r, hdone⟩ := hends _ _ _ hfile
          rcases readTimestamp_of_ends hdone with ⟨timestamp, hread, hreads⟩ | ⟨⟨e, hread⟩, hunread⟩
          · refine ⟨rounds, sent + 2, timestamp, fun k => ?_, .reads hlist hnewest hfile hreads⟩
            simp only [fetchAttempts, attempt, hlist, hlatest, hne, if_false, hfile, readTimestamp_add hread k]
          · obtain ⟨rounds', sent', timestamp, hfetch, hanswers⟩ := ih (sent + 2)
            refine ⟨rounds + rounds', sent', timestamp, fun k => ?_, .unread hlist hnewest (fun file' hok => ?_) hanswers⟩
            · have hmore := hfetch (rounds + k)
              rw [← Nat.add_assoc, Nat.add_comm rounds' rounds, Nat.add_assoc] at hmore
              rw [Nat.add_assoc]
              simp only [fetchAttempts, attempt, hlist, hlatest, hne, if_false, hfile, readTimestamp_add hread]
              exact hmore
            · rw [hfile] at hok
              cases hok
              exact hunread

theorem Answers.sent_le {left sent sent' : ℕ} {timestamp : ℤ} (h : Answers site z symbol left sent sent' timestamp) :
    sent' ≤ sent + 2 * left := by
  induction h with
  | exhausted => omega
  | noFile => omega
  | reads => omega
  | noListing _ _ ih => omega
  | unread _ _ _ _ ih => omega

/-- **The last trade of a delisted symbol.** For every site whose files zlib comes to an end with, the function
returns, with at most six requests: the number in the second field of the last line of the newest file that the
listing names, 0 where it names none, and 0 after three attempts that failed. -/
theorem delisted_last_timestamp (site : ℕ → String → Except Exception (List UInt8)) (z : Zlib) (symbol : SpotSymbol)
    (hends : ∀ n date file, site n (spotPath symbol ++ String.ofList (fileName symbol date)) = .ok file →
      ∃ rounds r, decompressGzip z rounds file = some r) :
    ∃ rounds sent timestamp, fetchLastTimestampForDelistedSymbol site z rounds symbol = (sent, some timestamp) ∧
      Answers site z symbol maxRetries 0 sent timestamp ∧ sent ≤ 6 := by
  obtain ⟨rounds, sent, timestamp, hfetch, hanswers⟩ :=
    fetchAttempts_answers symbol hends maxRetries 0
  exact ⟨rounds, sent, timestamp, hfetch 0, hanswers, hanswers.sent_le⟩

/-- zlib on one gzip file, and on what begins otherwise. -/
def Zlib.one (gz content : List UInt8) : Zlib where
  Stream := Unit
  inflateInit2 := some ()
  inflate _ input _ := if input = gz then ⟨.streamEnd, [], content, ()⟩ else ⟨.dataError, [], [], ()⟩

def oldCoin : SpotSymbol := ⟨['O', 'L', 'D'], List.all_eq_true.1 (by decide)⟩

def bytesOf (s : String) : List UInt8 := s.toList.map fun c => c.toNat.toUInt8

/-- `7,1638144000000` with a line feed, stored without compression. -/
def oldCoinFile : List UInt8 :=
  [0x1f, 0x8b, 0x8, 0x0, 0x0, 0x0, 0x0, 0x0, 0x0, 0x3, 0x1, 0x10, 0x0, 0xef, 0xff, 0x37, 0x2c, 0x31,
    0x36, 0x33, 0x38, 0x31, 0x34, 0x34, 0x30, 0x30, 0x30, 0x30, 0x30, 0x30, 0xa, 0xde, 0x45, 0xb1,
    0x5e, 0x10, 0x0, 0x0, 0x0]

/-- Two files are listed, the first download of the newer one fails. -/
def oldCoinSite (n : ℕ) (_ : String) : Except Exception (List UInt8) :=
  if n = 1 then .error (.transportError "reset")
  else if n = 3 then .ok oldCoinFile
  else .ok (bytesOf "<a>OLD_2021-11-29.csv.gz</a><a>OLD_2021-09-30.csv.gz</a>")

theorem delisted_last_timestamp_oldCoin :
    (∃ rounds sent timestamp, fetchLastTimestampForDelistedSymbol oldCoinSite
        (.one oldCoinFile (bytesOf "7,1638144000000\n")) rounds oldCoin = (sent, some timestamp) ∧
      Answers oldCoinSite (.one oldCoinFile (bytesOf "7,1638144000000\n")) oldCoin maxRetries 0 sent timestamp ∧
        sent ≤ 6) ∧
    fetchLastTimestampForDelistedSymbol oldCoinSite (.one oldCoinFile (bytesOf "7,1638144000000\n")) 1 oldCoin =
      (4, some 1638144000000) := by
  refine ⟨delisted_last_timestamp oldCoinSite _ oldCoin fun n date file _ => ⟨1, ?_⟩, by decide +kernel⟩
  by_cases hgz : availIn file = oldCoinFile
  · exact ⟨.ok (bytesOf "7,1638144000000\n"), by simp [decompressGzip, Zlib.one, loop, inflateRound, hgz]⟩
  · refine ⟨.error (.runtimeError "inflate failed: -3"), ?_⟩
    simp [decompressGzip, Zlib.one, loop, inflateRound, hgz]
    rfl

end Fetch

end BybitApi.Rest
