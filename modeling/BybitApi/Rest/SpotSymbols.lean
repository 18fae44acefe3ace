import BybitApi.Rest.Delisted
import BybitApi.Rest.InstrumentCache

/-!
# The symbols there ever were

`fetchPublicSpotSymbols` takes the names out of the links of a directory listing, and a spot call of
`getInstrumentsInfo` with a status makes of them the list of delisted instruments: those that end in USDT and are
not in the cache.
-/

namespace BybitApi.Rest

open Lib

/-! ## Links -/

def linkOpen : List Char := ['h', 'r', 'e', 'f', '=', '"']

/-- The link to a name. -/
def link (name : List Char) : List Char := linkOpen ++ (name ++ ['"'])

/-- `[A-Z0-9]+`. -/
def IsName (name : List Char) : Prop := name ≠ [] ∧ ∀ c ∈ name, isSymbolChar c = true

/-- The match at the beginning of a text. It takes all the characters of a name that there are: the quotation mark
behind them is none. -/
def linkAt (s : List Char) : Option (List Char) :=
  let text := s.drop linkOpen.length
  let name := text.takeWhile isSymbolChar
  if linkOpen <+: s ∧ name ≠ [] ∧ (text.dropWhile isSymbolChar).head? = some '"' then some (link name) else none

/-- `(*it)[1]`. -/
def capturedName (found : List Char) : List Char := (found.drop linkOpen.length).dropLast

section Links

variable {s t name body : List Char}

theorem capturedName_link (name : List Char) : capturedName (link name) = name := by
  rw [capturedName, link, List.drop_left, List.dropLast_concat]

theorem linkAt_eq_some : linkAt s = some t ↔ ∃ name, IsName name ∧ t = link name ∧ link name <+: s := by
  unfold linkAt
  dsimp only
  constructor
  · intro h
    obtain ⟨⟨⟨rest, rfl⟩, hne, hmark⟩, ht⟩ := Option.ite_none_right_eq_some.1 h
    obtain rfl := Option.some.inj ht
    rw [List.drop_left] at hne hmark ⊢
    refine ⟨_, ⟨hne, fun c hc => List.mem_takeWhile_imp hc⟩, rfl, ?_⟩
    obtain ⟨behind, hbehind⟩ := List.head?_eq_some_iff.1 hmark
    refine ⟨behind, ?_⟩
    have hsplit : rest.takeWhile isSymbolChar ++ rest.dropWhile isSymbolChar = rest := List.takeWhile_append_dropWhile
    rw [hbehind] at hsplit
    rw [link, List.append_assoc, List.append_assoc, List.singleton_append, hsplit]
  · rintro ⟨name, ⟨hne, hplain⟩, rfl, rest, rfl⟩
    have htext : (link name ++ rest).drop linkOpen.length = name ++ '"' :: rest := by
      rw [link, List.append_assoc, List.drop_left, List.append_assoc, List.singleton_append]
    have hmark : isSymbolChar '"' = false := by decide
    have htake : (name ++ '"' :: rest).takeWhile isSymbolChar = name := by
      rw [List.takeWhile_append_of_pos hplain, List.takeWhile_cons_of_neg (by simp [hmark]), List.append_nil]
    have hdrop : (name ++ '"' :: rest).dropWhile isSymbolChar = '"' :: rest := by
      rw [List.dropWhile_append_of_pos hplain, List.dropWhile_cons_of_neg (by simp [hmark])]
    rw [htext, htake, hdrop, if_pos]
    exact ⟨⟨name ++ ['"'] ++ rest, by simp [link]⟩, hne, rfl⟩

/-- `R"re(href="([A-Z0-9]+)")re"`. -/
def linkRegex : Matcher Char where
  find := linkAt
  isPrefix h := by
    obtain ⟨name, -, rfl, hprefix⟩ := linkAt_eq_some.1 h
    exact hprefix
  ne_nil h := by
    obtain ⟨name, -, hnil, -⟩ := linkAt_eq_some.1 h
    exact nomatch hnil

/-- A match begins with the one `h` it has. -/
theorem apart_linkRegex : linkRegex.Apart := by
  intro s t ht k hk hlt
  obtain ⟨name, hname, rfl, rest, rfl⟩ := linkAt_eq_some.1 ht
  by_contra hfind
  obtain ⟨u, hu⟩ := Option.ne_none_iff_exists'.1 hfind
  obtain ⟨other, -, rfl, behind, hbehind⟩ := linkAt_eq_some.1 hu
  have hplace : (link name)[k]? = some 'h' := by
    have hhead : ((link name ++ rest).drop k)[0]? = some 'h' := by
      rw [← hbehind]
      rfl
    rwa [List.getElem?_drop, Nat.add_zero, List.getElem?_append_left hlt] at hhead
  obtain ⟨k, rfl⟩ : ∃ j, k = j + 1 := ⟨k - 1, by omega⟩
  have hmem : 'h' ∈ ['r', 'e', 'f', '=', '"'] ++ (name ++ ['"']) := List.mem_of_getElem? (i := k) hplace
  simp only [List.mem_append, List.mem_cons, List.not_mem_nil, or_false] at hmem
  rcases hmem with hmem | hmem | hmem
  · exact absurd hmem (by decide)
  · exact absurd (hname.2 'h' hmem) (by decide)
  · exact absurd hmem (by decide)

/-- The names of the links of a page, in order. -/
def linkNames (body : List Char) : List (List Char) := (linkRegex.scan 0 body).map capturedName

theorem mem_linkNames : name ∈ linkNames body ↔ IsName name ∧ link name <:+: body := by
  unfold linkNames
  rw [List.mem_map]
  constructor
  · rintro ⟨found, hfound, rfl⟩
    obtain ⟨b, hb, hfind⟩ := (Matcher.mem_scan apart_linkRegex).1 hfound
    obtain ⟨name, hname, rfl, hprefix⟩ := linkAt_eq_some.1 hfind
    rw [capturedName_link]
    exact ⟨hname, hprefix.isInfix.trans hb.isInfix⟩
  · rintro ⟨hname, before, behind, rfl⟩
    refine ⟨link name, (Matcher.mem_scan apart_linkRegex).2 ⟨link name ++ behind, ?_, ?_⟩, capturedName_link name⟩
    · exact ⟨before, by rw [List.append_assoc]⟩
    · exact linkAt_eq_some.2 ⟨name, hname, rfl, List.prefix_append _ _⟩

end Links

/-! ## Attempts -/

section Symbols

-- `site n` is what the `n`-th request for the listing gives.
variable (site : ℕ → Except Exception (List UInt8))

/-- The loop over the attempts that are left. -/
def symbolAttempts : ℕ → ℕ → List String
  | 0, _ => []
  | left + 1, sent =>
    match site sent with
    | .ok body => (linkNames (textOf body)).map String.ofList
    | .error _ => symbolAttempts left (sent + 1)

def fetchPublicSpotSymbols : List String := symbolAttempts site maxRetries 0

/-- The first page that could be read, among so many. -/
def FirstPage (body : List UInt8) : Prop :=
  ∃ n < maxRetries, site n = .ok body ∧ ∀ k < n, ∃ e, site k = .error e

variable {site} {body : List UInt8} {symbol : String}

theorem mem_symbolAttempts {left sent : ℕ} : symbol ∈ symbolAttempts site left sent ↔ ∃ n body, n < left ∧
    site (sent + n) = .ok body ∧ (∀ k < n, ∃ e, site (sent + k) = .error e) ∧
      symbol.toList ∈ linkNames (textOf body) := by
  induction left generalizing sent with
  | zero =>
    refine iff_of_false nofun ?_
    rintro ⟨n, -, hn, -⟩
    exact absurd hn (Nat.not_lt_zero n)
  | succ left ih =>
    rw [symbolAttempts]
    cases hsite : site sent with
    | ok body =>
      dsimp only
      rw [List.mem_map]
      constructor
      · rintro ⟨name, hname, rfl⟩
        exact ⟨0, body, Nat.succ_pos left, hsite, nofun, by rwa [String.toList_ofList]⟩
      · rintro ⟨n, page, -, hpage, hfailed, hname⟩
        cases n with
        | zero =>
          obtain rfl := Except.ok.inj (hsite.symm.trans hpage)
          exact ⟨symbol.toList, hname, String.ofList_toList⟩
        | succ n =>
          obtain ⟨e, he⟩ := hfailed 0 (Nat.succ_pos n)
          cases hsite.symm.trans he
    | error e =>
      dsimp only
      rw [ih]
      constructor
      · rintro ⟨n, page, hn, hpage, hfailed, hname⟩
        refine ⟨n + 1, page, by omega, ?_, fun k hk => ?_, hname⟩
        · rwa [Nat.add_comm n 1, ← Nat.add_assoc]
        · cases k with
          | zero => exact ⟨e, hsite⟩
          | succ k =>
            rw [Nat.add_comm k 1, ← Nat.add_assoc]
            exact hfailed k (by omega)
      · rintro ⟨n, page, hn, hpage, hfailed, hname⟩
        cases n with
        | zero => cases hsite.symm.trans hpage
        | succ n =>
          refine ⟨n, page, by omega, ?_, fun k hk => ?_, hname⟩
          · rwa [Nat.add_assoc, Nat.add_comm 1 n]
          · rw [Nat.add_assoc, Nat.add_comm 1 k]
            exact hfailed (k + 1) (by omega)

/-- What it returns are the links of the first page that can be read. -/
theorem mem_fetchPublicSpotSymbols : symbol ∈ fetchPublicSpotSymbols site ↔ ∃ body, FirstPage site body ∧
    IsName symbol.toList ∧ link symbol.toList <:+: textOf body := by
  unfold fetchPublicSpotSymbols FirstPage
  simp only [mem_symbolAttempts, mem_linkNames, Nat.zero_add]
  constructor
  · rintro ⟨n, body, hn, hpage, hfailed, hname⟩
    exact ⟨body, ⟨n, hn, hpage, hfailed⟩, hname⟩
  · rintro ⟨body, ⟨n, hn, hpage, hfailed⟩, hname⟩
    exact ⟨n, body, hn, hpage, hfailed, hname⟩

end Symbols

/-! ## The delisted instruments -/

section Delisted

variable {venue : InstrumentVenue} {rounds : ℕ} {call : InfoCall} {s s' : Cache} {l : List Instrument}

/-- A spot call with a status compares the symbols there were with what the cache then holds. -/
theorem getInstrumentsInfo_spot (hcategory : call.category = .spot) (hstatus : call.status ≠ "")
    (h : getInstrumentsInfo venue rounds call s = some (.ok l, s')) :
    ∃ n, s'.begun = n + 1 ∧ l = delisted (venue.publicSpotSymbols n) s'.instruments := by
  obtain ⟨⟨r, s₁⟩, hinfo, heq⟩ := Option.map_eq_some_iff.1 h
  rw [if_neg hstatus] at hinfo
  obtain ⟨rfl, rfl⟩ := Prod.mk.inj heq
  have hspot : ∀ {s s₁ : Cache}, delistedSpot venue s = some (.ok l, s₁) →
      ∃ n, s₁.begun = n + 1 ∧ l = delisted (venue.publicSpotSymbols n) s₁.instruments := by
    intro s s₁ hdelisted
    cases hdelisted
    exact ⟨s.begun, rfl, rfl⟩
  change ∃ n, s₁.begun = n + 1 ∧ l = delisted (venue.publicSpotSymbols n) s₁.instruments
  rw [infoWithStatus, Call.get_bind, if_neg (by simp [hcategory])] at hinfo
  split at hinfo
  · rw [seqRight_eq_bind] at hinfo
    obtain ⟨e, -, hr⟩ | ⟨fetch, s₂, -, hdelisted⟩ := Call.bind_eq_some.1 hinfo
    · cases hr
    · exact hspot hdelisted
  · exact hspot hinfo

/-- **What was delisted.** A spot call of `getInstrumentsInfo` with a status returns an instrument for each link of
the first listing page that can be read (of three attempts) whose name ends in USDT and is no symbol of the cache,
and no other; none, where no attempt succeeds. -/
theorem delisted_listed {site : ℕ → ℕ → Except Exception (List UInt8)}
    (hpublic : ∀ n, venue.publicSpotSymbols n = fetchPublicSpotSymbols (site n)) (hcategory : call.category = .spot)
    (hstatus : call.status ≠ "") (h : getInstrumentsInfo venue rounds call s = some (.ok l, s')) :
    ∃ n, s'.begun = n + 1 ∧ ∀ i, i ∈ l ↔ ∃ body symbol, FirstPage (site n) body ∧ IsName symbol.toList ∧
      link symbol.toList <:+: textOf body ∧ "USDT".toList <:+ symbol.toList ∧ (∀ j ∈ s'.instruments, j.symbol ≠ symbol) ∧
        i = { symbol := symbol, quoteCoin := "USDT", contractStatus := .Closed } := by
  obtain ⟨n, hbegun, rfl⟩ := getInstrumentsInfo_spot hcategory hstatus h
  refine ⟨n, hbegun, fun i => ?_⟩
  simp only [delisted, List.mem_map, List.mem_filter, hpublic, mem_fetchPublicSpotSymbols, Bool.and_eq_true,
    List.isSuffixOf_iff_suffix, Bool.not_eq_true', List.any_eq_false, decide_eq_true_eq]
  constructor
  · rintro ⟨symbol, ⟨⟨body, hpage, hname, hlink⟩, hend, hactive⟩, rfl⟩
    exact ⟨body, symbol, hpage, hname, hlink, hend, hactive, rfl⟩
  · rintro ⟨body, symbol, hpage, hname, hlink, hend, hactive, rfl⟩
    exact ⟨symbol, ⟨⟨body, hpage, hname, hlink⟩, hend, hactive⟩, rfl⟩

/-- The second attempt finds two links; one of the symbols is active. -/
def linksSite (_ n : ℕ) : Except Exception (List UInt8) :=
  if n = 0 then .error (.transportError "reset")
  else .ok (bytesOf "<a href=\"OLDUSDT\"><a href=\"BTCUSDT\"><a href=\"robots\">")

def linksVenue : InstrumentVenue where
  page _ _ _ := .ok ⟨[{ symbol := "BTCUSDT" }], ""⟩
  publicSpotSymbols n := fetchPublicSpotSymbols (linksSite n)

theorem delisted_listed_links : ∃ l s', getInstrumentsInfo linksVenue 2 { category := .spot, status := "Closed" } .empty =
      some (.ok l, s') ∧ l.map Instrument.symbol = ["OLDUSDT"] ∧ ∃ n, s'.begun = n + 1 ∧ ∀ i, i ∈ l ↔ ∃ body symbol,
        FirstPage (linksSite n) body ∧ IsName symbol.toList ∧ link symbol.toList <:+: textOf body ∧
          "USDT".toList <:+ symbol.toList ∧ (∀ j ∈ s'.instruments, j.symbol ≠ symbol) ∧
            i = { symbol := symbol, quoteCoin := "USDT", contractStatus := .Closed } := by
  have hrun : ((getInstrumentsInfo linksVenue 2 { category := .spot, status := "Closed" } .empty).any fun p =>
      p.1.toOption.any fun l => decide (l.map Instrument.symbol = ["OLDUSDT"])) = true := by decide +kernel
  obtain ⟨⟨r, s'⟩, hcall, hlist⟩ := (Option.any_eq_true _ _).mp hrun
  obtain ⟨l, hl, hsymbols⟩ := (Option.any_eq_true _ _).mp hlist
  obtain rfl : r = .ok l := by
    cases r with
    | error e => cases hl
    | ok l' =>
      cases hl
      rfl
  exact ⟨l, s', hcall, of_decide_eq_true hsymbols, delisted_listed (fun _ => rfl) rfl (by decide) hcall⟩

end Delisted

end BybitApi.Rest
