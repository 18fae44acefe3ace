import BybitApi.Rest.Instruments

/-!
# The instrument cache

What can be in the cache, and what a look-up takes from it, over any sequence of calls. A call of
`getInstrumentsInfo` ends in one of the ways of `InfoOutcome`; both results below go through them.
-/

namespace BybitApi.Rest

open Lib

/-- The rows of all its pages, as the venue answered them. -/
def Fetch.Answered (venue : InstrumentVenue) (fetch : Fetch) : Prop :=
  ∃ pages, Pages (fun n cursor => venue.page fetch.number n
      (instrumentsRequest fetch.category fetch.symbol cursor fetch.status)) 0 "" pages ∧
    fetch.instruments = pages.flatMap Page.rows

/-! ## One call -/

/-- How a call of `getInstrumentsInfo` ends, but for the record of its end. -/
inductive InfoOutcome (venue : InstrumentVenue) (call : InfoCall) (s : Cache) :
    Except Exception (List Instrument) → Cache → Prop
  | cached (hst : call.status = "") (hne : s.instruments ≠ []) (hforce : call.force = false) :
    InfoOutcome venue call s (.ok s.instruments) s
  | failed (e : Exception) : InfoOutcome venue call s (.error e) s.begin
  | fetched {fetch : Fetch} (hans : fetch.Answered venue) (hcat : fetch.category = call.category) :
    InfoOutcome venue call s (.ok fetch.instruments) (s.begin.record (.fetched fetch))
  | seeded {fetch : Fetch} (hans : fetch.Answered venue) (hcat : fetch.category = call.category)
      (hcall : call.status = "") (hsym : fetch.symbol = "") (hst : fetch.status = "") :
    InfoOutcome venue call s (.ok fetch.instruments) ((s.begin.record (.fetched fetch)).store fetch)
  | delisted (r : List Instrument) (hcall : call.status ≠ "") : InfoOutcome venue call s (.ok r) s.begin
  | spotSeeded {fetch : Fetch} (r : List Instrument) (hans : fetch.Answered venue)
      (hcat : fetch.category = call.category) (hspot : call.category = .spot) (hcall : call.status ≠ "")
      (hempty : s.instruments = []) :
    InfoOutcome venue call s (.ok r) ((s.begin.record (.fetched fetch)).store fetch).begin

section Calls

variable {venue : InstrumentVenue} {rounds : ℕ} {call : InfoCall} {s s' : Cache} {category : Category}
  {symbol status : String}

theorem fetchInstruments_cases {r : Except Exception Fetch}
    (h : fetchInstruments venue rounds category symbol status s = some (r, s')) :
    (∃ e, r = .error e ∧ s' = s.begin) ∨
      ∃ fetch : Fetch, r = .ok fetch ∧ s' = s.begin.record (.fetched fetch) ∧ fetch.Answered venue ∧
        fetch.category = category ∧ fetch.symbol = symbol ∧ fetch.status = status := by
  rw [fetchInstruments, Call.get_bind, Call.modify_bind] at h
  obtain ⟨e, hlist, rfl⟩ | ⟨instruments, s₁, hlist, hrec⟩ := Call.bind_eq_some.1 h
  · obtain ⟨-, rfl⟩ := Call.ofOption_eq_some.1 hlist
    exact Or.inl ⟨e, rfl, rfl⟩
  · obtain ⟨hpages, rfl⟩ := Call.ofOption_eq_some.1 hlist
    rw [Call.modify_bind] at hrec
    obtain ⟨rfl, rfl⟩ := Call.pure_eq_some.1 hrec
    exact Or.inr ⟨_, rfl, rfl, listing_pages hpages, rfl, rfl, rfl⟩

theorem fetchAndStore_cases {r : Except Exception Fetch}
    (h : fetchAndStore venue rounds category symbol s = some (r, s')) :
    (∃ e, r = .error e ∧ s' = s.begin) ∨
      ∃ fetch : Fetch, r = .ok fetch ∧ s' = (s.begin.record (.fetched fetch)).store fetch ∧
        fetch.Answered venue ∧ fetch.category = category ∧ fetch.symbol = symbol ∧ fetch.status = "" := by
  obtain ⟨e, hfetch, rfl⟩ | ⟨fetch, s₁, hfetch, hstore⟩ := Call.bind_eq_some.1 h
  · obtain ⟨e', -, rfl⟩ | ⟨fetch, hr, -⟩ := fetchInstruments_cases hfetch
    · exact Or.inl ⟨e, rfl, rfl⟩
    · cases hr
  · obtain ⟨e, hr, -⟩ | ⟨fetch', hr, rfl, hans, hcat, hsym, hst⟩ := fetchInstruments_cases hfetch
    · cases hr
    · cases hr
      rw [Call.modify_bind] at hstore
      obtain ⟨rfl, rfl⟩ := Call.pure_eq_some.1 hstore
      exact Or.inr ⟨fetch, rfl, rfl, hans, hcat, hsym, hst⟩

theorem delistedSpot_cases {r : Except Exception (List Instrument)}
    (h : delistedSpot venue s = some (r, s')) : (∃ l, r = .ok l) ∧ s' = s.begin := by
  rw [delistedSpot, Call.get_bind, Call.modify_bind] at h
  obtain ⟨rfl, rfl⟩ := Call.pure_eq_some.1 h
  exact ⟨⟨_, rfl⟩, rfl⟩

theorem infoWithStatus_cases {r : Except Exception (List Instrument)} (hcall : call.status ≠ "")
    (h : infoWithStatus venue rounds call s = some (r, s')) : InfoOutcome venue call s r s' := by
  rw [infoWithStatus, Call.get_bind] at h
  split at h
  · obtain ⟨r', hfetch, rfl⟩ := Call.map_eq_some.1 h
    obtain ⟨e, rfl, rfl⟩ | ⟨fetch, rfl, rfl, hans, hcat, -⟩ := fetchInstruments_cases hfetch
    · exact .failed e
    · exact .fetched hans hcat
  next hspot =>
    split at h
    next hempty =>
      rw [seqRight_eq_bind] at h
      obtain ⟨e, hfetch, rfl⟩ | ⟨fetch, s₁, hfetch, hdel⟩ := Call.bind_eq_some.1 h
      · obtain ⟨e', -, rfl⟩ | ⟨fetch, hr, -⟩ := fetchAndStore_cases hfetch
        · exact .failed e
        · cases hr
      · obtain ⟨e, hr, -⟩ | ⟨fetch', hr, rfl, hans, hcat, -⟩ := fetchAndStore_cases hfetch
        · cases hr
        · obtain ⟨⟨l, rfl⟩, rfl⟩ := delistedSpot_cases hdel
          exact .spotSeeded l hans hcat (by simpa using hspot) hcall hempty
    · obtain ⟨⟨l, rfl⟩, rfl⟩ := delistedSpot_cases h
      exact .delisted l hcall

theorem infoWithoutStatus_cases {r : Except Exception (List Instrument)} (hcall : call.status = "")
    (h : infoWithoutStatus venue rounds call s = some (r, s')) : InfoOutcome venue call s r s' := by
  rw [infoWithoutStatus, Call.get_bind] at h
  split at h
  next hcached =>
    obtain ⟨rfl, rfl⟩ := Call.pure_eq_some.1 h
    exact .cached hcall hcached.1 hcached.2
  · split at h
    · obtain ⟨r', hfetch, rfl⟩ := Call.map_eq_some.1 h
      obtain ⟨e, rfl, rfl⟩ | ⟨fetch, rfl, rfl, hans, hcat, hsym, hst⟩ := fetchAndStore_cases hfetch
      · exact .failed e
      · exact .seeded hans hcat hcall hsym hst
    · obtain ⟨r', hfetch, rfl⟩ := Call.map_eq_some.1 h
      obtain ⟨e, rfl, rfl⟩ | ⟨fetch, rfl, rfl, hans, hcat, -⟩ := fetchInstruments_cases hfetch
      · exact .failed e
      · exact .fetched hans hcat

theorem getInstrumentsInfo_cases {r : Except Exception (List Instrument)}
    (h : getInstrumentsInfo venue rounds call s = some (r, s')) :
    ∃ s₁, InfoOutcome venue call s r s₁ ∧
      s' = s₁.record (.returned call s.instruments s₁.instruments r) := by
  obtain ⟨⟨r', s₁⟩, hbody, heq⟩ := Option.map_eq_some_iff.1 h
  cases heq
  refine ⟨s₁, ?_, rfl⟩
  split at hbody
  next hcall => exact infoWithoutStatus_cases hcall hbody
  next hcall => exact infoWithStatus_cases hcall hbody

end Calls

/-! ## What the cache holds -/

/-- Nothing, or all pages of a fetch with neither a symbol nor a status. -/
def FullOrEmpty (venue : InstrumentVenue) (instruments : List Instrument) (past : List Event) : Prop :=
  instruments = [] ∨ ∃ fetch : Fetch, .fetched fetch ∈ past ∧ fetch.Answered venue ∧ fetch.symbol = "" ∧
    fetch.status = "" ∧ instruments = fetch.instruments

/-- What is stored is all of a fetch without a symbol and a status, and a call of
`getInstrumentsInfo` that has a status, or fails, leaves the cache as it was. -/
def CacheRule (venue : InstrumentVenue) : Event → List Event → Prop
  | .stored fetch, past => FullOrEmpty venue fetch.instruments past
  | .returned call before after r, _ => call.status ≠ "" ∨ (∃ e, r = .error e) → after = before
  | _, _ => True

/-- The public `setInstruments` is not used. -/
def NoPublicSet (_ : Cache) : ℕ × InstrumentOp → Prop
  | (_, .setInstruments _) => False
  | _ => True

/-- No spot request with a status finds the cache empty. -/
def NoSpotStatus (s : Cache) : ℕ × InstrumentOp → Prop
  | (_, .getInstrumentsInfo call) => ¬ (call.status ≠ "" ∧ call.category = .spot ∧ s.instruments = [])
  | _ => True

section Full

variable {venue : InstrumentVenue} {rounds : ℕ} {call : InfoCall} {s s' : Cache} {category : Category}
  {symbol : String} {instruments : List Instrument} {past past' : List Event}

theorem FullOrEmpty.mono (h : FullOrEmpty venue instruments past) (hsub : past ⊆ past') :
    FullOrEmpty venue instruments past' := by
  obtain h | ⟨fetch, hmem, h⟩ := h
  · exact Or.inl h
  · exact Or.inr ⟨fetch, hsub hmem, h⟩

/-- The invariant. -/
def CacheFull (venue : InstrumentVenue) (s : Cache) : Prop :=
  FullOrEmpty venue s.instruments s.trace ∧ Each (CacheRule venue) s.trace

theorem CacheFull.record {e : Event} (h : CacheFull venue s) (he : CacheRule venue e s.trace) :
    CacheFull venue (s.record e) :=
  ⟨h.1.mono (List.subset_cons_self _ _), each_cons.2 ⟨he, h.2⟩⟩

theorem CacheFull.begin (h : CacheFull venue s) : CacheFull venue s.begin := h

theorem InfoOutcome.cacheFull {r : Except Exception (List Instrument)} (h : InfoOutcome venue call s r s')
    (hs : CacheFull venue s) (hcall : ¬ (call.status ≠ "" ∧ call.category = .spot ∧ s.instruments = [])) :
    CacheFull venue s' ∧ (call.status ≠ "" ∨ (∃ e, r = .error e) → s'.instruments = s.instruments) := by
  cases h with
  | cached => exact ⟨hs, fun _ => rfl⟩
  | failed e => exact ⟨hs, fun _ => rfl⟩
  | fetched => exact ⟨hs.begin.record trivial, fun _ => rfl⟩
  | @seeded fetch hans hcat hst hsym hstatus =>
    have hfetch := hs.begin.record (e := .fetched fetch) trivial
    have hfull : FullOrEmpty venue fetch.instruments (s.begin.record (.fetched fetch)).trace :=
      Or.inr ⟨fetch, List.mem_cons_self, hans, hsym, hstatus, rfl⟩
    refine ⟨⟨hfull.mono (List.subset_cons_self _ _), each_cons.2 ⟨hfull, hfetch.2⟩⟩, ?_⟩
    rintro (hne | ⟨e, he⟩)
    · exact absurd hst hne
    · cases he
  | delisted => exact ⟨hs, fun _ => rfl⟩
  | spotSeeded r hans hcat hspot hst hempty => exact absurd ⟨hst, hspot, hempty⟩ hcall

theorem getInstrumentsInfo_cacheFull {r : Except Exception (List Instrument)} (hs : CacheFull venue s)
    (hcall : ¬ (call.status ≠ "" ∧ call.category = .spot ∧ s.instruments = []))
    (h : getInstrumentsInfo venue rounds call s = some (r, s')) : CacheFull venue s' := by
  obtain ⟨s₁, hout, rfl⟩ := getInstrumentsInfo_cases h
  obtain ⟨h₁, hkept⟩ := hout.cacheFull hs hcall
  exact h₁.record hkept

/-- The calls that a look-up makes have no status. -/
theorem getInstrumentsInfo_keeps (hst : call.status = "") :
    Call.Keeps (CacheFull venue) (getInstrumentsInfo venue rounds call) :=
  fun _ _ _ hs h => getInstrumentsInfo_cacheFull hs (fun hcall => hcall.1 hst) h

theorem orFetch_keeps : Call.Keeps (CacheFull venue) (orFetch venue rounds category symbol instruments) := by
  unfold orFetch
  split
  · exact .pure
  · exact .map (getInstrumentsInfo_keeps rfl)

theorem recordSome_keeps {α : Type} (event : α → Event) {o : Option α}
    (he : ∀ a past, CacheRule venue (event a) past) : Call.Keeps (CacheFull venue) (recordSome event o) := by
  cases o with
  | none => exact .pure
  | some a => exact .modify fun s hs => hs.record (he a s.trace)

theorem knownInstruments_keeps : Call.Keeps (CacheFull venue) (knownInstruments venue rounds category) := by
  refine .get_bind fun s => ?_
  split
  · exact .pure
  · exact (getInstrumentsInfo_keeps rfl).bind fun _ => .get_bind fun _ => .pure

theorem getInstrumentInfo_keeps :
    Call.Keeps (CacheFull venue) (getInstrumentInfo venue rounds category symbol) :=
  knownInstruments_keeps.bind fun _ => orFetch_keeps.bind fun _ =>
    (recordSome_keeps (.listed category symbol) fun _ _ => trivial).bind fun _ => .pure

theorem findPricePrecisionsForInstrument_keeps :
    Call.Keeps (CacheFull venue) (findPricePrecisionsForInstrument venue rounds category symbol) :=
  (getInstrumentsInfo_keeps rfl).bind fun _ => orFetch_keeps.bind fun _ =>
    (recordSome_keeps (.found category symbol) fun _ _ => trivial).bind fun _ => .pure

/-- The step lemma. -/
theorem InstrumentOp.run_cacheFull {op : InstrumentOp} (hs : CacheFull venue s)
    (hset : NoPublicSet s (rounds, op)) (hspot : NoSpotStatus s (rounds, op))
    (h : op.run venue rounds s = some s') : CacheFull venue s' := by
  cases op with
  | getInstrumentsInfo call =>
    obtain ⟨⟨r, s₁⟩, hcall, rfl⟩ := Option.map_eq_some_iff.1 h
    exact getInstrumentsInfo_cacheFull hs hspot hcall
  | getInstrumentInfo category symbol =>
    obtain ⟨⟨r, s₁⟩, hcall, rfl⟩ := Option.map_eq_some_iff.1 h
    exact getInstrumentInfo_keeps s r s₁ hs hcall
  | placeOrder rest order =>
    obtain ⟨⟨r, s₁⟩, hcall, rfl⟩ := Option.map_eq_some_iff.1 h
    exact findPricePrecisionsForInstrument_keeps.bind (fun _ =>
      (recordSome_keeps (.formatted order.category order.symbol) fun _ _ => trivial).bind
        fun _ => .ofExcept) s r s₁ hs hcall
  | amendOrder rest category symbol orderId orderLinkId price qty =>
    obtain ⟨⟨r, s₁⟩, hcall, rfl⟩ := Option.map_eq_some_iff.1 h
    exact findPricePrecisionsForInstrument_keeps.bind (fun _ =>
      (recordSome_keeps (.formatted category symbol) fun _ _ => trivial).bind fun _ => .ofExcept)
        s r s₁ hs hcall
  | setInstruments instruments => exact absurd hset id

/-- **The cache holds the full universe or nothing**, in every run without the public
`setInstruments` in which no spot request with a status finds the cache empty. -/
theorem cache_full_or_empty
    (h : (instrumentCalls venue).Reach (fun s a => NoPublicSet s a ∧ NoSpotStatus s a) s) :
    FullOrEmpty venue s.instruments s.trace ∧ Each (CacheRule venue) s.trace := by
  refine h.invariant (I := CacheFull venue) ⟨Or.inl rfl, each_nil⟩ ?_
  rintro s ⟨rounds, op⟩ s' - ⟨hset, hspot⟩ hstep hs
  exact op.run_cacheFull hs hset hspot hstep

end Full

/-! ## Runs -/

/-- Instruments of two categories that share a symbol. -/
def twoMarkets : Category → List Instrument
  | .linear => [{ symbol := "BTCUSDT", quoteCoin := "USDT", priceFilter := ⟨1 / 10⟩, lotSizeFilter := ⟨1 / 1000⟩ }]
  | .spot =>
    [{ symbol := "BTCUSDT", quoteCoin := "USDT", priceFilter := ⟨1 / 100⟩, lotSizeFilter := ⟨1 / 1000000⟩ },
      { symbol := "ETHUSDT", quoteCoin := "USDT", priceFilter := ⟨1 / 100⟩, lotSizeFilter := ⟨1 / 100000⟩ }]
  | _ => []

/-- A venue that answers with one page. -/
def twoMarketsVenue : InstrumentVenue :=
  ⟨fun _ _ request => .ok ⟨(twoMarkets request.category).filter fun i => request.symbol.all (i.symbol = ·), ""⟩,
    fun _ => []⟩

/-- A forced fetch of one symbol leaves a primed cache alone. -/
theorem cache_full_or_empty_forced :
    ∃ s, (instrumentCalls twoMarketsVenue).Reach (fun s a => NoPublicSet s a ∧ NoSpotStatus s a) s ∧
      s.instruments = twoMarkets .spot ∧ s.begun = 2 ∧ FullOrEmpty twoMarketsVenue s.instruments s.trace ∧
        Each (CacheRule twoMarketsVenue) s.trace :=
  have hprimed := System.Reach.init.step (S := instrumentCalls twoMarketsVenue)
    (a := (1, .getInstrumentsInfo { category := .spot })) ⟨trivial, fun h => h.1 rfl⟩ rfl
  have hforced := hprimed.step (a := (1, .getInstrumentsInfo ⟨.spot, "ETHUSDT", true, ""⟩))
    ⟨trivial, fun h => h.1 rfl⟩ rfl
  ⟨_, hforced, rfl, rfl, cache_full_or_empty hforced⟩

/-- On a fresh client a request with a status stores the listing of one symbol. -/
theorem cache_of_one_symbol : ∃ s, (instrumentCalls twoMarketsVenue).Reach NoPublicSet s ∧
    ¬ FullOrEmpty twoMarketsVenue s.instruments s.trace := by
  let fetch : Fetch := ⟨0, .spot, "BTCUSDT", "", (twoMarkets .spot).take 1⟩
  refine ⟨⟨fetch.instruments, 2, [.returned ⟨.spot, "BTCUSDT", false, "Closed"⟩ [] fetch.instruments (.ok []),
    .stored fetch, .fetched fetch]⟩, System.Reach.init.step
      (a := (1, .getInstrumentsInfo ⟨.spot, "BTCUSDT", false, "Closed"⟩)) trivial rfl, ?_⟩
  rintro (hnil | ⟨fetch', hmem, -, hsym, -⟩)
  · cases hnil
  · obtain rfl : fetch' = fetch := by simpa using hmem
    exact absurd hsym (by decide)

end BybitApi.Rest
