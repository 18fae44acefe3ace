import BybitApi.Rest.InstrumentCache

/-!
# Precisions

Where the instruments and the steps of a look-up come from. A look-up asks for a category, but the
cache does not know the category it was filled for; it is the right one as long as no look-up finds
its symbol in a cache that another category filled.
-/

namespace BybitApi.Rest

open Lib

/-- The fetch that filled the cache. -/
def filler : List Event → Option Fetch
  | [] => none
  | .stored fetch :: _ => some fetch
  | .replaced _ :: _ => none
  | _ :: past => filler past

/-- The venue has listed it in this category. -/
def Listed (venue : InstrumentVenue) (category : Category) (i : Instrument) (past : List Event) : Prop :=
  ∃ fetch : Fetch, .fetched fetch ∈ past ∧ fetch.Answered venue ∧ fetch.category = category ∧
    i ∈ fetch.instruments

def StepsListed (venue : InstrumentVenue) (category : Category) (symbol : String) (steps : ℚ × ℚ)
    (past : List Event) : Prop :=
  ∃ i, Listed venue category i past ∧ i.symbol = symbol ∧ i.steps = steps

/-- What a look-up gives, and what an order is formatted with, is listed for this symbol in this
category. -/
def LookupRule (venue : InstrumentVenue) : Event → List Event → Prop
  | .found category symbol steps, past => StepsListed venue category symbol steps past
  | .formatted category symbol steps, past => StepsListed venue category symbol steps past
  | .listed category symbol i, past => Listed venue category i past ∧ i.symbol = symbol
  | _, _ => True

/-- The cache holds the symbol, and a fetch of another category filled it. -/
def Foreign (s : Cache) (category : Category) (symbol : String) : Prop :=
  findSymbol symbol s.instruments ≠ none ∧ ∃ fetch, filler s.trace = some fetch ∧ fetch.category ≠ category

/-- No look-up of a symbol finds it in a cache that another category filled. -/
def OwnCategory (s : Cache) : ℕ × InstrumentOp → Prop
  | (_, .getInstrumentInfo category symbol) => ¬ Foreign s category symbol
  | (_, .placeOrder _ order) => ¬ Foreign s order.category order.symbol
  | (_, .amendOrder _ category symbol _ _ _ _) => ¬ Foreign s category symbol
  | _ => True

section Lookups

variable {venue : InstrumentVenue} {rounds : ℕ} {call : InfoCall} {s s' : Cache} {category : Category}
  {symbol : String} {i : Instrument} {past past' known : List Event}

theorem Listed.mono (h : Listed venue category i past) (hsub : past ⊆ past') :
    Listed venue category i past' := by
  obtain ⟨fetch, hmem, h⟩ := h
  exact ⟨fetch, hsub hmem, h⟩

/-- The invariant. -/
structure CacheListed (venue : InstrumentVenue) (s : Cache) : Prop where
  filled : s.instruments = [] ∨ ∃ fetch, filler s.trace = some fetch ∧ s.instruments = fetch.instruments ∧
    .fetched fetch ∈ s.trace ∧ fetch.Answered venue
  rule : Each (LookupRule venue) s.trace

/-- What an own look-up finds in the cache. -/
theorem CacheListed.found (h : CacheListed venue s) (hown : ¬ Foreign s category symbol)
    (hfind : findSymbol symbol s.instruments = some i) : Listed venue category i s.trace := by
  have hmem : i ∈ s.instruments := List.mem_of_find?_eq_some hfind
  obtain hnil | ⟨fetch, hfill, hins, hfetched, hans⟩ := h.filled
  · rw [hnil] at hmem
    cases hmem
  · have hcat : fetch.category = category := by
      by_contra hne
      exact hown ⟨by rw [hfind]; exact Option.some_ne_none i, fetch, hfill, hne⟩
    exact ⟨fetch, hfetched, hans, hcat, hins ▸ hmem⟩

/-- An event that stores nothing. -/
theorem CacheListed.record {e : Event} (h : CacheListed venue s) (he : LookupRule venue e s.trace)
    (hfill : filler (e :: s.trace) = filler s.trace) : CacheListed venue (s.record e) where
  filled := by
    obtain hnil | ⟨fetch, hf, hins, hmem, hans⟩ := h.filled
    · exact Or.inl hnil
    · exact Or.inr ⟨fetch, hfill.trans hf, hins, List.mem_cons_of_mem _ hmem, hans⟩
  rule := each_cons.2 ⟨he, h.rule⟩

theorem CacheListed.begin (h : CacheListed venue s) : CacheListed venue s.begin := ⟨h.filled, h.rule⟩

theorem CacheListed.store {fetch : Fetch} (h : CacheListed venue s) (hmem : .fetched fetch ∈ s.trace)
    (hans : fetch.Answered venue) : CacheListed venue (s.store fetch) where
  filled := Or.inr ⟨fetch, rfl, rfl, List.mem_cons_of_mem _ hmem, hans⟩
  rule := each_cons.2 ⟨trivial, h.rule⟩

theorem CacheListed.fetch {fetch : Fetch} (h : CacheListed venue s) :
    CacheListed venue (s.begin.record (.fetched fetch)) := h.begin.record trivial rfl

/-- What a call without a status returns is the cache, or listed in its category. So is what it puts
into an empty cache. -/
theorem InfoOutcome.cacheListed {r : Except Exception (List Instrument)} (h : InfoOutcome venue call s r s')
    (hs : CacheListed venue s) : CacheListed venue s' ∧ s.trace ⊆ s'.trace ∧
      (∀ l, call.status = "" → r = .ok l → call.force = false ∧ l = s.instruments ∨
        ∀ i ∈ l, Listed venue call.category i s'.trace) ∧
      (s.instruments = [] → ∀ i ∈ s'.instruments, Listed venue call.category i s'.trace) := by
  cases h with
  | cached hst hne hforce =>
    refine ⟨hs, List.Subset.refl _, ?_, fun hnil => absurd hnil hne⟩
    rintro l - ⟨⟩
    exact Or.inl ⟨hforce, rfl⟩
  | failed e =>
    refine ⟨hs.begin, List.Subset.refl _, ?_, fun hnil i hi => ?_⟩
    · rintro l - ⟨⟩
    · rw [show s.begin.instruments = [] from hnil] at hi
      cases hi
  | @fetched fetch hans hcat =>
    have hlisted : ∀ i ∈ fetch.instruments,
        Listed venue call.category i (s.begin.record (.fetched fetch)).trace :=
      fun i hi => ⟨fetch, List.mem_cons_self, hans, hcat, hi⟩
    refine ⟨hs.fetch, List.subset_cons_self _ _, ?_, fun hnil i hi => ?_⟩
    · rintro l - ⟨⟩
      exact Or.inr hlisted
    · rw [show (s.begin.record (.fetched fetch)).instruments = [] from hnil] at hi
      cases hi
  | @seeded fetch hans hcat =>
    have hlisted : ∀ i ∈ fetch.instruments,
        Listed venue call.category i ((s.begin.record (.fetched fetch)).store fetch).trace :=
      fun i hi => ⟨fetch, List.mem_cons_of_mem _ List.mem_cons_self, hans, hcat, hi⟩
    refine ⟨hs.fetch.store List.mem_cons_self hans, fun e he => ?_, ?_, fun _ => hlisted⟩
    · exact List.mem_cons_of_mem _ (List.mem_cons_of_mem _ he)
    · rintro l - ⟨⟩
      exact Or.inr hlisted
  | delisted l hcall =>
    refine ⟨hs.begin, List.Subset.refl _, fun l hst => absurd hst hcall, fun hnil i hi => ?_⟩
    rw [show s.begin.instruments = [] from hnil] at hi
    cases hi
  | @spotSeeded fetch l hans hcat hspot hcall =>
    have hlisted : ∀ i ∈ fetch.instruments,
        Listed venue call.category i ((s.begin.record (.fetched fetch)).store fetch).trace :=
      fun i hi => ⟨fetch, List.mem_cons_of_mem _ List.mem_cons_self, hans, hcat, hi⟩
    refine ⟨(hs.fetch.store List.mem_cons_self hans).begin, fun e he => ?_, ?_, fun _ => hlisted⟩
    · exact List.mem_cons_of_mem _ (List.mem_cons_of_mem _ he)
    · intro l hst
      exact absurd hst hcall

theorem getInstrumentsInfo_cacheListed {r : Except Exception (List Instrument)} (hs : CacheListed venue s)
    (h : getInstrumentsInfo venue rounds call s = some (r, s')) : CacheListed venue s' ∧ s.trace ⊆ s'.trace ∧
      (∀ l, call.status = "" → r = .ok l → call.force = false ∧ l = s.instruments ∨
        ∀ i ∈ l, Listed venue call.category i s'.trace) ∧
      (s.instruments = [] → ∀ i ∈ s'.instruments, Listed venue call.category i s'.trace) := by
  obtain ⟨s₁, hout, rfl⟩ := getInstrumentsInfo_cases h
  obtain ⟨h₁, hsub, hret, hput⟩ := hout.cacheListed hs
  have hcons : s₁.trace ⊆ _ := List.subset_cons_self (.returned call s.instruments s₁.instruments r) _
  refine ⟨h₁.record trivial rfl, List.Subset.trans hsub hcons, fun l hst hr => ?_, fun hnil i hi => ?_⟩
  · exact (hret l hst hr).imp_right fun hl i hi => (hl i hi).mono hcons
  · exact (hput hnil i hi).mono hcons

/-- A known list in which the symbol is found rightly. -/
def Rightly (venue : InstrumentVenue) (category : Category) (symbol : String) (known : List Instrument)
    (past : List Event) : Prop :=
  ∀ i, findSymbol symbol known = some i → Listed venue category i past

theorem findSymbol_symbol {known : List Instrument} (h : findSymbol symbol known = some i) :
    i ∈ known ∧ i.symbol = symbol :=
  ⟨List.mem_of_find?_eq_some h, by simpa using List.find?_some h⟩

theorem orFetch_listed {known : List Instrument} {r : Except Exception (Option Instrument)}
    (hs : CacheListed venue s) (hknown : Rightly venue category symbol known s.trace)
    (h : orFetch venue rounds category symbol known s = some (r, s')) :
    CacheListed venue s' ∧
      ∀ i, r = .ok (some i) → Listed venue category i s'.trace ∧ i.symbol = symbol := by
  cases hfind : findSymbol symbol known with
  | some i =>
    simp only [orFetch, hfind] at h
    obtain ⟨rfl, rfl⟩ := Call.pure_eq_some.1 h
    refine ⟨hs, ?_⟩
    rintro i ⟨⟩
    exact ⟨hknown i hfind, (findSymbol_symbol hfind).2⟩
  | none =>
    simp only [orFetch, hfind] at h
    obtain ⟨x, hinfo, rfl⟩ := Call.map_eq_some.1 h
    obtain ⟨hs', -, hret, -⟩ := getInstrumentsInfo_cacheListed hs hinfo
    refine ⟨hs', fun i hr => ?_⟩
    cases x with
    | error e => cases hr
    | ok l =>
      have hfind : findSymbol symbol l = some i := by simpa [Except.map] using hr
      obtain ⟨hmem, hsym⟩ := findSymbol_symbol hfind
      obtain ⟨hforce, -⟩ | hl := hret l rfl rfl
      · cases hforce
      · exact ⟨hl i hmem, hsym⟩

theorem getInstrumentsInfo_rightly {r : Except Exception (List Instrument)} (hs : CacheListed venue s)
    (hown : ¬ Foreign s category symbol)
    (h : getInstrumentsInfo venue rounds { category } s = some (r, s')) :
    CacheListed venue s' ∧ ∀ l, r = .ok l → Rightly venue category symbol l s'.trace := by
  obtain ⟨hs', hsub, hret, -⟩ := getInstrumentsInfo_cacheListed hs h
  refine ⟨hs', fun l hr i hfind => ?_⟩
  obtain ⟨-, rfl⟩ | hl := hret l rfl hr
  · exact (hs.found hown hfind).mono hsub
  · exact hl i (findSymbol_symbol hfind).1

theorem knownInstruments_rightly {r : Except Exception (List Instrument)} (hs : CacheListed venue s)
    (hown : ¬ Foreign s category symbol) (h : knownInstruments venue rounds category s = some (r, s')) :
    CacheListed venue s' ∧ ∀ l, r = .ok l → Rightly venue category symbol l s'.trace := by
  rw [knownInstruments, Call.get_bind] at h
  split at h
  · obtain ⟨rfl, rfl⟩ := Call.pure_eq_some.1 h
    refine ⟨hs, ?_⟩
    rintro l ⟨⟩ i hfind
    exact hs.found hown hfind
  next hne =>
    have hnil : s.instruments = [] := by simpa using hne
    obtain ⟨e, hinfo, rfl⟩ | ⟨l, s₁, hinfo, hget⟩ := Call.bind_eq_some.1 h
    · obtain ⟨hs', -⟩ := getInstrumentsInfo_cacheListed hs hinfo
      exact ⟨hs', fun l hr => by cases hr⟩
    · obtain ⟨hs', -, -, hput⟩ := getInstrumentsInfo_cacheListed hs hinfo
      rw [Call.get_bind] at hget
      obtain ⟨rfl, rfl⟩ := Call.pure_eq_some.1 hget
      refine ⟨hs', ?_⟩
      rintro l ⟨⟩ i hfind
      exact hput hnil i (findSymbol_symbol hfind).1

theorem recordSome_listed {α : Type} {event : α → Event} {o : Option α} {r : Except Exception Unit}
    (hs : CacheListed venue s) (hrule : ∀ a, o = some a → LookupRule venue (event a) s.trace)
    (hfill : ∀ a, filler (event a :: s.trace) = filler s.trace) (h : recordSome event o s = some (r, s')) :
    CacheListed venue s' ∧ s.trace ⊆ s'.trace := by
  cases o with
  | none =>
    obtain ⟨-, rfl⟩ := Call.pure_eq_some.1 h
    exact ⟨hs, List.Subset.refl _⟩
  | some a =>
    obtain ⟨-, rfl⟩ := Call.modify_eq_some.1 h
    exact ⟨hs.record (hrule a rfl) (hfill a), List.subset_cons_self _ _⟩

theorem getInstrumentInfo_listed {r : Except Exception (Option Instrument)} (hs : CacheListed venue s)
    (hown : ¬ Foreign s category symbol)
    (h : getInstrumentInfo venue rounds category symbol s = some (r, s')) : CacheListed venue s' := by
  obtain ⟨e, hknown, -⟩ | ⟨known, s₁, hknown, h₁⟩ := Call.bind_eq_some.1 h
  · exact (knownInstruments_rightly hs hown hknown).1
  obtain ⟨hs₁, hright⟩ := knownInstruments_rightly hs hown hknown
  obtain ⟨e, hfetch, -⟩ | ⟨o, s₂, hfetch, h₂⟩ := Call.bind_eq_some.1 h₁
  · exact (orFetch_listed hs₁ (hright known rfl) hfetch).1
  obtain ⟨hs₂, hlisted⟩ := orFetch_listed hs₁ (hright known rfl) hfetch
  have hrule : ∀ i, o = some i → LookupRule venue (.listed category symbol i) s₂.trace := by
    rintro i rfl
    exact hlisted i rfl
  obtain ⟨e, hrec, -⟩ | ⟨u, s₃, hrec, hpure⟩ := Call.bind_eq_some.1 h₂
  · exact (recordSome_listed hs₂ hrule (fun _ => rfl) hrec).1
  · obtain ⟨-, rfl⟩ := Call.pure_eq_some.1 hpure
    exact (recordSome_listed hs₂ hrule (fun _ => rfl) hrec).1

/-- The steps that a look-up gives are listed. -/
theorem findPricePrecisionsForInstrument_listed {r : Except Exception (Option (ℚ × ℚ))}
    (hs : CacheListed venue s) (hown : ¬ Foreign s category symbol)
    (h : findPricePrecisionsForInstrument venue rounds category symbol s = some (r, s')) :
    CacheListed venue s' ∧ ∀ steps, r = .ok (some steps) → StepsListed venue category symbol steps s'.trace := by
  obtain ⟨e, hinfo, rfl⟩ | ⟨known, s₁, hinfo, h₁⟩ := Call.bind_eq_some.1 h
  · exact ⟨(getInstrumentsInfo_rightly hs hown hinfo).1, fun steps hr => by cases hr⟩
  obtain ⟨hs₁, hright⟩ := getInstrumentsInfo_rightly hs hown hinfo
  obtain ⟨e, hfetch, rfl⟩ | ⟨o, s₂, hfetch, h₂⟩ := Call.bind_eq_some.1 h₁
  · exact ⟨(orFetch_listed hs₁ (hright known rfl) hfetch).1, fun steps hr => by cases hr⟩
  obtain ⟨hs₂, hlisted⟩ := orFetch_listed hs₁ (hright known rfl) hfetch
  have hrule : ∀ steps, o.map Instrument.steps = some steps →
      StepsListed venue category symbol steps s₂.trace := by
    intro steps hmap
    obtain ⟨i, rfl, rfl⟩ := Option.map_eq_some_iff.1 hmap
    exact ⟨i, (hlisted i rfl).1, (hlisted i rfl).2, rfl⟩
  obtain ⟨e, hrec, rfl⟩ | ⟨u, s₃, hrec, hpure⟩ := Call.bind_eq_some.1 h₂
  · exact ⟨(recordSome_listed hs₂ hrule (fun _ => rfl) hrec).1, fun steps hr => by cases hr⟩
  · obtain ⟨rfl, rfl⟩ := Call.pure_eq_some.1 hpure
    obtain ⟨hs₃, hsub⟩ := recordSome_listed hs₂ hrule (fun _ => rfl) hrec
    refine ⟨hs₃, fun steps hr => ?_⟩
    obtain ⟨i, hi, hsym⟩ := hrule steps (by simpa using hr)
    exact ⟨i, hi.mono hsub, hsym⟩

/-- `placeOrder` and `amendOrder`: look up the steps, format with them, send. -/
theorem formatted_listed {send : Option (ℚ × ℚ) → Call Exception Cache OrderId} {r : Except Exception OrderId}
    (hs : CacheListed venue s) (hown : ¬ Foreign s category symbol)
    (hsend : ∀ steps, Call.Keeps (CacheListed venue) (send steps))
    (h : (do
      let steps ← findPricePrecisionsForInstrument venue rounds category symbol
      recordSome (.formatted category symbol) steps
      send steps) s = some (r, s')) : CacheListed venue s' := by
  obtain ⟨e, hfind, -⟩ | ⟨o, s₁, hfind, h₁⟩ := Call.bind_eq_some.1 h
  · exact (findPricePrecisionsForInstrument_listed hs hown hfind).1
  obtain ⟨hs₁, hsteps⟩ := findPricePrecisionsForInstrument_listed hs hown hfind
  have hrule : ∀ steps, o = some steps → LookupRule venue (.formatted category symbol steps) s₁.trace := by
    rintro steps rfl
    exact hsteps steps rfl
  obtain ⟨e, hrec, -⟩ | ⟨u, s₂, hrec, h₂⟩ := Call.bind_eq_some.1 h₁
  · exact (recordSome_listed hs₁ hrule (fun _ => rfl) hrec).1
  · exact hsend o s₂ r s' (recordSome_listed hs₁ hrule (fun _ => rfl) hrec).1 h₂

/-- The step lemma. -/
theorem InstrumentOp.run_cacheListed {op : InstrumentOp} (hs : CacheListed venue s)
    (hset : NoPublicSet s (rounds, op)) (hown : OwnCategory s (rounds, op))
    (h : op.run venue rounds s = some s') : CacheListed venue s' := by
  cases op with
  | getInstrumentsInfo call =>
    obtain ⟨⟨r, s₁⟩, hcall, rfl⟩ := Option.map_eq_some_iff.1 h
    exact (getInstrumentsInfo_cacheListed hs hcall).1
  | getInstrumentInfo category symbol =>
    obtain ⟨⟨r, s₁⟩, hcall, rfl⟩ := Option.map_eq_some_iff.1 h
    exact getInstrumentInfo_listed hs hown hcall
  | placeOrder rest order =>
    obtain ⟨⟨r, s₁⟩, hcall, rfl⟩ := Option.map_eq_some_iff.1 h
    exact formatted_listed hs hown (fun _ => .ofExcept) hcall
  | amendOrder rest category symbol orderId orderLinkId price qty =>
    obtain ⟨⟨r, s₁⟩, hcall, rfl⟩ := Option.map_eq_some_iff.1 h
    exact formatted_listed hs hown (fun _ => .ofExcept) hcall
  | setInstruments instruments => exact absurd hset id

/-- **Look-ups stay in their category**, in every run without the public `setInstruments` in which no
look-up finds its symbol in a cache that another category filled. -/
theorem lookups_listed
    (h : (instrumentCalls venue).Reach (fun s a => NoPublicSet s a ∧ OwnCategory s a) s) :
    Each (LookupRule venue) s.trace := by
  refine (h.invariant (I := CacheListed venue) ⟨Or.inl rfl, each_nil⟩ ?_).rule
  rintro s ⟨rounds, op⟩ s' - ⟨hset, hown⟩ hstep hs
  exact op.run_cacheListed hs hset hown hstep

end Lookups

/-! ## Runs -/

/-- A client without a connection. -/
def offline : RESTClient where
  lib := ⟨fun _ => none, fun _ _ => ""⟩
  send := fun _ _ => .error (.transportError "Connection refused")
  findPricePrecisionsForInstrument := fun _ _ => .ok none
  execution := fun _ => .error .type
  orders := fun _ => .error .type

def spotOrder : Order where
  category := .spot
  symbol := "BTCUSDT"
  side := .Buy
  orderType := .Limit
  qty := 1 / 1000
  price := 50000
  timeInForce := .PostOnly
  positionIdx := 0
  orderLinkId := ""
  reduceOnly := false
  priceStep := 1 / 1000
  qtyStep := 1 / 1000

/-- An order of the category that filled the cache. -/
theorem lookups_listed_spot : ∃ s, (instrumentCalls twoMarketsVenue).Reach
    (fun s a => NoPublicSet s a ∧ OwnCategory s a) s ∧
      s.trace.head? = some (.formatted .spot "BTCUSDT" (1 / 100, 1 / 1000000)) ∧
        Each (LookupRule twoMarketsVenue) s.trace :=
  have hprimed := System.Reach.init.step (S := instrumentCalls twoMarketsVenue)
    (a := (1, .getInstrumentsInfo { category := .spot })) ⟨trivial, trivial⟩ rfl
  have hplaced := hprimed.step (a := (1, .placeOrder offline spotOrder))
    ⟨trivial, fun ⟨_, fetch, hfill, hne⟩ => hne (by cases hfill; rfl)⟩ rfl
  ⟨_, hplaced, rfl, lookups_listed hplaced⟩

/-- The linear listing fills the cache; then a spot order is formatted with the linear steps. -/
theorem spot_order_with_linear_steps : ∃ s, (instrumentCalls twoMarketsVenue).Reach NoPublicSet s ∧
    ¬ Each (LookupRule twoMarketsVenue) s.trace := by
  let fetch : Fetch := ⟨0, .linear, "", "", twoMarkets .linear⟩
  let primed : List Event := [.returned { category := .linear } [] fetch.instruments (.ok fetch.instruments),
    .stored fetch, .fetched fetch]
  let looked : List Event := .found .spot "BTCUSDT" (1 / 10, 1 / 1000) ::
    .returned { category := .spot } fetch.instruments fetch.instruments (.ok fetch.instruments) :: primed
  have hprimed := System.Reach.init.step (S := instrumentCalls twoMarketsVenue) (C := NoPublicSet)
    (a := (1, .getInstrumentsInfo { category := .linear })) trivial rfl
  refine ⟨⟨fetch.instruments, 1, .formatted .spot "BTCUSDT" (1 / 10, 1 / 1000) :: looked⟩,
    hprimed.step (a := (1, .placeOrder offline spotOrder)) trivial rfl, fun h => ?_⟩
  obtain ⟨i, ⟨fetch', hmem, -, hcat, -⟩, -⟩ := (each_cons.1 h).1
  obtain rfl : fetch' = fetch := by simpa [looked, primed] using hmem
  cases hcat

end BybitApi.Rest
