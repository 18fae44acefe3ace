import BybitApi.Tickers.Market

/-!
# Where the prices come from

A ticker that the manager gives out should have its prices from a snapshot, of the stream or of REST, and
from deltas that came later. `quoted` reads those off the history. The cache keeps to it as long as no
delta finds the cache without an entry for its symbol; one that does is merged onto zeros and delivered.
The stream begins with a snapshot, so that takes an unsubscribe: it erases the entry at once, and the
messages on the way are handled all the same.
-/

namespace BybitApi.Tickers

open Lib

/-- What the last snapshot and the deltas after it say of a symbol, where one came since it was erased. The
symbol of a message is the one that the callback reads. -/
def quoted (splitString : String → Char → List String) (symbol : String) : List Happening → Option Level
  | [] => none
  | .handled event :: past =>
    if IsTickers event ∧ Manager.symbolOf splitString event = symbol then
      match event.type with
      | .snapshot => event.data.carried.whole
      | .delta => (quoted splitString symbol past).map event.data.carried.onto
    else quoted splitString symbol past
  | .stored key snapshot :: past => if key = symbol then some snapshot else quoted splitString symbol past
  | .erased key :: past => if key = symbol then none else quoted splitString symbol past
  | .delivered _ :: past => quoted splitString symbol past
  | .returned _ :: past => quoted splitString symbol past

/-- Bid, ask and last price are those of a snapshot and of later deltas, and so are those of the quote. -/
def Sourced (splitString : String → Char → List String) (t : EventTicker) (past : List Happening) : Prop :=
  ∃ level ∈ quoted splitString t.symbol past,
    t.level .bid1Price = level .bid1Price ∧ t.level .ask1Price = level .ask1Price ∧
      t.level .lastPrice = level .lastPrice ∧
        toQuote t = ⟨level .bid1Price, level .ask1Price, t.receivedTimestamp⟩

/-- A ticker that is given out now is sourced. -/
def GivesSourced (splitString : String → Char → List String) (happening : Happening) (past : List Happening) :
    Prop :=
  ∀ t ∈ happening.given, Sourced splitString t past

section Sources

variable {splitString : String → Char → List String} {t : EventTicker} {past : List Happening} {event : Event}
  {symbol key : String} {level : Level}

theorem sourced_of_quoted (h : quoted splitString t.symbol past = some t.level) : Sourced splitString t past :=
  ⟨t.level, h, rfl, rfl, rfl, rfl⟩

theorem givesSourced_of_given {happening : Happening} (h : happening.given = some t)
    (hsourced : Sourced splitString t past) : GivesSourced splitString happening past := by
  intro t' ht'
  obtain rfl := Option.some.inj (h.symm.trans ht')
  exact hsourced

theorem givesSourced_of_none {happening : Happening} (h : happening.given = none) :
    GivesSourced splitString happening past := by
  intro t ht
  cases h.symm.trans ht

/-! ### One happening more -/

theorem quoted_handled_of_ne (h : Manager.symbolOf splitString event ≠ symbol) :
    quoted splitString symbol (.handled event :: past) = quoted splitString symbol past :=
  if_neg fun h' => h h'.2

theorem quoted_handled_of_not (h : ¬ IsTickers event) :
    quoted splitString symbol (.handled event :: past) = quoted splitString symbol past :=
  if_neg fun h' => h h'.1

theorem quoted_snapshot (h : IsTickers event) (htype : event.type = .snapshot) :
    quoted splitString (Manager.symbolOf splitString event) (.handled event :: past) =
      event.data.carried.whole := by
  rw [quoted, if_pos ⟨h, rfl⟩, htype]

theorem quoted_delta (h : IsTickers event) (htype : event.type = .delta) :
    quoted splitString (Manager.symbolOf splitString event) (.handled event :: past) =
      (quoted splitString (Manager.symbolOf splitString event) past).map event.data.carried.onto := by
  rw [quoted, if_pos ⟨h, rfl⟩, htype]

theorem quoted_stored : quoted splitString symbol (.stored symbol level :: past) = some level := if_pos rfl

theorem quoted_stored_of_ne (h : symbol ≠ key) :
    quoted splitString symbol (.stored key level :: past) = quoted splitString symbol past := if_neg h.symm

theorem quoted_erased_of_ne (h : symbol ≠ key) :
    quoted splitString symbol (.erased key :: past) = quoted splitString symbol past := if_neg h.symm

end Sources

namespace Market

variable {splitString : String → Char → List String} {quotes : Symbol → Level} {w w' : Market} {a : Action}

/-- A delta that is handled finds an entry for its symbol. -/
def FindsEntry (splitString : String → Char → List String) (w : Market) : Action → Prop
  | .receives _ => ∀ event ∈ w.feed.inFlight.head?, event.type = .delta →
    (w.manager.tickers (Manager.symbolOf splitString event)).isSome = true
  | _ => True

/-- Each entry has the numbers that the history says. -/
def Entries (splitString : String → Char → List String) (m : Manager) (past : List Happening) : Prop :=
  ∀ symbol t, m.tickers symbol = some t → t.symbol = symbol ∧ quoted splitString symbol past = some t.level

/-- A new entry, and the happening that it comes from. -/
theorem Entries.insertOrAssign {m : Manager} {key : String} {ticker : EventTicker} {past past' : List Happening}
    (h : Entries splitString m past) (hname : ticker.symbol = key)
    (hself : quoted splitString key past' = some ticker.level)
    (hother : ∀ symbol, symbol ≠ key → quoted splitString symbol past' = quoted splitString symbol past) :
    Entries splitString (m.insertOrAssign key ticker) past' := by
  intro symbol t ht
  by_cases heq : symbol = key
  · subst heq
    obtain rfl := Option.some.inj (Manager.tickers_insertOrAssign_self.symm.trans ht)
    exact ⟨hname, hself⟩
  · rw [Manager.tickers_insertOrAssign_of_ne heq] at ht
    rw [hother symbol heq]
    exact h symbol t ht

/-- The venue sends whole snapshots, and what is kept and given out is as the history says. -/
structure Backed (splitString : String → Char → List String) (w : Market) : Prop where
  whole : ∀ event ∈ w.feed.inFlight, event.type = .snapshot → ∃ level, event.data.carried.whole = some level
  entry : Entries splitString w.manager w.trace
  sourced : Each (GivesSourced splitString) w.trace

namespace Backed

/-- What the callback makes of the entry of its symbol is what the history says. -/
theorem quoted_receives {event : Event} {rest : List Event} {level : Level} (h : w.Backed splitString)
    (hnext : w.feed.inFlight = event :: rest) (hentry : event.type = .delta →
      (w.manager.tickers (Manager.symbolOf splitString event)).isSome = true) (hev : IsTickers event)
    (htake : event.data.carried.take (w.manager.cached (Manager.symbolOf splitString event)) = some level) :
    quoted splitString (Manager.symbolOf splitString event) (.handled event :: w.trace) = some level := by
  cases htype : event.type with
  | snapshot =>
    obtain ⟨q, hq⟩ := h.whole event (hnext ▸ List.mem_cons_self) htype
    rw [quoted_snapshot hev htype, hq, ← htake]
    exact congrArg some (Patch.onto_of_whole hq).symm
  | delta =>
    obtain ⟨t, ht⟩ := Option.isSome_iff_exists.1 (hentry htype)
    rw [quoted_delta hev htype, (h.entry _ t ht).2, ← htake, Manager.cached, ht]
    rfl

/-- A message is handled. -/
theorem receives {event : Event} {rest : List Event} (h : w.Backed splitString)
    (hnext : w.feed.inFlight = event :: rest) (hentry : event.type = .delta →
      (w.manager.tickers (Manager.symbolOf splitString event)).isSome = true) (now : ℤ) :
    (w.receives splitString event rest now).Backed splitString := by
  have hwhole : ∀ e ∈ rest, e.type = .snapshot → ∃ level, e.data.carried.whole = some level :=
    fun e he => h.whole e (hnext ▸ List.mem_cons_of_mem event he)
  by_cases hev : IsTickers event
  · obtain ⟨ticker, heq, hsymbol, htake⟩ := Manager.dataEventCallback_eq splitString now w.manager hev
    have hquoted := h.quoted_receives hnext hentry hev htake
    unfold Market.receives
    rw [heq]
    refine ⟨hwhole, ?_, ?_⟩
    · refine h.entry.insertOrAssign hsymbol hquoted ?_
      intro symbol hne
      exact quoted_handled_of_ne hne.symm
    · refine each_cons.2 ⟨givesSourced_of_given rfl (sourced_of_quoted ?_), ?_⟩
      · rw [hsymbol]
        exact hquoted
      · exact each_cons.2 ⟨givesSourced_of_none rfl, h.sourced⟩
  · unfold Market.receives
    rw [Manager.dataEventCallback_of_not hev]
    refine ⟨hwhole, ?_, each_cons.2 ⟨givesSourced_of_none rfl, h.sourced⟩⟩
    intro symbol t ht
    obtain ⟨hname, hlevel⟩ := h.entry symbol t ht
    exact ⟨hname, (quoted_handled_of_not hev).trans hlevel⟩

theorem unsubscribes (h : w.Backed splitString) (pair : String) :
    (w.unsubscribeTickerStream pair).Backed splitString := by
  refine ⟨h.whole, ?_, each_cons.2 ⟨givesSourced_of_none rfl, h.sourced⟩⟩
  intro symbol t ht
  by_cases hself : symbol = normalizeSymbol pair
  · subst hself
    cases Manager.tickers_unsubscribe_self.symm.trans ht
  · obtain ⟨hname, hlevel⟩ := h.entry symbol t ((Manager.tickers_unsubscribe_of_ne hself).symm.trans ht)
    exact ⟨hname, (quoted_erased_of_ne hself).trans hlevel⟩

theorem moves (h : w.Backed splitString) (s : Symbol) (quote : Level) :
    Backed splitString { w with feed := w.feed.moves s quote } := by
  refine ⟨?_, h.entry, h.sourced⟩
  intro event hevent htype
  rcases Feed.mem_moves hevent with hevent | rfl
  · exact h.whole event hevent htype
  · cases htype

theorem begins (h : w.Backed splitString) (s : Symbol) : Backed splitString { w with feed := w.feed.begins s } := by
  refine ⟨?_, h.entry, h.sourced⟩
  intro event hevent htype
  rcases Feed.mem_begins hevent with hevent | rfl
  · exact h.whole event hevent htype
  · exact ⟨w.feed.quotes s, Patch.whole_full⟩

/-- A REST answer is stored, and returned if it was a reader that asked. -/
theorem stores (h : w.Backed splitString) (symbol : String) (snapshot : Level) (timestamp : ℤ) (reader : Bool)
    (calls : List Call) :
    Backed splitString ⟨w.manager.insertOrAssign symbol ⟨symbol, snapshot, timestamp⟩, calls, w.feed,
      (if reader then [.returned ⟨symbol, snapshot, timestamp⟩] else []) ++ .stored symbol snapshot :: w.trace⟩ := by
  have hquoted : ∀ key, quoted splitString key
      ((if reader then [.returned ⟨symbol, snapshot, timestamp⟩] else []) ++ .stored symbol snapshot :: w.trace) =
        quoted splitString key (.stored symbol snapshot :: w.trace) := by
    intro key
    cases reader <;> rfl
  refine ⟨h.whole, ?_, ?_⟩
  · refine h.entry.insertOrAssign rfl ((hquoted symbol).trans quoted_stored) ?_
    intro key hne
    exact (hquoted key).trans (quoted_stored_of_ne hne)
  · have hstored : Each (GivesSourced splitString) (.stored symbol snapshot :: w.trace) :=
      each_cons.2 ⟨givesSourced_of_none rfl, h.sourced⟩
    cases reader with
    | false => exact hstored
    | true => exact each_cons.2 ⟨givesSourced_of_given rfl (sourced_of_quoted quoted_stored), hstored⟩

theorem returns {symbol : String} {t : EventTicker} (h : w.Backed splitString)
    (hcache : w.manager.tickers symbol = some t) : Each (GivesSourced splitString) (.returned t :: w.trace) := by
  obtain ⟨hname, hlevel⟩ := h.entry symbol t hcache
  refine each_cons.2 ⟨givesSourced_of_given rfl (sourced_of_quoted ?_), h.sourced⟩
  rw [hname]
  exact hlevel

theorem step (h : w.Backed splitString) (hentry : w.FindsEntry splitString a)
    (hs : Market.step splitString w a = some w') : w'.Backed splitString := by
  cases step_outcome hs with
  | moves s quote => exact h.moves s quote
  | begins s => exact h.begins s
  | ends s => exact ⟨h.whole, h.entry, h.sourced⟩
  | disconnects => exact ⟨fun _ hevent => absurd hevent List.not_mem_nil, h.entry, h.sourced⟩
  | @receives event rest now hnext =>
    refine h.receives hnext (hentry event ?_) now
    rw [hnext]
    rfl
  | unsubscribes pair => exact h.unsubscribes pair
  | returns hcache => exact ⟨h.whole, h.entry, h.returns hcache⟩
  | stores hask => exact h.stores _ _ _ _ _
  | quiet hcache hfeed htrace =>
    refine ⟨hfeed ▸ h.whole, ?_, htrace ▸ h.sourced⟩
    intro symbol t ht
    rw [hcache] at ht
    rw [htrace]
    exact h.entry symbol t ht

end Backed

/-- **Sources.** Every ticker that is delivered or returned has its prices from a snapshot and later deltas. -/
theorem tickers_sourced (h : (system splitString quotes).Reach (FindsEntry splitString) w) :
    Each (GivesSourced splitString) w.trace := by
  refine Backed.sourced (h.invariant (I := Backed splitString) ?_ ?_)
  · refine ⟨fun _ hevent => absurd hevent List.not_mem_nil, ?_, each_nil⟩
    intro symbol t ht
    cases ht
  · intro w a w' _ hentry hs hw
    exact hw.step hentry hs

instance : (a : Action) → Decidable (FindsEntry splitString w a)
  | .receives _ => inferInstanceAs (Decidable (∀ event ∈ w.feed.inFlight.head?, event.type = .delta →
      (w.manager.tickers (Manager.symbolOf splitString event)).isSome = true))
  | .moves _ _ | .begins _ | .ends _ | .disconnects | .subscribes _ _ | .unsubscribes _ => isTrue trivial
  | .reads _ _ | .goesOn _ _ _ | .answers _ _ | .fails _ _ _ | .finishes _ _ _ _ => isTrue trivial
  | .setTimeout _ | .setMaxTickAge _ => isTrue trivial

/-- A reader gets the quote after a delta. -/
theorem tickers_sourced_run : ∃ w, (system recordsOf fun _ => flat).Reach (FindsEntry recordsOf) w ∧
    Each (GivesSourced recordsOf) w.trace ∧
      w.trace.head?.bind Happening.given = some ⟨"BTCUSDT", raised, 2000⟩ := by
  obtain ⟨w, hw, hgiven⟩ := System.Reach.exists_of_exec (S := system recordsOf fun _ => flat)
    (C := FindsEntry recordsOf)
    (l := [.subscribes "BTCUSDT" false, .begins btcusdt, .receives 1000000000, .moves btcusdt raised,
      .receives 2000000000, .reads "btcusdt" 3000000000, .goesOn "BTCUSDT" 8000000000 3000000000])
    (P := fun w => w.trace.head?.bind Happening.given = some ⟨"BTCUSDT", raised, 2000⟩) (by decide +kernel)
  exact ⟨w, hw, tickers_sourced hw, hgiven⟩

/-- An ask, and nothing else. -/
def askAlone : EventTicker := ⟨"BTCUSDT", fun field => if field = .ask1Price then 101 else 0, 2000⟩

/-- A delta on the way when the symbol is unsubscribed is delivered on its own. -/
theorem delta_alone_delivered :
    ¬ ∀ w, (system recordsOf fun _ => flat).Reach System.Free w → Each (GivesSourced recordsOf) w.trace := by
  intro h
  obtain ⟨w, hw, hgiven, hquoted⟩ :=
    System.Reach.exists_of_exec (S := system recordsOf fun _ => flat) (C := System.Free)
      (l := [.subscribes "BTCUSDT" false, .begins btcusdt, .receives 1000000000, .moves btcusdt raised,
        .unsubscribes "BTCUSDT", .receives 2000000000])
      (P := fun w => w.trace.head?.bind Happening.given = some askAlone ∧
        quoted recordsOf "BTCUSDT" w.trace.tail = none) (by decide +kernel)
  obtain ⟨happening, hhead, hgiven⟩ := Option.bind_eq_some_iff.1 hgiven
  obtain ⟨past, htrace⟩ := List.head?_eq_some_iff.1 hhead
  have heach := h w hw
  rw [htrace] at heach hquoted
  obtain ⟨level, hlevel, -⟩ := (each_cons.1 heach).1 askAlone hgiven
  cases hquoted.symm.trans hlevel

end Market

end BybitApi.Tickers
