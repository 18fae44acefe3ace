import BybitApi.Tickers.Market

/-!
# Where the cache catches up

The numbers in the cache are a copy of the venue's, kept by the patches of the stream. Laid on the copy,
the messages on the way for a subscribed symbol make it the venue's quote, and so the cache has the quote
once they are handled. A REST answer that is stored replaces the copy, with numbers that may be older than
what the stream brought meanwhile. It does no harm where every field in which it differs from the quote
is on the way.
-/

namespace BybitApi.Tickers

open Lib

section Topics

variable {splitString : String → Char → List String} {s s' : Symbol} {event : Event}

theorem Symbol.topic_injective (h : s.topic = s'.topic) : s = s' := by
  have hlist : "tickers.".toList ++ s.name.toList = "tickers.".toList ++ s'.name.toList := by
    rw [← String.toList_append, ← String.toList_append]
    exact congrArg String.toList h
  have hname : s.name = s'.name := String.toList_injective (List.append_cancel_left hlist)
  cases s
  cases s'
  cases hname
  rfl

theorem isTickers_of_topic (h : event.topic = s.topic) : IsTickers event := by
  have hcut : event.topic.toList = "tickers".toList ++ ('.' :: s.name.toList) := by
    rw [h, Symbol.topic, String.toList_append]
    rfl
  unfold IsTickers
  rw [hcut]
  exact (List.prefix_append _ _).isInfix

/-- The callback reads the symbol back. -/
theorem symbolOf_of_topic (hsplit : CutsRecords splitString) (h : event.topic = s.topic) :
    Manager.symbolOf splitString event = s.name := by
  obtain ⟨hne, hupper, hdot⟩ := s.isSymbol
  have htopic : event.topic = "tickers" ++ String.singleton '.' ++ s.name := h
  have hcut := hsplit "tickers" s.name '.' (by decide) hne (by decide) hdot
  unfold Manager.symbolOf readSymbolFromFilter
  rw [htopic, hcut]
  exact hupper

end Topics

namespace Feed

variable {f f' : Feed} {s s' : Symbol} {quote : Level} {event : Event} {rest : List Event} {pair : String}

theorem coming_concat (f : Feed) (event : Event) (h : f'.inFlight = f.inFlight ++ [event]) :
    f'.coming s = f.coming s ++ if event.topic = s.topic then [event.data.carried] else [] := by
  unfold coming
  rw [h, List.filter_append, List.map_append]
  by_cases htopic : event.topic = s.topic <;> simp [htopic]

theorem coming_cons (h : f.inFlight = event :: rest) :
    f.coming s = (if event.topic = s.topic then [event.data.carried] else []) ++
      Feed.coming { f with inFlight := rest } s := by
  unfold coming
  rw [h]
  by_cases htopic : event.topic = s.topic <;> simp [htopic]

theorem coming_moves (h : f.serving s = true) :
    (f.moves s quote).coming s = f.coming s ++ [Patch.diff (f.quotes s) quote] := by
  rw [coming_concat f (deltaOf s (f.quotes s) quote) (if_pos h)]
  exact congrArg _ (if_pos rfl)

theorem coming_moves_of_ne (h : s' ≠ s) : (f.moves s quote).coming s' = f.coming s' := by
  by_cases hserving : f.serving s = true
  · have htopic : (deltaOf s (f.quotes s) quote).topic ≠ s'.topic := by
      intro heq
      exact h (Symbol.topic_injective heq).symm
    rw [coming_concat f (deltaOf s (f.quotes s) quote) (if_pos hserving), if_neg htopic,
      List.append_nil]
  · unfold coming moves
    rw [if_neg hserving]

theorem coming_begins : (f.begins s).coming s = f.coming s ++ [Patch.full (f.quotes s)] := by
  rw [coming_concat f (snapshotOf s (f.quotes s)) rfl]
  exact congrArg _ (if_pos rfl)

theorem coming_begins_of_ne (h : s' ≠ s) : (f.begins s).coming s' = f.coming s' := by
  have htopic : (snapshotOf s (f.quotes s)).topic ≠ s'.topic := by
    intro heq
    exact h (Symbol.topic_injective heq).symm
  rw [coming_concat f (snapshotOf s (f.quotes s)) rfl, if_neg htopic, List.append_nil]

theorem quotes_moves (s s' : Symbol) (quote : Level) (f : Feed) :
    (f.moves s quote).quotes s' = if s' = s then quote else f.quotes s' :=
  Function.update_apply f.quotes s quote s'

theorem subscribed_begins_of_ne (h : s' ≠ s) : (f.begins s).Subscribed s' ↔ f.Subscribed s' := by
  simp only [Subscribed, begins, Function.update_of_ne h]

theorem subscribed_ends : (f.ends s).Subscribed s' ↔ s' ≠ s ∧ f.Subscribed s' := by
  by_cases h : s' = s
  · subst h
    simp [Subscribed, ends]
  · simp [Subscribed, ends, h]

/-! ### The copy of a symbol -/

/-- Once the messages on the way are handled, the copy of a subscribed symbol is the venue's quote. -/
def Settles (f : Feed) (cached : String → Option Level) : Prop :=
  ∀ s, f.Subscribed s → Patch.settle (f.coming s) (cached s.name) = some (f.quotes s)

variable {cached cached' : String → Option Level}

theorem Settles.moves (h : f.Settles cached) : (f.moves s quote).Settles cached := by
  intro s' hsub
  have hs' := h s' hsub
  rw [quotes_moves]
  by_cases heq : s' = s
  · subst heq
    have hserving : f.serving s' = true := hsub.1
    rw [if_pos rfl, coming_moves hserving]
    exact Patch.settle_diff hs'
  · rw [if_neg heq, coming_moves_of_ne heq]
    exact hs'

theorem Settles.begins (h : f.Settles cached) : (f.begins s).Settles cached := by
  intro s' hsub
  by_cases heq : s' = s
  · subst heq
    rw [coming_begins]
    exact Patch.settle_full
  · rw [coming_begins_of_ne heq]
    exact h s' ((subscribed_begins_of_ne heq).1 hsub)

theorem Settles.ends (h : f.Settles cached) : (f.ends s).Settles cached := by
  intro s' hsub
  exact h s' (subscribed_ends.1 hsub).2

theorem Settles.disconnects : f.disconnects.Settles cached := fun _ hsub => absurd hsub.1 Bool.false_ne_true

/-- The next message is taken into the copy of its symbol. -/
theorem Settles.receives (h : f.Settles cached) (hnext : f.inFlight = event :: rest)
    (hself : ∀ s : Symbol, event.topic = s.topic → cached' s.name = event.data.carried.take (cached s.name))
    (hother : ∀ s : Symbol, event.topic ≠ s.topic → cached' s.name = cached s.name) :
    Settles { f with inFlight := rest } cached' := by
  intro s hsub
  have hs := h s hsub
  rw [coming_cons hnext] at hs
  by_cases htopic : event.topic = s.topic
  · rw [if_pos htopic, List.singleton_append, Patch.settle_cons] at hs
    rw [hself s htopic]
    exact hs
  · rw [if_neg htopic, List.nil_append] at hs
    rw [hother s htopic]
    exact hs

theorem Settles.unsubscribed (h : f.Settles cached)
    (hother : ∀ key, key ≠ normalizeSymbol pair → cached' key = cached key) :
    (f.unsubscribed pair).Settles cached' := by
  rintro s ⟨hserving, hkept⟩
  obtain ⟨hkept, hname⟩ := Bool.and_eq_true_iff.1 hkept
  rw [hother s.name (of_decide_eq_true hname)]
  exact h s ⟨hserving, hkept⟩

end Feed

namespace Market

variable {splitString : String → Char → List String} {quotes : Symbol → Level} {w w' : Market} {a : Action}

/-- A REST answer for a subscribed symbol is stored only while every field in which it differs from the
venue's quote is in a message of that symbol on the way. -/
def Covered (w : Market) : Action → Prop
  | .finishes symbol _ (some (snapshot :: _)) _ =>
    ∀ s : Symbol, s.name = symbol → w.feed.Subscribed s → ¬ Manager.HasNoBidAsk snapshot →
      ∀ field, snapshot field ≠ w.feed.quotes s field → ∃ d ∈ w.feed.coming s, (d field).isSome = true
  | _ => True

/-- The cache has the venue's numbers for every subscribed symbol, whenever all messages are handled and
no refresh is in flight. -/
def Converged (w : Market) : Prop :=
  w.feed.inFlight = [] → (∀ call ∈ w.calls, call.refreshing = false) →
    ∀ s, w.feed.Subscribed s → w.manager.cached s.name = some (w.feed.quotes s)

/-- What is on the way is of the venue's symbols, and the cache settles. -/
structure CatchesUp (w : Market) : Prop where
  named : ∀ event ∈ w.feed.inFlight, ∃ s : Symbol, event.topic = s.topic
  settles : w.feed.Settles w.manager.cached

namespace CatchesUp

theorem moves (h : w.CatchesUp) (s : Symbol) (quote : Level) :
    CatchesUp { w with feed := w.feed.moves s quote } := by
  refine ⟨?_, h.settles.moves⟩
  intro event hevent
  rcases Feed.mem_moves hevent with hevent | rfl
  · exact h.named event hevent
  · exact ⟨s, rfl⟩

theorem begins (h : w.CatchesUp) (s : Symbol) : CatchesUp { w with feed := w.feed.begins s } := by
  refine ⟨?_, h.settles.begins⟩
  intro event hevent
  rcases Feed.mem_begins hevent with hevent | rfl
  · exact h.named event hevent
  · exact ⟨s, rfl⟩

/-- What the callback does to the copy of a symbol. -/
theorem receives {event : Event} {rest : List Event} (hsplit : CutsRecords splitString) (h : w.CatchesUp)
    (hnext : w.feed.inFlight = event :: rest) (now : ℤ) :
    (w.receives splitString event rest now).CatchesUp := by
  refine ⟨fun e he => h.named e (hnext ▸ List.mem_cons_of_mem event he), ?_⟩
  obtain ⟨s₀, htopic⟩ := h.named event (hnext ▸ List.mem_cons_self)
  obtain ⟨ticker, heq, -, htake⟩ :=
    Manager.dataEventCallback_eq splitString now w.manager (isTickers_of_topic htopic)
  rw [symbolOf_of_topic hsplit htopic] at heq htake
  have hmanager : (w.receives splitString event rest now).manager = w.manager.insertOrAssign s₀.name ticker :=
    congrArg Prod.fst heq
  rw [hmanager]
  refine h.settles.receives hnext ?_ ?_
  · intro s hs
    obtain rfl := Symbol.topic_injective (htopic.symm.trans hs)
    rw [Manager.cached_insertOrAssign_self, htake]
  · intro s hs
    refine Manager.cached_insertOrAssign_of_ne fun hname => hs ?_
    rw [htopic, Symbol.topic, ← hname]
    rfl

theorem unsubscribes (h : w.CatchesUp) (pair : String) : (w.unsubscribeTickerStream pair).CatchesUp := by
  refine ⟨h.named, h.settles.unsubscribed ?_⟩
  intro key hkey
  exact congrArg (Option.map EventTicker.level) (Manager.tickers_unsubscribe_of_ne hkey)

/-- A REST answer replaces the copy. -/
theorem stores {symbol : String} {snapshot : Level} {timestamp : ℤ} (h : w.feed.Settles w.manager.cached)
    (hcovered : ∀ s : Symbol, s.name = symbol → w.feed.Subscribed s →
      ∀ field, snapshot field ≠ w.feed.quotes s field → ∃ d ∈ w.feed.coming s, (d field).isSome = true) :
    w.feed.Settles (w.manager.insertOrAssign symbol ⟨symbol, snapshot, timestamp⟩).cached := by
  intro s hsub
  by_cases hname : s.name = symbol
  · rw [hname, Manager.cached_insertOrAssign_self]
    exact Patch.settle_replaced (h s hsub) (hcovered s hname hsub)
  · rw [Manager.cached_insertOrAssign_of_ne hname]
    exact h s hsub

theorem step (hsplit : CutsRecords splitString) (h : w.CatchesUp) (hcovered : w.Covered a)
    (hs : Market.step splitString w a = some w') : w'.CatchesUp := by
  cases step_outcome hs with
  | moves s quote => exact h.moves s quote
  | begins s => exact h.begins s
  | ends s => exact ⟨h.named, h.settles.ends⟩
  | disconnects => exact ⟨fun _ hevent => absurd hevent List.not_mem_nil, Feed.Settles.disconnects⟩
  | receives now hnext => exact h.receives hsplit hnext now
  | unsubscribes pair => exact h.unsubscribes pair
  | returns _ => exact ⟨h.named, h.settles⟩
  | stores hask => exact ⟨h.named, stores h.settles fun s hname hsub => hcovered s hname hsub hask⟩
  | quiet hcache hfeed _ =>
    refine ⟨hfeed ▸ h.named, ?_⟩
    have hcached : w'.manager.cached = w.manager.cached := by
      funext symbol
      rw [Manager.cached, Manager.cached, hcache]
    rw [hfeed, hcached]
    exact h.settles

/-- Nothing is on the way. -/
theorem converged (h : w.CatchesUp) : w.Converged := by
  intro hnone _ s hsub
  have hcoming : w.feed.coming s = [] := by
    unfold Feed.coming
    rw [hnone]
    rfl
  have hs := h.settles s hsub
  rw [hcoming] at hs
  exact hs

end CatchesUp

/-- **Convergence.** -/
theorem cache_converged (hsplit : CutsRecords splitString) (h : (system splitString quotes).Reach Covered w) :
    w.Converged := by
  refine CatchesUp.converged (h.invariant ?_ ?_)
  · exact ⟨fun event hevent => absurd hevent List.not_mem_nil, fun s hsub => absurd hsub.1 Bool.false_ne_true⟩
  · intro w a w' _ hcovered hs hw
    exact hw.step hsplit hcovered hs

instance {P : Symbol → Prop} [DecidablePred P] (name : String) :
    Decidable (∀ s : Symbol, s.name = name → P s) :=
  if h : IsSymbol name then
    decidable_of_iff (P ⟨name, h⟩) ⟨fun hP s hs => by cases hs; exact hP, fun hP => hP ⟨name, h⟩ rfl⟩
  else isTrue fun s hs => absurd (hs ▸ s.isSymbol) h

instance : (w : Market) → (a : Action) → Decidable (w.Covered a)
  | w, .finishes symbol _ (some (snapshot :: _)) _ =>
    inferInstanceAs (Decidable (∀ s : Symbol, s.name = symbol → w.feed.Subscribed s →
      ¬ Manager.HasNoBidAsk snapshot → ∀ field, snapshot field ≠ w.feed.quotes s field →
        ∃ d ∈ w.feed.coming s, (d field).isSome = true))
  | _, .finishes _ _ (some []) _ | _, .finishes _ _ none _ => isTrue trivial
  | _, .moves _ _ | _, .begins _ | _, .ends _ | _, .disconnects | _, .receives _ => isTrue trivial
  | _, .subscribes _ _ | _, .unsubscribes _ | _, .reads _ _ | _, .goesOn _ _ _ => isTrue trivial
  | _, .answers _ _ | _, .fails _ _ _ | _, .setTimeout _ | _, .setMaxTickAge _ => isTrue trivial

/-- A first subscription whose snapshot is handled, the refresh being answered as well. -/
def seededRun : List Action :=
  [.subscribes "BTCUSDT" false, .begins btcusdt, .receives 0, .answers btcusdt false]

/-- The answer is stored while the delta is on the way. -/
theorem cache_converged_run : ∃ w, (system recordsOf fun _ => flat).Reach Covered w ∧ w.Converged ∧
    w.manager.cached "BTCUSDT" = some raised := by
  obtain ⟨w, hw, hcached⟩ := System.Reach.exists_of_exec (S := system recordsOf fun _ => flat) (C := Covered)
    (l := seededRun ++ [.moves btcusdt raised, .finishes "BTCUSDT" false (some [flat]) 0, .receives 0])
    (P := fun w => w.manager.cached "BTCUSDT" = some raised) (by decide +kernel)
  exact ⟨w, hw, cache_converged recordsOf_cuts hw, hcached⟩

/-- The delta is handled, and then the answer is stored. -/
theorem cache_not_converged :
    ¬ ∀ w, (system recordsOf fun _ => flat).Reach System.Free w → w.Converged := by
  intro h
  obtain ⟨w, hw, hnone, hcalls, hsub, hcached, hquote⟩ :=
    System.Reach.exists_of_exec (S := system recordsOf fun _ => flat) (C := System.Free)
      (l := seededRun ++ [.moves btcusdt raised, .receives 0, .finishes "BTCUSDT" false (some [flat]) 0])
      (P := fun w => w.feed.inFlight = [] ∧ w.calls = [] ∧ w.feed.Subscribed btcusdt ∧
        w.manager.cached "BTCUSDT" = some flat ∧ w.feed.quotes btcusdt = raised) (by decide +kernel)
  have heq := h w hw hnone (fun call hcall => by rw [hcalls] at hcall; cases hcall) btcusdt hsub
  rw [hquote] at heq
  have hask : flat .ask1Price = raised .ask1Price :=
    congrFun (Option.some.inj (hcached.symm.trans heq)) .ask1Price
  exact absurd hask (by decide)

end Market

end BybitApi.Tickers
