import BybitApi.Lib.Observer
import BybitApi.Tickers.Market

/-!
# How old a ticker is

`readEventTicker` should not give out a ticker that is older than `maxTickAge`: an entry of the cache that
is too old sends it to REST. An observer notes when the entry of a symbol was written, by a message or by
a REST answer, and which tickers the readers got.

The age is counted from `receivedTimestamp`, so it is the age only if the stamp is that of the entry's last
write, whoever wrote it and whatever was erased and written again in between (`Clocked`).
-/

namespace BybitApi.Tickers

open Lib

/-- A ticker that `readEventTicker` returned: for which symbol, when, with what `maxTickAge`, and when the entry of
the symbol was last written. Times are in milliseconds. -/
structure Given where
  symbol : String
  ticker : EventTicker
  at_ : ℤ
  maxTickAge : ℤ
  written : Option ℤ
  deriving DecidableEq

structure Times where
  written : String → Option ℤ
  given : List Given

namespace Times

def write (symbol : String) (now : ℤ) (n : Times) : Times :=
  { n with written := Function.update n.written symbol (some (steadyNowMs now)) }

def erase (symbol : String) (n : Times) : Times := { n with written := Function.update n.written symbol none }

def give (w : Market) (symbol : String) (ticker : EventTicker) (now : ℤ) (n : Times) : Times :=
  { n with given := ⟨symbol, ticker, steadyNowMs now, w.manager.maxTickAge, n.written symbol⟩ :: n.given }

end Times

/-- What is given out is the asked symbol's, as last written, no longer ago than the age that is allowed. -/
def Given.Fresh (g : Given) : Prop :=
  g.ticker.symbol = g.symbol ∧ g.written = some g.ticker.receivedTimestamp ∧
    (0 < g.maxTickAge → g.at_ - g.ticker.receivedTimestamp ≤ g.maxTickAge * 1000)

instance (g : Given) : Decidable g.Fresh := inferInstanceAs (Decidable (_ ∧ _))

namespace Market

section Notes

variable (splitString : String → Char → List String)

def noteTimes (n : Times) (w : Market) : Action → Market → Times
  | .receives now, _ =>
    match w.feed.inFlight with
    | [] => n
    | event :: _ => if IsTickers event then n.write (Manager.symbolOf splitString event) now else n
  | .unsubscribes pair, _ => n.erase (normalizeSymbol pair)
  | .goesOn symbol deadline now, _ =>
    match w.manager.readRound symbol deadline now with
    | .returns ticker => n.give w symbol ticker now
    | _ => n
  | .finishes symbol reader answer now, _ =>
    match (w.manager.refreshTickerFromREST symbol answer now).2 with
    | none => n
    | some ticker => if reader then (n.write symbol now).give w symbol ticker now else n.write symbol now
  | _, _ => n

def timed (quotes : Symbol → Level) : System (Market × Times) Action :=
  (system splitString quotes).observe ⟨fun _ => none, []⟩ (noteTimes splitString)

end Notes

/-- Every entry is its symbol's and carries the time when it was written. -/
def Stamped (tickers : String → Option EventTicker) (written : String → Option ℤ) : Prop :=
  ∀ symbol ticker, tickers symbol = some ticker →
    ticker.symbol = symbol ∧ written symbol = some ticker.receivedTimestamp

structure Clocked (s : Market × Times) : Prop where
  entries : Stamped s.1.manager.tickers s.2.written
  given : ∀ g ∈ s.2.given, g.Fresh

variable {splitString : String → Char → List String} {quotes : Symbol → Level} {w w' : Market} {n : Times}
  {a : Action} {symbol : String} {ticker : EventTicker} {deadline now : ℤ}

/-! ## What a write and an erasure keep -/

theorem Stamped.write {m : Manager} (h : Stamped m.tickers n.written) (hsymbol : ticker.symbol = symbol)
    (hstamp : ticker.receivedTimestamp = steadyNowMs now) :
    Stamped (m.insertOrAssign symbol ticker).tickers (n.write symbol now).written := by
  intro key entry hentry
  by_cases hkey : key = symbol
  · subst hkey
    rw [Manager.tickers_insertOrAssign_self] at hentry
    cases hentry
    refine ⟨hsymbol, ?_⟩
    rw [hstamp]
    exact Function.update_self key _ n.written
  · rw [Manager.tickers_insertOrAssign_of_ne hkey] at hentry
    obtain ⟨hsym, hwritten⟩ := h key entry hentry
    refine ⟨hsym, ?_⟩
    rw [← hwritten]
    exact Function.update_of_ne hkey _ n.written

theorem Stamped.erase {m : Manager} {pair : String} (h : Stamped m.tickers n.written) :
    Stamped (m.unsubscribeTickerStream pair).tickers (n.erase (normalizeSymbol pair)).written := by
  intro key entry hentry
  by_cases hkey : key = normalizeSymbol pair
  · subst hkey
    rw [Manager.tickers_unsubscribe_self] at hentry
    cases hentry
  · rw [Manager.tickers_unsubscribe_of_ne hkey] at hentry
    obtain ⟨hsym, hwritten⟩ := h key entry hentry
    refine ⟨hsym, ?_⟩
    rw [← hwritten]
    exact Function.update_of_ne hkey _ n.written

/-- A message stamps the entry it is merged into. -/
theorem dataEventCallback_stamps (splitString : String → Char → List String) (now : ℤ) (m : Manager) {event : Event}
    (h : IsTickers event) : ∃ ticker : EventTicker,
    (m.dataEventCallback splitString event now).1 =
        m.insertOrAssign (Manager.symbolOf splitString event) ticker ∧
      ticker.symbol = Manager.symbolOf splitString event ∧ ticker.receivedTimestamp = steadyNowMs now := by
  unfold Manager.dataEventCallback
  rw [if_pos h]
  dsimp only
  split
  · exact ⟨_, rfl, rfl, rfl⟩
  · exact ⟨_, rfl, rfl, rfl⟩

/-- A round that returns has found an entry that is not too old. -/
theorem readRound_returns {m : Manager} (h : m.readRound symbol deadline now = .returns ticker) :
    m.tickers symbol = some ticker ∧
      (0 < m.maxTickAge → steadyNowMs now - ticker.receivedTimestamp ≤ m.maxTickAge * 1000) := by
  have hcache := Manager.tickers_of_returns h
  refine ⟨hcache, fun hage => ?_⟩
  unfold Manager.readRound at h
  rw [hcache] at h
  split at h
  · cases h
  · dsimp only at h
    split at h
    · cases h
    · next hstale =>
      unfold Manager.isStale at hstale
      rw [if_neg (by omega)] at hstale
      simp only [Bool.or_eq_true, decide_eq_true_eq, not_or, not_lt] at hstale
      exact hstale.2

/-! ## One step -/

namespace Clocked

theorem start (quotes : Symbol → Level) : Clocked (init quotes, ⟨fun _ => none, []⟩) where
  entries := nofun
  given := nofun

theorem receives (h : Clocked (w, n)) {event : Event} {rest : List Event}
    (hnext : w.feed.inFlight = event :: rest) (now : ℤ) (w'' : Market) :
    Clocked (w.receives splitString event rest now, noteTimes splitString n w (.receives now) w'') := by
  have hnote : noteTimes splitString n w (.receives now) w'' =
      if IsTickers event then n.write (Manager.symbolOf splitString event) now else n := by
    simp only [noteTimes, hnext]
  rw [hnote]
  by_cases htickers : IsTickers event
  · rw [if_pos htickers]
    obtain ⟨ticker, hm, hsymbol, hstamp⟩ := dataEventCallback_stamps splitString now w.manager htickers
    refine ⟨?_, h.given⟩
    change Stamped (w.manager.dataEventCallback splitString event now).1.tickers _
    rw [hm]
    exact h.entries.write hsymbol hstamp
  · rw [if_neg htickers]
    refine ⟨?_, h.given⟩
    change Stamped (w.manager.dataEventCallback splitString event now).1.tickers _
    rw [Manager.dataEventCallback_of_not htickers]
    exact h.entries

theorem manager_goesOn : (w.goesOn symbol deadline now).manager = w.manager := by
  unfold goesOn
  split <;> rfl

theorem goesOn (h : Clocked (w, n)) (symbol : String) (deadline now : ℤ) (w'' : Market) :
    Clocked (w.goesOn symbol deadline now, noteTimes splitString n w (.goesOn symbol deadline now) w'') := by
  simp only [noteTimes]
  split
  · next ticker hround =>
    obtain ⟨hcache, hage⟩ := readRound_returns hround
    obtain ⟨hsymbol, hwritten⟩ := h.entries symbol ticker hcache
    refine ⟨?_, ?_⟩
    · rw [manager_goesOn]
      exact h.entries
    · intro g hg
      rcases List.mem_cons.1 hg with rfl | hg
      · exact ⟨hsymbol, hwritten, hage⟩
      · exact h.given g hg
  · refine ⟨?_, h.given⟩
    rw [manager_goesOn]
    exact h.entries

theorem finishes (h : Clocked (w, n)) (symbol : String) (reader : Bool) (answer : Option (List Level)) (now : ℤ)
    (w'' : Market) : Clocked (w.finishes symbol reader answer now,
      noteTimes splitString n w (.finishes symbol reader answer now) w'') := by
  obtain heq | ⟨snapshot, more, rfl, -, heq⟩ := Manager.refreshTickerFromREST_cases symbol answer now w.manager
  · simp only [noteTimes, heq]
    refine ⟨?_, h.given⟩
    unfold Market.finishes
    rw [heq]
    exact h.entries
  · have hentries : Stamped (w.manager.insertOrAssign symbol ⟨symbol, snapshot, steadyNowMs now⟩).tickers
        (n.write symbol now).written := h.entries.write rfl rfl
    have hmanager : (w.finishes symbol reader (some (snapshot :: more)) now).manager =
        w.manager.insertOrAssign symbol ⟨symbol, snapshot, steadyNowMs now⟩ := by
      unfold Market.finishes
      rw [heq]
    simp only [noteTimes, heq]
    cases reader with
    | false =>
      refine ⟨?_, h.given⟩
      rw [hmanager]
      exact hentries
    | true =>
      refine ⟨?_, ?_⟩
      · rw [hmanager]
        exact hentries
      · intro g hg
        rcases List.mem_cons.1 hg with rfl | hg
        -- the answer is taken in and given out at once, at age 0
        · refine ⟨rfl, Function.update_self symbol _ n.written, fun hage => ?_⟩
          dsimp only at hage ⊢
          omega
        · exact h.given g hg

/-- A step that leaves the cache alone and is not noted. -/
theorem quiet (h : Clocked (w, n)) (hcache : w'.manager.tickers = w.manager.tickers) : Clocked (w', n) := by
  refine ⟨?_, h.given⟩
  rw [hcache]
  exact h.entries

theorem step {s s' : Market × Times} (h : Clocked s) (hs : (timed splitString quotes).step s a = some s') :
    Clocked s' := by
  obtain ⟨w, n⟩ := s
  obtain ⟨w', n'⟩ := s'
  obtain ⟨hw, hnote⟩ := System.observe_step.1 hs
  change Market.step splitString w a = some w' at hw
  change n' = noteTimes splitString n w a w' at hnote
  subst hnote
  cases a with
  | receives now =>
    simp only [Market.step] at hw
    split at hw
    · cases hw
    · next event rest hnext =>
      cases hw
      exact h.receives hnext now _
  | unsubscribes pair =>
    cases hw
    exact ⟨h.entries.erase, h.given⟩
  | goesOn symbol deadline now =>
    obtain ⟨-, hw⟩ := Option.ite_none_right_eq_some.1 hw
    cases hw
    exact h.goesOn symbol deadline now _
  | finishes symbol reader answer now =>
    obtain ⟨-, hw⟩ := Option.ite_none_right_eq_some.1 hw
    cases hw
    exact h.finishes symbol reader answer now _
  | subscribes pair already =>
    cases hw
    refine h.quiet ?_
    unfold subscribeTickerStream
    split <;> rfl
  | begins _ =>
    obtain ⟨-, hw⟩ := Option.ite_none_left_eq_some.1 hw
    cases hw
    exact h.quiet rfl
  | ends _ | answers _ _ | fails _ _ _ =>
    obtain ⟨-, hw⟩ := Option.ite_none_right_eq_some.1 hw
    cases hw
    exact h.quiet rfl
  | moves _ _ | disconnects | reads _ _ | setTimeout _ | setMaxTickAge _ =>
    cases hw
    exact h.quiet rfl

theorem of_reach {s : Market × Times} (h : (timed splitString quotes).Reach System.Free s) : Clocked s :=
  h.invariant (start quotes) fun _ _ _ _ _ hs hc => hc.step hs

end Clocked

/-- A message is merged at 1 s and given out at 61 s; at 61.001 s the reader goes to REST. -/
def agingRun : List Action :=
  [.begins btcusdt, .receives 1000000000, .reads "BTCUSDT" 61000000000,
    .goesOn "BTCUSDT" 66000000000 61000000000, .reads "BTCUSDT" 61001000000,
    .goesOn "BTCUSDT" 66001000000 61001000000, .answers btcusdt true,
    .finishes "BTCUSDT" true (some [flat]) 61050000000]

end Market

end BybitApi.Tickers
