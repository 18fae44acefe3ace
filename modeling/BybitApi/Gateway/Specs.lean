import BybitApi.Lib.Runs
import BybitApi.Rest.Instruments

/-!
# Instrument specs

`instrumentSpec` and `refreshInstruments`, called from any number of threads. Two caches lie between
the venue and a spec, the list of the REST client and the spec cache of the gateway. A step of a
thread is one section under a lock, one access to the list, or the beginning or the end of a fetch. A
list, and a spec built from it, carries the number of the fetch that it comes from.
-/

namespace BybitApi.Gateway

open Lib Rest

/-- An instrument with what `instrumentSpec` reads of its lot size filter. -/
structure ListedInstrument extends Instrument where
  minOrderQty : ℚ := 0
  maxOrderQty : ℚ := 0
  minNotionalValue : ℚ := 0
  deriving DecidableEq

structure InstrumentSpec where
  symbol : String
  tickSize : ℚ
  qtyStep : ℚ
  minQty : ℚ
  maxQty : ℚ
  minNotional : ℚ
  deriving DecidableEq

def ListedInstrument.spec (inst : ListedInstrument) : InstrumentSpec where
  symbol := inst.symbol
  tickSize := inst.priceFilter.tickSize
  qtyStep := inst.lotSizeFilter.qtyStep
  minQty := inst.minOrderQty
  maxQty := inst.maxOrderQty
  minNotional := inst.minNotionalValue

/-- What a fetch returned. -/
structure Listing where
  fetch : ℕ
  instruments : List ListedInstrument

/-- A spec and the fetch it comes from. -/
structure SourcedSpec where
  fetch : ℕ
  spec : InstrumentSpec
  deriving DecidableEq

inductive SpecCall where
  | instrumentSpec (symbol : String)
  | refreshInstruments
  deriving DecidableEq

/-- The symbol that the call's listings are filtered by. -/
def SpecCall.symbol : SpecCall → String
  | instrumentSpec symbol => symbol
  | refreshInstruments => ""

/-- Where a thread stands: before the step of this name. `force` is the argument of
`getInstrumentsInfo`. -/
inductive SpecStage where
  /-- The spec cache is searched. -/
  | lookUp
  /-- The list of the REST client is looked at, whether it is empty. -/
  | check (force : Bool)
  | fetch (force : Bool)
  | answer (force : Bool) (fetch : ℕ)
  | store (force : Bool) (listing : Listing)
  /-- The list is copied. `fetch` is the number of the fetch that the call has stored, and 0 if it has
  stored none. -/
  | read (force : Bool) (fetch : ℕ)
  | keep (spec : SourcedSpec)
  | clear (fetch : ℕ)
  /-- The call returns. -/
  | leave (fetch : ℕ)

structure SpecThread where
  call : SpecCall
  /-- The fetches of the refreshes that had returned when the call was made. -/
  since : List ℕ
  stage : SpecStage

namespace SpecThread

def goTo (th : SpecThread) (stage : SpecStage) : Option SpecThread := some { th with stage := stage }

/-- The loop over a list, and the second pass of `instrumentSpec`. After it the call throws. -/
def scan (th : SpecThread) (force : Bool) (listing : Listing) : Option SpecThread :=
  match listing.instruments.find? fun inst => inst.symbol = th.call.symbol with
  | some inst => th.goTo (.keep ⟨listing.fetch, inst.spec⟩)
  | none => if force then none else th.goTo (.check true)

end SpecThread

/-- A call of `instrumentSpec` returned a spec. -/
structure Yielded where
  symbol : String
  since : List ℕ
  spec : SourcedSpec
  deriving DecidableEq

/-- What the threads share. -/
structure SpecCaches where
  /-- `m_instruments`. -/
  listing : Listing
  specCache : String → Option SourcedSpec
  /-- The number of the next fetch. -/
  begun : ℕ
  /-- The fetches of the refreshes that have cleared the spec cache, and of those that have returned. -/
  cleared : List ℕ
  returned : List ℕ
  /-- History, latest first. -/
  yielded : List Yielded

structure SpecWorld where
  caches : SpecCaches
  threads : ℕ → Option SpecThread

inductive SpecAction where
  | call (thread : ℕ) (call : SpecCall)
  | advance (thread : ℕ)

section System

-- `venue n symbol` is what the `n`-th fetch returns, `primed` the list that the REST client begins with.
variable (venue : ℕ → String → Except Exception (List ListedInstrument)) (primed : List ListedInstrument)

/-- The next step of a thread, and where it stands then; `none` if its call has ended. -/
def SpecCaches.advance (s : SpecCaches) (th : SpecThread) : SpecCaches × Option SpecThread :=
  match th.stage with
  | .lookUp =>
    match s.specCache th.call.symbol with
    | some spec => ({ s with yielded := ⟨th.call.symbol, th.since, spec⟩ :: s.yielded }, none)
    | none => (s, th.goTo (.check false))
  | .check force => (s, th.goTo (if s.listing.instruments.isEmpty || force then .fetch force else .read force 0))
  | .fetch force => ({ s with begun := s.begun + 1 }, th.goTo (.answer force s.begun))
  | .answer force fetch =>
    match venue fetch th.call.symbol with
    | .error _ => (s, none)
    | .ok instruments =>
      -- Only a fetch of the full universe is stored.
      if th.call.symbol = "" then (s, th.goTo (.store force ⟨fetch, instruments⟩))
      else (s, th.scan force ⟨fetch, instruments⟩)
  | .store force listing => ({ s with listing := listing }, th.goTo (.read force listing.fetch))
  | .read force fetch =>
    match th.call with
    | .instrumentSpec _ => (s, th.scan force s.listing)
    | .refreshInstruments => (s, th.goTo (.clear fetch))
  | .keep spec =>
    ({ s with
      specCache := Function.update s.specCache th.call.symbol (some spec)
      yielded := ⟨th.call.symbol, th.since, spec⟩ :: s.yielded }, none)
  | .clear fetch => ({ s with specCache := fun _ => none, cleared := fetch :: s.cleared }, th.goTo (.leave fetch))
  | .leave fetch => ({ s with returned := fetch :: s.returned }, none)

def SpecCall.first : SpecCall → SpecStage
  | instrumentSpec _ => .lookUp
  | refreshInstruments => .check true

def specStep (w : SpecWorld) : SpecAction → Option SpecWorld
  | .call t call =>
    match w.threads t with
    | some _ => none
    | none =>
      some { w with threads := Function.update w.threads t (some ⟨call, w.caches.returned, call.first⟩) }
  | .advance t =>
    (w.threads t).map fun th =>
      ⟨(w.caches.advance venue th).1, Function.update w.threads t (w.caches.advance venue th).2⟩

/-- The list that the REST client begins with counts as fetch 0. -/
def specSystem : System SpecWorld SpecAction :=
  ⟨⟨⟨⟨0, primed⟩, fun _ => none, 1, [], [], []⟩, fun _ => none⟩, specStep venue⟩

end System

/-! ## What is fresh -/

section Fresh

variable (venue : ℕ → String → Except Exception (List ListedInstrument)) (primed : List ListedInstrument)

/-- It is what that fetch returned. -/
def Listing.Read (listing : Listing) : Prop :=
  listing = ⟨0, primed⟩ ∨ ∃ symbol, venue listing.fetch symbol = .ok listing.instruments

/-- It was built from the metadata of this symbol in what that fetch returned. -/
def SourcedSpec.Read (e : SourcedSpec) (symbol : String) : Prop :=
  ∃ listing : Listing, listing.Read venue primed ∧ listing.fetch = e.fetch ∧
    ∃ inst ∈ listing.instruments, inst.symbol = symbol ∧ inst.spec = e.spec

/-- Nothing in the caches is older than a refresh that has cleared the spec cache. -/
structure SpecCaches.Fresh (s : SpecCaches) : Prop where
  listing : s.listing.Read venue primed
  begun : s.listing.fetch < s.begun
  cleared : ∀ n ∈ s.cleared, n ≤ s.listing.fetch
  specs : ∀ symbol e, s.specCache symbol = some e → e.Read venue primed symbol ∧ ∀ n ∈ s.cleared, n ≤ e.fetch
  returned : ∀ n ∈ s.returned, n ∈ s.cleared
  yielded : ∀ y ∈ s.yielded, y.spec.Read venue primed y.symbol ∧ ∀ n ∈ y.since, n ≤ y.spec.fetch

/-- What a thread holds is not older than the refreshes that had returned when its call was made. -/
def SpecThread.StageFits (s : SpecCaches) (th : SpecThread) : SpecStage → Prop
  | .lookUp | .check _ | .fetch _ => True
  | .answer _ fetch => fetch < s.begun ∧ ∀ n ∈ th.since, n ≤ fetch
  | .store _ listing => listing.Read venue primed ∧ listing.fetch < s.begun
  | .read _ fetch | .clear fetch => fetch ≤ s.listing.fetch
  | .keep e => e.Read venue primed th.call.symbol ∧ ∀ n ∈ th.since, n ≤ e.fetch
  | .leave fetch => fetch ∈ s.cleared

structure SpecThread.Fits (s : SpecCaches) (th : SpecThread) : Prop where
  since : ∀ n ∈ th.since, n ∈ s.cleared
  stage : th.StageFits venue primed s th.stage

/-- What no step takes back. -/
structure SpecCaches.Grows (s s' : SpecCaches) : Prop where
  begun : s.begun ≤ s'.begun
  listing : s.listing.fetch ≤ s'.listing.fetch
  cleared : ∀ n ∈ s.cleared, n ∈ s'.cleared

/-- A listing is stored over none that is newer, and a spec only if no refresh with a newer one has
cleared the spec cache. -/
def SpecCaches.Orderly (s : SpecCaches) (th : SpecThread) : Prop :=
  match th.stage with
  | .store _ listing => s.listing.fetch ≤ listing.fetch
  | .keep e => ∀ n ∈ s.cleared, n ≤ e.fetch
  | _ => True

variable {venue primed} {s s' : SpecCaches} {th th' : SpecThread} {force : Bool} {listing : Listing}
  {stage : SpecStage}

theorem SpecCaches.Grows.refl (s : SpecCaches) : s.Grows s := ⟨Nat.le_refl _, Nat.le_refl _, fun _ h => h⟩

theorem SpecThread.Fits.mono (h : th.Fits venue primed s) (hg : s.Grows s') : th.Fits venue primed s' := by
  obtain ⟨call, since, stage⟩ := th
  obtain ⟨hsince, hstage⟩ := h
  refine ⟨fun n hn => hg.cleared n (hsince n hn), ?_⟩
  cases stage with
  | lookUp | check | fetch => trivial
  | answer => exact ⟨hstage.1.trans_le hg.begun, hstage.2⟩
  | store => exact ⟨hstage.1, hstage.2.trans_le hg.begun⟩
  | read | clear => exact Nat.le_trans hstage hg.listing
  | keep => exact hstage
  | leave => exact hg.cleared _ hstage

theorem SpecThread.Fits.goTo (h : th.Fits venue primed s) (hgo : th.goTo stage = some th')
    (hstage : th.StageFits venue primed s stage) : th'.Fits venue primed s := by
  obtain rfl := Option.some.inj hgo
  refine ⟨h.since, ?_⟩
  cases stage <;> exact hstage

theorem SpecThread.Fits.scan (h : th.Fits venue primed s) (hread : listing.Read venue primed)
    (hsince : ∀ n ∈ th.since, n ≤ listing.fetch) (hscan : th.scan force listing = some th') :
    th'.Fits venue primed s := by
  unfold SpecThread.scan at hscan
  split at hscan
  next inst hfind =>
    refine h.goTo hscan ⟨⟨listing, hread, rfl, inst, List.mem_of_find?_eq_some hfind, ?_, rfl⟩, hsince⟩
    simpa using List.find?_some hfind
  · split at hscan
    · cases hscan
    · exact h.goTo hscan trivial

/-- A listing that is stored leaves the caches fresh. -/
theorem SpecCaches.Fresh.store (h : s.Fresh venue primed) (hread : listing.Read venue primed)
    (hbegun : listing.fetch < s.begun) (hle : s.listing.fetch ≤ listing.fetch) :
    SpecCaches.Fresh venue primed { s with listing := listing } :=
  ⟨hread, hbegun, fun n hn => (h.cleared n hn).trans hle, h.specs, h.returned, h.yielded⟩

/-- So does a spec that is kept. -/
theorem SpecCaches.Fresh.keep (h : s.Fresh venue primed) {symbol : String} {since : List ℕ} {e : SourcedSpec}
    (hread : e.Read venue primed symbol) (hsince : ∀ n ∈ since, n ≤ e.fetch)
    (hcleared : ∀ n ∈ s.cleared, n ≤ e.fetch) :
    SpecCaches.Fresh venue primed
      { s with
        specCache := Function.update s.specCache symbol (some e)
        yielded := ⟨symbol, since, e⟩ :: s.yielded } := by
  refine ⟨h.listing, h.begun, h.cleared, fun sym e' hsym => ?_, h.returned, List.forall_mem_cons.2
    ⟨⟨hread, hsince⟩, h.yielded⟩⟩
  by_cases heq : sym = symbol
  · subst heq
    dsimp only at hsym
    rw [Function.update_self] at hsym
    obtain rfl := Option.some.inj hsym
    exact ⟨hread, hcleared⟩
  · dsimp only at hsym
    rw [Function.update_of_ne heq] at hsym
    exact h.specs sym e' hsym

/-- And so does a refresh that clears the spec cache, since its listing was stored before. -/
theorem SpecCaches.Fresh.clear (h : s.Fresh venue primed) {fetch : ℕ} (hle : fetch ≤ s.listing.fetch) :
    SpecCaches.Fresh venue primed { s with specCache := fun _ => none, cleared := fetch :: s.cleared } :=
  ⟨h.listing, h.begun, List.forall_mem_cons.2 ⟨hle, h.cleared⟩, fun _ _ hnone => (nomatch hnone),
    fun n hn => List.mem_cons_of_mem _ (h.returned n hn), h.yielded⟩

/-- One step of a thread. -/
theorem SpecCaches.Fresh.advance (h : s.Fresh venue primed) (hth : th.Fits venue primed s)
    (ho : s.Orderly th) :
    (s.advance venue th).1.Fresh venue primed ∧ s.Grows (s.advance venue th).1 ∧
      ∀ th', (s.advance venue th).2 = some th' → th'.Fits venue primed (s.advance venue th).1 := by
  obtain ⟨hsince, hstage⟩ := hth
  have hth : th.Fits venue primed s := ⟨hsince, hstage⟩
  unfold SpecCaches.advance
  unfold SpecCaches.Orderly at ho
  cases hst : th.stage with
  | lookUp =>
    rw [hst] at hstage
    dsimp only
    split
    next e he =>
      obtain ⟨hread, hle⟩ := h.specs _ _ he
      refine ⟨⟨h.listing, h.begun, h.cleared, h.specs, h.returned, List.forall_mem_cons.2
        ⟨⟨hread, fun n hn => hle n (hsince n hn)⟩, h.yielded⟩⟩, ?_, ?_⟩
      · exact ⟨Nat.le_refl _, Nat.le_refl _, fun _ hn => hn⟩
      · intro th' hnone
        cases hnone
    next => exact ⟨h, .refl s, fun th' hgo => hth.goTo hgo trivial⟩
  | check force =>
    refine ⟨h, .refl s, fun th' hgo => ?_⟩
    dsimp only at hgo
    split at hgo
    · exact hth.goTo hgo trivial
    · exact hth.goTo hgo (Nat.zero_le _)
  | fetch force =>
    have hg : s.Grows { s with begun := s.begun + 1 } := ⟨Nat.le_succ _, Nat.le_refl _, fun _ hn => hn⟩
    refine ⟨⟨h.listing, Nat.lt_succ_of_lt h.begun, h.cleared, h.specs, h.returned, h.yielded⟩, hg, ?_⟩
    intro th' hgo
    refine (hth.mono hg).goTo hgo ⟨Nat.lt_succ_self _, fun n hn => ?_⟩
    exact (Nat.lt_of_le_of_lt (h.cleared n (hsince n hn)) h.begun).le
  | answer force fetch =>
    rw [hst] at hstage
    obtain ⟨hlt, hle⟩ := hstage
    dsimp only
    split
    · exact ⟨h, .refl s, fun th' hnone => nomatch hnone⟩
    next instruments hven =>
      have hread : Listing.Read venue primed ⟨fetch, instruments⟩ := Or.inr ⟨_, hven⟩
      split
      · exact ⟨h, .refl s, fun th' hgo => hth.goTo hgo ⟨hread, hlt⟩⟩
      · exact ⟨h, .refl s, fun th' => hth.scan hread hle⟩
  | store force listing =>
    rw [hst] at hstage ho
    have hg : s.Grows { s with listing := listing } := ⟨Nat.le_refl _, ho, fun _ hn => hn⟩
    exact ⟨h.store hstage.1 hstage.2 ho, hg, fun th' hgo => (hth.mono hg).goTo hgo (Nat.le_refl _)⟩
  | read force fetch =>
    rw [hst] at hstage
    dsimp only
    split
    · exact ⟨h, .refl s, fun th' => hth.scan h.listing fun n hn => h.cleared n (hsince n hn)⟩
    · exact ⟨h, .refl s, fun th' hgo => hth.goTo hgo hstage⟩
  | keep e =>
    rw [hst] at hstage ho
    refine ⟨h.keep hstage.1 hstage.2 ho, ⟨Nat.le_refl _, Nat.le_refl _, fun _ hn => hn⟩, ?_⟩
    intro th' hnone
    cases hnone
  | clear fetch =>
    rw [hst] at hstage
    have hg : s.Grows { s with specCache := fun _ => none, cleared := fetch :: s.cleared } :=
      ⟨Nat.le_refl _, Nat.le_refl _, fun n hn => List.mem_cons_of_mem _ hn⟩
    exact ⟨h.clear hstage, hg, fun th' hgo => (hth.mono hg).goTo hgo List.mem_cons_self⟩
  | leave fetch =>
    rw [hst] at hstage
    refine ⟨⟨h.listing, h.begun, h.cleared, h.specs, List.forall_mem_cons.2 ⟨hstage, h.returned⟩, h.yielded⟩,
      ⟨Nat.le_refl _, Nat.le_refl _, fun _ hn => hn⟩, ?_⟩
    intro th' hnone
    cases hnone

/-! ## Runs -/

instance : Decidable (s.Orderly th) := by
  unfold SpecCaches.Orderly
  split <;> infer_instance

/-- The step of the thread that is advanced is orderly. -/
def SpecWorld.Orderly (w : SpecWorld) : SpecAction → Prop
  | .call .. => True
  | .advance t =>
    match w.threads t with
    | some th => w.caches.Orderly th
    | none => True

instance (w : SpecWorld) (a : SpecAction) : Decidable (w.Orderly a) := by
  unfold SpecWorld.Orderly
  split
  · infer_instance
  · split <;> infer_instance

variable (venue primed) in
structure SpecWorld.Fresh (w : SpecWorld) : Prop where
  caches : w.caches.Fresh venue primed
  threads : ∀ t th, w.threads t = some th → th.Fits venue primed w.caches

/-- What one thread does leaves the others as they were. -/
theorem SpecWorld.Fresh.update {w : SpecWorld} (h : w.Fresh venue primed) {t : ℕ} {next : Option SpecThread}
    (hs : s.Fresh venue primed) (hg : w.caches.Grows s)
    (hnext : ∀ th, next = some th → th.Fits venue primed s) :
    SpecWorld.Fresh venue primed ⟨s, Function.update w.threads t next⟩ := by
  refine ⟨hs, fun t' th' hth' => ?_⟩
  dsimp only at hth'
  by_cases heq : t' = t
  · subst heq
    rw [Function.update_self] at hth'
    exact hnext th' hth'
  · rw [Function.update_of_ne heq] at hth'
    exact (h.threads t' th' hth').mono hg

theorem specStep_fresh {w w' : SpecWorld} {a : SpecAction} (h : w.Fresh venue primed) (ho : w.Orderly a)
    (hs : specStep venue w a = some w') : w'.Fresh venue primed := by
  cases a with
  | call t call =>
    simp only [specStep] at hs
    split at hs
    · cases hs
    · obtain rfl := Option.some.inj hs
      refine h.update h.caches (.refl _) fun th hth => ?_
      obtain rfl := Option.some.inj hth
      refine ⟨h.caches.returned, ?_⟩
      cases call <;> trivial
  | advance t =>
    obtain ⟨th, hth, rfl⟩ := Option.map_eq_some_iff.1 hs
    simp only [SpecWorld.Orderly, hth] at ho
    obtain ⟨hfresh, hg, hnext⟩ := h.caches.advance (h.threads t th hth) ho
    exact h.update hfresh hg hnext

/-- A market whose tick size is changed from 1/10 to 1/100. -/
def oldTick : ListedInstrument := { symbol := "BTCUSDT", priceFilter := ⟨1 / 10⟩ }

def newTick : ListedInstrument := { symbol := "BTCUSDT", priceFilter := ⟨1 / 100⟩ }

/-- A refresh from the call to its return, by a thread. -/
def refreshRun (t : ℕ) : List SpecAction := .call t .refreshInstruments :: List.replicate 7 (.advance t)

end Fresh

end BybitApi.Gateway
