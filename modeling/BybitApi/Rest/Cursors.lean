import BybitApi.Lib.Cycle
import BybitApi.Rest.Instruments
import BybitApi.Rest.Positions

/-!
# Chains of cursors

When the requests in pages come to an end. The venue is one whose page depends on the cursor that it
is requested with. The loops stop at an empty cursor only: where the chain of cursors leads back to a
cursor, `getPositionInfo`, `getOpenOrders` and the listings of `getInstrumentsInfo` request pages for
ever.
-/

namespace BybitApi.Rest

open Lib

/-- The parameters of `/v5/order/realtime`; an empty one is left out. -/
structure OpenOrdersRequest where
  category : Category
  limit : ℕ
  symbol : Option String
  settleCoin : Option String
  cursor : Option String

def openOrdersRequest (category : Category) (symbol settleCoin cursor : String) : OpenOrdersRequest :=
  ⟨category, 50, unlessEmpty symbol, unlessEmpty settleCoin, unlessEmpty cursor⟩

/-- `list n` is the answer to the `n`-th request for the list, checked and decoded. -/
def getOpenOrders (list : ℕ → OpenOrdersRequest → Except Exception (Page OrderResponse)) (rounds : ℕ)
    (category : Category) (symbol settleCoin : String) : Option (Except Exception (List OrderResponse)) :=
  listing (fun n cursor => list n (openOrdersRequest category symbol settleCoin cursor)) rounds

/-! ## One listing -/

section Listing

variable {α : Type} (page : String → Except Exception (Page α))

/-- The cursor that the next page is requested with; none after the last page, and none after a page
that fails. -/
def nextCursor (cursor : String) : Option String :=
  match page cursor with
  | .ok page => unlessEmpty page.nextPageCursor
  | .error _ => none

/-- What a request in pages owes its caller; `outcome` is what it comes to in so many rounds. -/
structure Terminates (outcome : ℕ → Option (Except Exception (List α))) : Prop where
  ends : ∃ rounds r, outcome rounds = some r
  complete : ∀ pages, Pages (fun _ => page) 0 "" pages →
    ∃ rounds, outcome rounds = some (.ok (pages.flatMap Page.rows))
  guarded : Revisits (nextCursor page) "" → ∃ rounds e, outcome rounds = some (.error e)

variable {page}

theorem listing_follows : Follows (listingRound fun _ => page) Listing.cursor (nextCursor page) where
  goes s s' h := by
    obtain ⟨p, hreq, hmore, rfl⟩ := listingRound_go h
    simp [Leads, nextCursor, hreq, unlessEmpty, hmore]
  stops s h := by
    unfold nextCursor
    cases hreq : page s.cursor with
    | error e => rfl
    | ok p =>
      by_cases hlast : p.nextPageCursor = ""
      · simp [unlessEmpty, hlast]
      · refine absurd ?_ (h ⟨s.rows ++ p.rows, p.nextPageCursor, s.sent + 1⟩)
        simp [listingRound, hreq, Except.map, hlast]

theorem listing_ends_iff (hfin : (places (nextCursor page) "").Finite) :
    (∃ rounds r, listing (fun _ => page) rounds = some r) ↔ ¬ Revisits (nextCursor page) "" := by
  rw [← listing_follows.ends_iff (s := ⟨[], "", 0⟩) hfin]
  exact exists_comm

/-! A venue that answers every request with the same page. -/

theorem places_finite_of_same {p : Page α} (h : ∀ cursor, page cursor = .ok p) {cursor : String} :
    (places (nextCursor page) cursor).Finite := by
  refine (Set.toFinite {cursor, p.nextPageCursor}).subset fun c hc => ?_
  induction hc with
  | refl => exact Or.inl rfl
  | tail _ hlead _ =>
    refine Or.inr ?_
    unfold Leads nextCursor unlessEmpty at hlead
    rw [h] at hlead
    exact (Option.some.inj (Option.ite_none_left_eq_some.1 hlead).2).symm

theorem revisits_of_same {p : Page α} (h : ∀ cursor, page cursor = .ok p) (hmore : p.nextPageCursor ≠ "")
    {cursor : String} : Revisits (nextCursor page) cursor := by
  have hlead : ∀ c, Leads (nextCursor page) c p.nextPageCursor := by
    intro c
    simp [Leads, nextCursor, h, unlessEmpty, hmore]
  exact ⟨_, .single (hlead cursor), .single (hlead _)⟩

/-- From any round on; the induction is on the pages that are left. -/
theorem ends_of_pages {request : ℕ → String → Except Exception (Page α)} {n : ℕ} {cursor : String}
    {pages : List (Page α)} (h : Pages request n cursor pages) (rows : List α) :
    Ends (listingRound request) ⟨rows, cursor, n⟩ (.ok (rows ++ pages.flatMap Page.rows)) := by
  induction h generalizing rows with
  | @last n cursor page hreq hlast =>
    refine Ends.leave ?_
    simp [listingRound, hreq, Except.map, hlast]
  | @more n cursor page pages hreq hmore _ ih =>
    have hround : listingRound request ⟨rows, cursor, n⟩ =
        .ok (.inl ⟨rows ++ page.rows, page.nextPageCursor, n + 1⟩) := by
      simp [listingRound, hreq, Except.map, hmore]
    exact Ends.go hround (by simpa using ih (rows ++ page.rows))

/-- **A listing comes to an end as it should** if and only if its cursors lead back to none of them. -/
theorem listing_terminates_iff (hfin : (places (nextCursor page) "").Finite) :
    Terminates page (listing fun _ => page) ↔ ¬ Revisits (nextCursor page) "" := by
  constructor
  · intro h
    exact (listing_ends_iff hfin).1 h.ends
  · intro hr
    refine ⟨(listing_ends_iff hfin).2 hr, fun pages hpages => ?_, fun h => absurd h hr⟩
    exact ends_of_pages hpages []

end Listing

/-! ## The listings of `getInstrumentsInfo` -/

/-- The status that the call's listing goes out with; none where the call makes no listing. -/
def InfoCall.listed (call : InfoCall) (instruments : List Instrument) : Option String :=
  if call.status ≠ "" then
    if call.category ≠ .spot then some call.status else if instruments = [] then some "" else none
  else if instruments ≠ [] ∧ call.force = false then none
  else some ""

section Instruments

variable {venue : InstrumentVenue} {rounds : ℕ} {call : InfoCall} {s : Cache} {category : Category}
  {symbol status : String}

/-- What the loop over the pages comes to. -/
theorem map_fetchInstruments : ((fetchInstruments venue rounds category symbol status s).map fun r =>
    r.1.map Fetch.instruments) =
      listing (fun n cursor => venue.page s.begun n (instrumentsRequest category symbol cursor status))
        rounds := by
  rw [fetchInstruments, Call.get_bind, Call.modify_bind]
  change Option.map _ (Option.bind (Call.ofOption _ _) _) = _
  rw [Call.ofOption]
  cases listing (fun n cursor => venue.page s.begun n (instrumentsRequest category symbol cursor status))
      rounds with
  | none => rfl
  | some r => cases r <;> rfl

theorem isSome_fetchInstruments : (fetchInstruments venue rounds category symbol status s).isSome =
    (listing (fun n cursor => venue.page s.begun n (instrumentsRequest category symbol cursor status))
      rounds).isSome := by
  rw [← map_fetchInstruments, Option.isSome_map]

theorem isSome_fetchAndStore : (fetchAndStore venue rounds category symbol s).isSome =
    (fetchInstruments venue rounds category symbol "" s).isSome := Call.isSome_bind fun _ _ => rfl

/-- A call comes to an end when its listing does, if it makes one. -/
theorem isSome_getInstrumentsInfo : (getInstrumentsInfo venue rounds call s).isSome = true ↔
    ∀ status ∈ call.listed s.instruments,
      (fetchInstruments venue rounds call.category call.symbol status s).isSome = true := by
  rw [getInstrumentsInfo, Option.isSome_map, InfoCall.listed]
  by_cases hstatus : call.status = ""
  · rw [if_pos hstatus, if_neg (not_not_intro hstatus), infoWithoutStatus, Call.get_bind]
    by_cases hcached : s.instruments ≠ [] ∧ call.force = false
    · rw [if_pos hcached, if_pos hcached]
      exact iff_of_true rfl fun _ h => nomatch h
    · rw [if_neg hcached, if_neg hcached]
      split
      next hsymbol => simp [Call.isSome_map, isSome_fetchAndStore, hsymbol]
      next => simp [Call.isSome_map]
  · rw [if_neg hstatus, if_pos hstatus, infoWithStatus, Call.get_bind]
    by_cases hspot : call.category ≠ .spot
    · rw [if_pos hspot, if_pos hspot]
      simp [Call.isSome_map]
    · rw [if_neg hspot, if_neg hspot]
      by_cases hempty : s.instruments = []
      · rw [if_pos hempty, if_pos hempty, seqRight_eq_bind, Call.isSome_bind fun _ _ => rfl]
        simp [isSome_fetchAndStore]
      · rw [if_neg hempty, if_neg hempty]
        exact iff_of_true rfl fun _ h => nomatch h

end Instruments

/-! ## Venues whose page depends on the cursor -/

section Venue

variable (positions : PositionsRequest → Except Exception (Page Position))
  (orders : OpenOrdersRequest → Except Exception (Page OrderResponse))
  (instruments : InstrumentsRequest → Except Exception (Page Instrument))

def positionPages (category : Category) (symbol settleCoin cursor : String) :
    Except Exception (Page Position) :=
  positions (positionsRequest category symbol settleCoin cursor)

def openOrderPages (category : Category) (symbol settleCoin cursor : String) :
    Except Exception (Page OrderResponse) :=
  orders (openOrdersRequest category symbol settleCoin cursor)

def instrumentPages (category : Category) (symbol status cursor : String) :
    Except Exception (Page Instrument) :=
  instruments (instrumentsRequest category symbol cursor status)

/-- The venue that answers every request alike. -/
def InstrumentVenue.steady (publicSpotSymbols : ℕ → List String) : InstrumentVenue :=
  ⟨fun _ _ => instruments, publicSpotSymbols⟩

variable {positions orders instruments}

/-- **The requests in pages come to an end as they should** if and only if the chain of cursors from
the empty one leads back to none of its cursors; and a call of `getInstrumentsInfo` ends at all if and
only if that is so of the listing that it makes, if it makes one. -/
theorem paged_requests_terminate_iff {category : Category} {symbol settleCoin status : String}
    {publicSpotSymbols : ℕ → List String}
    (hpositions : (places (nextCursor (positionPages positions category symbol settleCoin)) "").Finite)
    (horders : (places (nextCursor (openOrderPages orders category symbol settleCoin)) "").Finite)
    (hinstruments : ∀ category symbol status,
      (places (nextCursor (instrumentPages instruments category symbol status)) "").Finite) :
    (Terminates (positionPages positions category symbol settleCoin)
        (fun rounds => getPositionInfo (fun _ => positions) rounds category symbol settleCoin) ↔
      ¬ Revisits (nextCursor (positionPages positions category symbol settleCoin)) "") ∧
    (Terminates (openOrderPages orders category symbol settleCoin)
        (fun rounds => getOpenOrders (fun _ => orders) rounds category symbol settleCoin) ↔
      ¬ Revisits (nextCursor (openOrderPages orders category symbol settleCoin)) "") ∧
    (∀ s, Terminates (instrumentPages instruments category symbol status)
        (fun rounds => (fetchInstruments (.steady instruments publicSpotSymbols) rounds category symbol status
          s).map fun r => r.1.map Fetch.instruments) ↔
      ¬ Revisits (nextCursor (instrumentPages instruments category symbol status)) "") ∧
    (∀ call s, (∃ rounds, (getInstrumentsInfo (.steady instruments publicSpotSymbols) rounds call s).isSome) ↔
      ∀ status ∈ call.listed s.instruments,
        ¬ Revisits (nextCursor (instrumentPages instruments call.category call.symbol status)) "") := by
  refine ⟨listing_terminates_iff hpositions, listing_terminates_iff horders, fun s => ?_, fun call s => ?_⟩
  · rw [← listing_terminates_iff (hinstruments category symbol status)]
    simp only [map_fetchInstruments]
    rfl
  · simp only [isSome_getInstrumentsInfo, isSome_fetchInstruments]
    cases hlisted : call.listed s.instruments with
    | none => simp
    | some status =>
      have hends := listing_ends_iff (hinstruments call.category call.symbol status)
      simp only [Option.mem_some_iff, forall_eq', Option.isSome_iff_exists]
      exact hends

/-- The venue whose lists are empty: one page, without a next cursor. -/
theorem empty_pages_terminate : Terminates (positionPages (fun _ => .ok ⟨[], ""⟩) .linear "" "USDT")
    (fun rounds => getPositionInfo (fun _ _ => .ok ⟨[], ""⟩) rounds .linear "" "USDT") :=
  (@paged_requests_terminate_iff (fun _ => .ok ⟨[], ""⟩) (fun _ => .ok ⟨[], ""⟩) (fun _ => .ok ⟨[], ""⟩)
    .linear "" "USDT" "" (fun _ => []) (places_finite_of_same (p := ⟨[], ""⟩) fun _ => rfl)
    (places_finite_of_same (p := ⟨[], ""⟩) fun _ => rfl)
    fun _ _ _ => places_finite_of_same (p := ⟨[], ""⟩) fun _ => rfl).1.2 (not_revisits_of_stop rfl)

/-- The venue that hands out the cursor `a` with every page, the page at `a` included. -/
theorem same_cursor_not_terminates :
    ((places (nextCursor (positionPages (fun _ => .ok ⟨[], "a"⟩) .linear "" "USDT")) "").Finite ∧
      ¬ Terminates (positionPages (fun _ => .ok ⟨[], "a"⟩) .linear "" "USDT")
        (fun rounds => getPositionInfo (fun _ _ => .ok ⟨[], "a"⟩) rounds .linear "" "USDT")) ∧
    ((places (nextCursor (openOrderPages (fun _ => .ok ⟨[], "a"⟩) .linear "" "USDT")) "").Finite ∧
      ¬ Terminates (openOrderPages (fun _ => .ok ⟨[], "a"⟩) .linear "" "USDT")
        (fun rounds => getOpenOrders (fun _ _ => .ok ⟨[], "a"⟩) rounds .linear "" "USDT")) ∧
    (places (nextCursor (instrumentPages (fun _ => .ok ⟨[], "a"⟩) .linear "" "")) "").Finite ∧
      ¬ Terminates (instrumentPages (fun _ => .ok ⟨[], "a"⟩) .linear "" "")
        (fun rounds => (fetchInstruments (.steady (fun _ => .ok ⟨[], "a"⟩) fun _ => []) rounds .linear "" ""
          .empty).map fun r => r.1.map Fetch.instruments) ∧
      ¬ ∃ rounds, (getInstrumentsInfo (.steady (fun _ => .ok ⟨[], "a"⟩) fun _ => []) rounds
        ⟨.linear, "", false, ""⟩ .empty).isSome = true := by
  have hloop : ∀ {α : Type} (page : String → Except Exception (Page α)),
      (∀ cursor, page cursor = .ok ⟨[], "a"⟩) → ¬ ∃ rounds r, listing (fun _ => page) rounds = some r := by
    intro α page hpage hends
    exact (listing_ends_iff (places_finite_of_same hpage)).1 hends (revisits_of_same hpage (by simp))
  refine ⟨⟨places_finite_of_same fun _ => rfl, fun h => hloop _ (fun _ => rfl) h.ends⟩,
    ⟨places_finite_of_same fun _ => rfl, fun h => hloop _ (fun _ => rfl) h.ends⟩,
    places_finite_of_same fun _ => rfl, fun h => ?_, fun h => ?_⟩
  · obtain ⟨rounds, r, hends⟩ := h.ends
    rw [map_fetchInstruments] at hends
    exact hloop _ (fun _ => rfl) ⟨rounds, r, hends⟩
  · obtain ⟨rounds, hends⟩ := h
    have hsome := isSome_getInstrumentsInfo.1 hends "" rfl
    rw [isSome_fetchInstruments, Option.isSome_iff_exists] at hsome
    obtain ⟨r, hr⟩ := hsome
    exact hloop _ (fun _ => rfl) ⟨rounds, r, hr⟩

end Venue

end BybitApi.Rest
