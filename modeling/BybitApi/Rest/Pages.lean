import BybitApi.Exception
import BybitApi.Lib.Loop

/-!
# Listings in pages

The loop of the requests whose answers come in pages: it collects the rows, and follows
`nextPageCursor` until a page has none. A page that fails makes the whole request fail.
-/

namespace BybitApi.Rest

open Lib

/-- A parameter that is left out when it is empty. -/
def unlessEmpty (s : String) : Option String := if s = "" then none else some s

structure Page (α : Type) where
  rows : List α
  nextPageCursor : String
  deriving DecidableEq

/-- The variables of the loop, and the number of pages requested. -/
structure Listing (α : Type) where
  rows : List α
  cursor : String
  sent : ℕ

section Loop

-- `request n cursor` is the answer to the `n`-th request of the loop, checked and decoded.
variable {α : Type} (request : ℕ → String → Except Exception (Page α))

def listingRound (s : Listing α) : Except Exception (Listing α ⊕ List α) :=
  (request s.sent s.cursor).map fun page =>
    if page.nextPageCursor = "" then .inr (s.rows ++ page.rows)
    else .inl ⟨s.rows ++ page.rows, page.nextPageCursor, s.sent + 1⟩

/-- With at most so many rounds of its loop. -/
def listing (rounds : ℕ) : Option (Except Exception (List α)) := loop (listingRound request) rounds ⟨[], "", 0⟩

/-- The pages from the `n`-th on, requested with `cursor`, up to the one without a next cursor. -/
inductive Pages : ℕ → String → List (Page α) → Prop
  | last {n : ℕ} {cursor : String} {page : Page α} (h : request n cursor = .ok page)
      (hlast : page.nextPageCursor = "") : Pages n cursor [page]
  | more {n : ℕ} {cursor : String} {page : Page α} {pages : List (Page α)} (h : request n cursor = .ok page)
      (hmore : page.nextPageCursor ≠ "") (hrest : Pages (n + 1) page.nextPageCursor pages) :
      Pages n cursor (page :: pages)

variable {request} {s s' : Listing α} {rows : List α} {rounds : ℕ}

theorem listingRound_leave (h : listingRound request s = .ok (.inr rows)) :
    ∃ page, request s.sent s.cursor = .ok page ∧ page.nextPageCursor = "" ∧ rows = s.rows ++ page.rows := by
  unfold listingRound at h
  cases hreq : request s.sent s.cursor with
  | error e => rw [hreq] at h; cases h
  | ok page =>
    rw [hreq] at h
    simp only [Except.map, Except.ok.injEq] at h
    split at h <;> cases h
    exact ⟨page, rfl, by assumption, rfl⟩

theorem listingRound_go (h : listingRound request s = .ok (.inl s')) :
    ∃ page, request s.sent s.cursor = .ok page ∧ page.nextPageCursor ≠ "" ∧
      s' = ⟨s.rows ++ page.rows, page.nextPageCursor, s.sent + 1⟩ := by
  unfold listingRound at h
  cases hreq : request s.sent s.cursor with
  | error e => rw [hreq] at h; cases h
  | ok page =>
    rw [hreq] at h
    simp only [Except.map, Except.ok.injEq] at h
    split at h <;> cases h
    exact ⟨page, rfl, by assumption, rfl⟩

/-- From any round on, the loop adds the rows of the pages that are left. -/
theorem loop_listingRound (h : loop (listingRound request) rounds s = some (.ok rows)) :
    ∃ pages, Pages request s.sent s.cursor pages ∧ rows = s.rows ++ pages.flatMap Page.rows := by
  induction rounds generalizing s with
  | zero => cases h
  | succ rounds ih =>
    cases hround : listingRound request s with
    | error e => rw [loop_throw hround] at h; cases h
    | ok next =>
      cases next with
      | inr b =>
        rw [loop_leave hround] at h
        cases h
        obtain ⟨page, hreq, hlast, rfl⟩ := listingRound_leave hround
        exact ⟨[page], .last hreq hlast, by simp⟩
      | inl s' =>
        rw [loop_go hround] at h
        obtain ⟨page, hreq, hmore, rfl⟩ := listingRound_go hround
        obtain ⟨pages, hpages, rfl⟩ := ih h
        exact ⟨page :: pages, .more hreq hmore hpages, by simp⟩

/-- **What a listing returns** is the rows of all its pages, in their order. -/
theorem listing_pages (h : listing request rounds = some (.ok rows)) :
    ∃ pages, Pages request 0 "" pages ∧ rows = pages.flatMap Page.rows := by
  obtain ⟨pages, hpages, rfl⟩ := loop_listingRound h
  exact ⟨pages, hpages, rfl⟩

end Loop

end BybitApi.Rest
