import BybitApi.Rest.Client
import BybitApi.Rest.Cursors

/-!
# The execution list is whole

`getExecutions` reads at most `maxPages` pages. It returns the rows of all of them when the last one
has no next cursor, and throws in every other case: a page that fails, a page that hands out the
cursor it was requested with, and more pages than it reads.
-/

namespace BybitApi.Rest

open Lib

section Pages

variable {α : Type} {request : ℕ → String → Except Exception (Page α)} {n : ℕ} {cursor : String}
  {page : Page α} {pages : List (Page α)}

/-- The cursors that the pages are requested with, the first of them with `cursor`. -/
def requestCursors : String → List (Page α) → List String
  | _, [] => []
  | cursor, page :: pages => cursor :: requestCursors page.nextPageCursor pages

theorem isChain_requestCursors (hne : pages ≠ []) :
    (requestCursors cursor (page :: pages)).IsChain (· ≠ ·) ↔
      cursor ≠ page.nextPageCursor ∧ (requestCursors page.nextPageCursor pages).IsChain (· ≠ ·) := by
  cases pages with
  | nil => exact absurd rfl hne
  | cons page' pages => exact List.isChain_cons_cons

theorem Pages.ne_nil (h : Pages request n cursor pages) : pages ≠ [] := by
  cases h <;> exact List.cons_ne_nil _ _

theorem not_pages_of_error {e : Exception} (h : request n cursor = .error e) :
    ¬ Pages request n cursor pages := by
  intro hpages
  cases hpages with
  | last hreq => cases h.symm.trans hreq
  | more hreq => cases h.symm.trans hreq

/-- The pages that are left, by the first of them. -/
theorem pages_iff (h : request n cursor = .ok page) : Pages request n cursor pages ↔
    page.nextPageCursor = "" ∧ pages = [page] ∨
      page.nextPageCursor ≠ "" ∧ ∃ others, pages = page :: others ∧
        Pages request (n + 1) page.nextPageCursor others := by
  constructor
  · intro hpages
    cases hpages with
    | last hreq hlast =>
      obtain rfl : page = _ := Except.ok.inj (h.symm.trans hreq)
      exact Or.inl ⟨hlast, rfl⟩
    | more hreq hmore hrest =>
      obtain rfl : page = _ := Except.ok.inj (h.symm.trans hreq)
      exact Or.inr ⟨hmore, _, rfl, hrest⟩
  · rintro (⟨hlast, rfl⟩ | ⟨hmore, others, rfl, hrest⟩)
    · exact .last h hlast
    · exact .more h hmore hrest

/-- Pages that lead back to a cursor have no last one. -/
theorem not_pages_of_revisits {page : String → Except Exception (Page α)} (h : Revisits (nextCursor page) "") :
    ¬ Pages (fun _ => page) 0 "" pages :=
  fun hpages => listing_follows.not_ends (s := ⟨[], "", 0⟩) h ⟨_, ends_of_pages hpages []⟩

variable (request) (pages)

/-- All pages of a listing, as many as are read at most, of which none hands out the cursor that it is
requested with. -/
structure WholeListing : Prop where
  ends : Pages request 0 "" pages
  few : pages.length ≤ RESTClient.maxPages
  moving : (requestCursors "" pages).IsChain (· ≠ ·)

end Pages

namespace RESTClient

section Executions

variable (rest : RESTClient) (category : Category) (symbol orderLinkId : String)

/-- The answer to the `n`-th request, as a page of a listing. -/
def executionRequest (n : ℕ) (cursor : String) : Except Exception (Page EventExecution) :=
  (rest.executionsPage (rest.send n (.executions category symbol orderLinkId cursor))).map fun page =>
    ⟨page.1, page.2⟩

/-- `executionPages` with the requests that it sends, in their order. -/
def sentExecutionPages : ℕ → String → List EventExecution →
    List Request × Except Exception (List EventExecution)
  | 0, _, executions =>
    ([], .error (.runtimeError ("Bybit execution list exceeded " ++ toString maxPages ++
      " pages and is still incomplete after " ++ toString executions.length ++ " executions")))
  | left + 1, cursor, executions =>
    let request : Request := .executions category symbol orderLinkId cursor
    match rest.executionsPage (rest.send (maxPages - (left + 1)) request) with
    | .error e => ([request], .error e)
    | .ok (rows, nextCursor) =>
      if nextCursor = "" then ([request], .ok (executions ++ rows))
      else if nextCursor = cursor then
        ([request], .error (.runtimeError ("Bybit execution list repeated its page cursor after " ++
          toString (executions ++ rows).length ++ " executions")))
      else
        let (requests, result) := sentExecutionPages left nextCursor (executions ++ rows)
        (request :: requests, result)

end Executions

section Spec

variable {rest : RESTClient} {category : Category} {symbol orderLinkId : String} {left : ℕ} {cursor : String}
  {executions rows : List EventExecution} {pages : List (Page EventExecution)}

theorem sentExecutionPages_snd :
    (rest.sentExecutionPages category symbol orderLinkId left cursor executions).2 =
      rest.executionPages category symbol orderLinkId left cursor executions := by
  induction left generalizing cursor executions with
  | zero => rfl
  | succ left ih =>
    simp only [sentExecutionPages, executionPages]
    cases rest.executionsPage _ with
    | error e => rfl
    | ok page =>
      dsimp only
      split
      · rfl
      · split
        · rfl
        · exact ih

theorem sentExecutionPages_fst_length :
    (rest.sentExecutionPages category symbol orderLinkId left cursor executions).1.length ≤ left := by
  induction left generalizing cursor executions with
  | zero => exact Nat.le_refl 0
  | succ left ih =>
    simp only [sentExecutionPages]
    cases rest.executionsPage _ with
    | error e => simp
    | ok page =>
      dsimp only
      split
      · simp
      · split
        · simp
        · simpa using ih

/-- What the loop passes on, with so many pages left; the induction is on their number. -/
theorem executionPages_eq_ok (hleft : left ≤ maxPages) :
    rest.executionPages category symbol orderLinkId left cursor executions = .ok rows ↔
      ∃ pages, Pages (rest.executionRequest category symbol orderLinkId) (maxPages - left) cursor pages ∧
        pages.length ≤ left ∧ (requestCursors cursor pages).IsChain (· ≠ ·) ∧
        rows = executions ++ pages.flatMap Page.rows := by
  induction left generalizing cursor executions with
  | zero =>
    refine ⟨fun h => (nomatch h), ?_⟩
    rintro ⟨pages, hpages, hlen, -⟩
    exact absurd (List.length_eq_zero_iff.1 (Nat.le_zero.1 hlen)) hpages.ne_nil
  | succ left ih =>
    have hnext : maxPages - (left + 1) + 1 = maxPages - left := by omega
    rw [executionPages]
    cases hpage : rest.executionsPage (rest.send (maxPages - (left + 1))
        (.executions category symbol orderLinkId cursor)) with
    | error e =>
      have hreq : rest.executionRequest category symbol orderLinkId (maxPages - (left + 1)) cursor =
          .error e := by
        rw [executionRequest, hpage]
        rfl
      refine ⟨fun h => (nomatch h), ?_⟩
      rintro ⟨pages, hpages, -⟩
      exact absurd hpages (not_pages_of_error hreq)
    | ok page =>
      have hreq : rest.executionRequest category symbol orderLinkId (maxPages - (left + 1)) cursor =
          .ok ⟨page.1, page.2⟩ := by
        rw [executionRequest, hpage]
        rfl
      simp only [pages_iff hreq, hnext]
      by_cases hlast : page.2 = ""
      · rw [if_pos hlast]
        constructor
        · intro h
          exact ⟨[⟨page.1, page.2⟩], Or.inl ⟨hlast, rfl⟩, by simp, .singleton _, by cases h; simp⟩
        · rintro ⟨pages, ⟨-, rfl⟩ | ⟨hmore, -⟩, -, -, rfl⟩
          · simp
          · exact absurd hlast hmore
      · rw [if_neg hlast]
        by_cases hsame : page.2 = cursor
        · rw [if_pos hsame]
          refine ⟨fun h => (nomatch h), ?_⟩
          rintro ⟨pages, ⟨hend, -⟩ | ⟨-, others, rfl, hothers⟩, -, hchain, -⟩
          · exact absurd hend hlast
          · exact absurd hsame.symm ((isChain_requestCursors hothers.ne_nil).1 hchain).1
        · rw [if_neg hsame, ih (by omega)]
          constructor
          · rintro ⟨pages, hpages, hlen, hchain, rfl⟩
            refine ⟨⟨page.1, page.2⟩ :: pages, Or.inr ⟨hlast, pages, rfl, hpages⟩, by simpa using hlen, ?_,
              by simp⟩
            exact (isChain_requestCursors hpages.ne_nil).2 ⟨Ne.symm hsame, hchain⟩
          · rintro ⟨pages, ⟨hend, -⟩ | ⟨-, others, rfl, hothers⟩, hlen, hchain, rfl⟩
            · exact absurd hend hlast
            · refine ⟨others, hothers, by simpa using hlen, ?_, by simp⟩
              exact ((isChain_requestCursors hothers.ne_nil).1 hchain).2

end Spec

end RESTClient

end BybitApi.Rest
