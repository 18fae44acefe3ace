import Mathlib.Algebra.BigOperators.Group.List.Basic

/-!
# A ledger that credits each key once

A consumer of events that may come again: the first event of a key is credited, and every later one
is dropped.
-/

namespace BybitApi.Lib

structure Ledger (κ M : Type) where
  seen : List κ
  total : M

namespace Ledger

variable {α β κ M : Type} [DecidableEq κ] [AddCommMonoid M] {key : α → κ} {amount : α → M} {l : Ledger κ M}
  {xs : List α}

def empty : Ledger κ M := ⟨[], 0⟩

def credit (key : α → κ) (amount : α → M) (l : Ledger κ M) (a : α) : Ledger κ M :=
  if key a ∈ l.seen then l else ⟨key a :: l.seen, l.total + amount a⟩

def creditAll (key : α → κ) (amount : α → M) (l : Ledger κ M) (xs : List α) : Ledger κ M :=
  xs.foldl (credit key amount) l

@[simp] theorem creditAll_nil : creditAll key amount l [] = l := rfl

@[simp] theorem creditAll_cons {a : α} :
    creditAll key amount l (a :: xs) = creditAll key amount (l.credit key amount a) xs := rfl

theorem creditAll_map (f : β → α) (bs : List β) :
    creditAll key amount l (bs.map f) = creditAll (key ∘ f) (amount ∘ f) l bs := List.foldl_map

theorem mem_seen_credit {a : α} {k : κ} : k ∈ (l.credit key amount a).seen ↔ k = key a ∨ k ∈ l.seen := by
  unfold credit
  split
  · next h => exact ⟨Or.inr, fun hk => hk.elim (fun he => he ▸ h) id⟩
  · exact List.mem_cons

theorem mem_seen_creditAll {k : κ} :
    k ∈ (creditAll key amount l xs).seen ↔ k ∈ l.seen ∨ k ∈ xs.map key := by
  induction xs generalizing l with
  | nil => simp
  | cons a xs ih =>
    rw [creditAll_cons, ih, mem_seen_credit, List.map_cons, List.mem_cons]
    tauto

/-- Events with distinct keys are all credited. -/
theorem total_creditAll_of_nodup (hnodup : (xs.map key).Nodup) (hfresh : ∀ a ∈ xs, key a ∉ l.seen) :
    (creditAll key amount l xs).total = l.total + (xs.map amount).sum := by
  induction xs generalizing l with
  | nil => simp
  | cons a xs ih =>
    rw [List.map_cons, List.nodup_cons] at hnodup
    have ha : l.credit key amount a = ⟨key a :: l.seen, l.total + amount a⟩ :=
      if_neg (hfresh a List.mem_cons_self)
    have hrest : ∀ b ∈ xs, key b ∉ (l.credit key amount a).seen := fun b hb hmem => by
      rcases mem_seen_credit.1 hmem with heq | hseen
      · exact hnodup.1 (heq ▸ List.mem_map_of_mem hb)
      · exact hfresh b (List.mem_cons_of_mem _ hb) hseen
    rw [creditAll_cons, ih hnodup.2 hrest, ha, List.map_cons, List.sum_cons, add_assoc]

/-! ## A ledger that is fed from a book -/

/-- What was credited are records of the book, each of them once. -/
structure Copies (key : α → κ) (amount : α → M) (book : List α) (l : Ledger κ M) : Prop where
  known : ∀ k ∈ l.seen, k ∈ book.map key
  total : l.total = ((book.filter fun a => key a ∈ l.seen).map amount).sum

/-- One more key selects one more record of a book whose keys are distinct. -/
theorem sum_filter_cons {book : List α} (hnodup : (book.map key).Nodup) {a : α} {seen : List κ} (ha : a ∈ book)
    (hfresh : key a ∉ seen) :
    ((book.filter fun b => key b ∈ key a :: seen).map amount).sum =
      ((book.filter fun b => key b ∈ seen).map amount).sum + amount a := by
  induction book with
  | nil => cases ha
  | cons b book ih =>
    rw [List.map_cons, List.nodup_cons] at hnodup
    rcases List.mem_cons.1 ha with rfl | hmem
    · have hrest : book.filter (fun b => key b ∈ key a :: seen) = book.filter fun b => key b ∈ seen := by
        refine List.filter_congr fun b hb => decide_eq_decide.2 ?_
        have hne : key b ≠ key a := fun heq => hnodup.1 (heq ▸ List.mem_map_of_mem hb)
        simp [hne]
      rw [List.filter_cons_of_pos (by simp), List.filter_cons_of_neg (by simpa using hfresh), hrest, List.map_cons,
        List.sum_cons, add_comm]
    · have hne : key b ≠ key a := fun heq => hnodup.1 (heq ▸ List.mem_map_of_mem hmem)
      have ih' := ih hnodup.2 hmem
      by_cases hb : key b ∈ seen
      · rw [List.filter_cons_of_pos (by simp [hb]), List.filter_cons_of_pos (by simpa using hb), List.map_cons,
          List.map_cons, List.sum_cons, List.sum_cons, ih', add_assoc]
      · rw [List.filter_cons_of_neg (by simp [hb, hne]), List.filter_cons_of_neg (by simpa using hb), ih']

namespace Copies

variable {book : List α}

theorem empty : Copies key amount book (Ledger.empty : Ledger κ M) :=
  ⟨fun _ h => absurd h List.not_mem_nil, by simp [Ledger.empty]⟩

/-- A copy of a record is credited unless one was before. -/
theorem credit (h : Copies key amount book l) (hnodup : (book.map key).Nodup) {a : α} (ha : a ∈ book) :
    Copies key amount book (l.credit key amount a) := by
  unfold Ledger.credit
  split
  · exact h
  · next hfresh =>
    refine ⟨fun k hk => ?_, ?_⟩
    · rcases List.mem_cons.1 hk with rfl | hk
      · exact List.mem_map_of_mem ha
      · exact h.known k hk
    · change l.total + amount a = _
      rw [sum_filter_cons hnodup ha hfresh, h.total]

theorem creditAll (h : Copies key amount book l) (hnodup : (book.map key).Nodup) (hxs : ∀ a ∈ xs, a ∈ book) :
    Copies key amount book (Ledger.creditAll key amount l xs) := by
  induction xs generalizing l with
  | nil => exact h
  | cons a xs ih =>
    rw [creditAll_cons]
    exact ih (h.credit hnodup (hxs a List.mem_cons_self)) fun b hb => hxs b (List.mem_cons_of_mem _ hb)

/-- A new record that no copy was seen of. -/
theorem record (h : Copies key amount book l) {a : α} (ha : key a ∉ book.map key) :
    Copies key amount (a :: book) l := by
  have hfresh : key a ∉ l.seen := fun hk => ha (h.known _ hk)
  refine ⟨fun k hk => List.mem_cons_of_mem _ (h.known k hk), ?_⟩
  rw [List.filter_cons_of_neg (by simpa using hfresh)]
  exact h.total

end Copies

end Ledger

end BybitApi.Lib
