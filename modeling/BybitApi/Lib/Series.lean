import Mathlib.Algebra.Order.Ring.Int
import Mathlib.Data.List.Sort
import Mathlib.Tactic.Linarith

/-!
# Series in time

Lists whose elements have strictly increasing times. A window of such a list is cut out by its two
ends, both inclusive, and a list is determined by its members.
-/

namespace BybitApi.Lib

variable {α : Type} (time : α → ℤ)

/-- The times go up. -/
def Increasing (xs : List α) : Prop := xs.Pairwise fun x y => time x < time y

/-- What lies in the window from `s` to `e`, both inclusive. -/
def between (s e : ℤ) (xs : List α) : List α := xs.filter fun x => s ≤ time x ∧ time x ≤ e

instance (xs : List α) : Decidable (Increasing time xs) := inferInstanceAs (Decidable (xs.Pairwise _))

variable {time} {s e m : ℤ} {xs ys : List α} {x : α}

@[simp] theorem mem_between : x ∈ between time s e xs ↔ x ∈ xs ∧ s ≤ time x ∧ time x ≤ e := by
  simp [between]

theorem Increasing.between (h : Increasing time xs) (s e : ℤ) : Increasing time (between time s e xs) :=
  h.sublist List.filter_sublist

theorem between_of_lt (h : e < s) : between time s e xs = [] :=
  List.filter_eq_nil_iff.2 fun x _ => by simp; omega

theorem Increasing.nodup (h : Increasing time xs) : xs.Nodup :=
  List.Pairwise.imp (fun hlt heq => absurd (heq ▸ hlt) (lt_irrefl _)) h

/-- A time is that of one element. -/
theorem Increasing.eq_of_time_eq {y : α} (h : Increasing time xs) (hx : x ∈ xs) (hy : y ∈ xs)
    (heq : time x = time y) : x = y :=
  List.inj_on_of_nodup_map (f := time) ((List.pairwise_map.2 h).imp fun hlt => hlt.ne) hx hy heq

/-- A series is its set of members. -/
theorem Increasing.eq_of_mem_iff (hx : Increasing time xs) (hy : Increasing time ys)
    (h : ∀ x, x ∈ xs ↔ x ∈ ys) : xs = ys :=
  ((List.perm_ext_iff_of_nodup hx.nodup hy.nodup).2 h).eq_of_pairwise
    (fun _ _ _ _ h h' => absurd (h.trans h') (lt_irrefl _)) hx hy

/-- A window is cut in two at any time in it. -/
theorem Increasing.between_split (h : Increasing time xs) (hs : s ≤ m + 1) (he : m ≤ e) :
    Lib.between time s e xs = Lib.between time s m xs ++ Lib.between time (m + 1) e xs := by
  refine (h.between s e).eq_of_mem_iff ?_ fun x => ?_
  · refine List.pairwise_append.2 ⟨h.between s m, h.between (m + 1) e, fun x hx y hy => ?_⟩
    have hx' := (mem_between.1 hx).2.2
    have hy' := (mem_between.1 hy).2.1
    omega
  · simp only [mem_between, List.mem_append]
    constructor
    · rintro ⟨hx, h₁, h₂⟩
      by_cases hm : time x ≤ m
      · exact Or.inl ⟨hx, h₁, hm⟩
      · exact Or.inr ⟨hx, by omega, h₂⟩
    · rintro (⟨hx, h₁, h₂⟩ | ⟨hx, h₁, h₂⟩)
      · exact ⟨hx, h₁, by omega⟩
      · exact ⟨hx, by omega, h₂⟩

/-- What comes before an element of a window is the window up to its time. -/
theorem Increasing.between_before {p t : List α} (h : Increasing time xs)
    (heq : Lib.between time s e xs = p ++ x :: t) : Lib.between time s (time x - 1) xs = p := by
  have hinc := heq ▸ h.between s e
  have hx := mem_between.1 (heq ▸ List.mem_append_right p List.mem_cons_self)
  obtain ⟨hp, ht, hpt⟩ := List.pairwise_append.1 hinc
  refine (h.between _ _).eq_of_mem_iff hp fun y => ⟨fun hy => ?_, fun hy => ?_⟩
  · obtain ⟨hmem, h₁, h₂⟩ := mem_between.1 hy
    have hy' : y ∈ p ++ x :: t := heq ▸ mem_between.2 ⟨hmem, h₁, by omega⟩
    rcases List.mem_append.1 hy' with hy' | hy'
    · exact hy'
    · rcases List.mem_cons.1 hy' with rfl | hy'
      · omega
      · have := List.rel_of_pairwise_cons ht hy'
        omega
  · have hlt := hpt y hy x List.mem_cons_self
    obtain ⟨hmem, h₁, -⟩ := mem_between.1 (heq ▸ List.mem_append_left (x :: t) hy)
    exact mem_between.2 ⟨hmem, h₁, by omega⟩

/-- The `k` newest: the end of the list, newest first. -/
theorem take_reverse_cases (hne : xs ≠ []) {k : ℕ} (hk : 0 < k) :
    ∃ p x t, xs = p ++ x :: t ∧ xs.reverse.take k = (x :: t).reverse ∧ (x :: t).length ≤ k ∧
      (p ≠ [] → (x :: t).length = k) := by
  have hpos := List.length_pos_iff.2 hne
  obtain ⟨x, t, hxt⟩ := List.exists_cons_of_ne_nil (l := xs.drop (xs.length - k)) fun h => by
    have := List.drop_eq_nil_iff.1 h
    omega
  have hlen : (x :: t).length = xs.length - (xs.length - k) := by rw [← hxt, List.length_drop]
  refine ⟨xs.take (xs.length - k), x, t, ?_, ?_, by omega, fun hp => ?_⟩
  · rw [← hxt, List.take_append_drop]
  · rw [List.take_reverse, hxt]
  · have : xs.length - k ≠ 0 := fun h => hp (by rw [h, List.take_zero])
    omega

/-! ## Lists in order -/

/-- From the first time that is not too early, a list in order has none that is. -/
theorem dropWhile_eq_filter (h : xs.Pairwise fun x y => time x ≤ time y) :
    (xs.dropWhile fun x => time x < s) = xs.filter fun x => s ≤ time x := by
  induction xs with
  | nil => rfl
  | cons x xs ih =>
    obtain ⟨hx, hxs⟩ := List.pairwise_cons.1 h
    by_cases hlt : time x < s
    · rw [List.dropWhile_cons_of_pos (by simpa using hlt), List.filter_cons_of_neg (by simpa using hlt), ih hxs]
    · rw [List.dropWhile_cons_of_neg (by simpa using hlt), eq_comm, List.filter_eq_self]
      intro y hy
      rcases List.mem_cons.1 hy with rfl | hy
      · simpa using hlt
      · have := hx y hy
        simp only [decide_eq_true_eq]
        omega

/-- Gaps of at least `d` add up. -/
theorem exists_far_apart {p : α → ℤ} {d : ℤ} (h : xs.Pairwise fun x y => p x + d ≤ p y) (hne : xs ≠ []) :
    ∃ x ∈ xs, ∃ y ∈ xs, p x + d * (xs.length - 1 : ℤ) ≤ p y := by
  induction xs with
  | nil => exact absurd rfl hne
  | cons x xs ih =>
    obtain ⟨hx, hxs⟩ := List.pairwise_cons.1 h
    cases xs with
    | nil => exact ⟨x, List.mem_cons_self, x, List.mem_cons_self, by simp⟩
    | cons x' xs =>
      obtain ⟨y, hy, z, hz, hyz⟩ := ih hxs (List.cons_ne_nil _ _)
      refine ⟨x, List.mem_cons_self, z, List.mem_cons_of_mem _ hz, ?_⟩
      have hxy := hx y hy
      simp only [List.length_cons, Nat.cast_add, Nat.cast_one] at hyz ⊢
      linarith

end BybitApi.Lib
