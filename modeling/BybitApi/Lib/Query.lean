import Mathlib.Data.List.Basic
import Mathlib.Tactic.Common

/-!
# Query strings

Fields `name=value` with a separator between them, written by appending the separator after each field
and taking the last one away. Cut at the separators and at the first assignment sign of each piece, the
text gives the fields back, as long as no name and no value holds a separator and no name an assignment
sign.
-/

namespace BybitApi.Lib

section Join

variable {α : Type} (assign separator : α)

def joinField (field : List α × List α) : List α := field.1 ++ assign :: field.2

/-- The last separator is taken away. -/
def joinFields (fields : List (List α × List α)) : List α :=
  (fields.flatMap fun field => joinField assign field ++ [separator]).dropLast

/-- Nothing in the field is taken for a sign between fields or parts. -/
structure Plain (field : List α × List α) : Prop where
  name : assign ∉ field.1
  separator : separator ∉ field.1 ∧ separator ∉ field.2

variable {assign separator} {fields : List (List α × List α)}

theorem joinFields_eq_intercalate (fields : List (List α × List α)) :
    joinFields assign separator fields = [separator].intercalate (fields.map (joinField assign)) := by
  induction fields with
  | nil => rfl
  | cons field fields ih =>
    cases fields with
    | nil => simp [joinFields]
    | cons next fields =>
      rw [joinFields, List.flatMap_cons, List.dropLast_append_of_ne_nil (by simp), ← joinFields, ih]
      simp [List.intercalate_cons_cons]

theorem joinFields_ne_nil (h : fields ≠ []) : joinFields assign separator fields ≠ [] := by
  cases fields with
  | nil => exact absurd rfl h
  | cons field fields =>
    rw [joinFields_eq_intercalate]
    cases fields <;> simp [joinField, List.intercalate_cons_cons]

end Join

section Cut

variable {α : Type} [DecidableEq α] (assign separator : α)

/-- At the first assignment sign. -/
def cutField (piece : List α) : List α × List α :=
  (piece.takeWhile (· ≠ assign), (piece.dropWhile (· ≠ assign)).tail)

def cutFields (text : List α) : List (List α × List α) :=
  if text = [] then [] else (text.splitOn separator).map (cutField assign)

variable {assign separator} {fields fields' : List (List α × List α)} {field : List α × List α}

theorem cutField_joinField (h : assign ∉ field.1) : cutField assign (joinField assign field) = field := by
  have hpos : ∀ x ∈ field.1, decide (x ≠ assign) = true := fun x hx =>
    decide_eq_true fun heq => h (heq ▸ hx)
  rw [cutField, joinField, List.takeWhile_append_of_pos hpos, List.dropWhile_append_of_pos hpos]
  simp

/-- **The fields are read back.** -/
theorem cutFields_joinFields (hne : assign ≠ separator) (h : ∀ field ∈ fields, Plain assign separator field) :
    cutFields assign separator (joinFields assign separator fields) = fields := by
  by_cases hnil : fields = []
  · subst hnil
    rfl
  have hsep : ∀ piece ∈ fields.map (joinField assign), separator ∉ piece := by
    intro piece hpiece hmem
    obtain ⟨field, hfield, rfl⟩ := List.mem_map.1 hpiece
    rcases List.mem_append.1 hmem with hmem | hmem
    · exact (h field hfield).separator.1 hmem
    · rcases List.mem_cons.1 hmem with heq | hmem
      · exact hne heq.symm
      · exact (h field hfield).separator.2 hmem
  rw [cutFields, if_neg (joinFields_ne_nil hnil), joinFields_eq_intercalate,
    List.splitOn_intercalate separator hsep (by simpa using hnil), List.map_map]
  refine (List.map_congr_left fun field hfield => ?_).trans (List.map_id fields)
  exact cutField_joinField (h field hfield).name

/-- No two lists of fields have one text. -/
theorem joinFields_injective (hne : assign ≠ separator) (h : ∀ field ∈ fields, Plain assign separator field)
    (h' : ∀ field ∈ fields', Plain assign separator field)
    (heq : joinFields assign separator fields = joinFields assign separator fields') : fields = fields' := by
  rw [← cutFields_joinFields hne h, heq, cutFields_joinFields hne h']

end Cut

end BybitApi.Lib
