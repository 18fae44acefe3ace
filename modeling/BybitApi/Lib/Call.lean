import BybitApi.Lib.Loop

/-!
# Calls on a state

A call reads and changes a state, and it returns or throws. What it did to the state before it throws
stays done. A call that does not end gives `none`.

The rules say how a call that ends came to its end: one for each way of making a call.
-/

namespace BybitApi.Lib

/-- Calls that throw an `ε`, on a state `σ`. -/
abbrev Call (ε σ : Type) : Type → Type := ExceptT ε (StateT σ Option)

namespace Call

variable {ε σ α β : Type} {s s' : σ} {r : Except ε β}

/-- What does not touch the state, and may not end. -/
def ofOption (o : Option (Except ε α)) : Call ε σ α := fun s => o.map fun r => (r, s)

/-- What does not touch the state. -/
def ofExcept (r : Except ε α) : Call ε σ α := fun s => some (r, s)

theorem bind_eq_some {c : Call ε σ α} {f : α → Call ε σ β} : (c >>= f) s = some (r, s') ↔
    (∃ e, c s = some (.error e, s') ∧ r = .error e) ∨
      ∃ a s₁, c s = some (.ok a, s₁) ∧ f a s₁ = some (r, s') := by
  cases h : c s with
  | none =>
    have hbind : (c >>= f) s = none := by
      change Option.bind (c s) _ = none
      rw [h]
      rfl
    rw [hbind]
    simp
  | some p =>
    obtain ⟨x, s₁⟩ := p
    cases x with
    | error e =>
      have hbind : (c >>= f) s = some (.error e, s₁) := by
        change Option.bind (c s) _ = _
        rw [h]
        rfl
      rw [hbind]
      constructor
      · intro heq
        cases heq
        exact Or.inl ⟨e, rfl, rfl⟩
      · rintro (⟨e', he, rfl⟩ | ⟨a, s₂, ha, -⟩)
        · cases he
          rfl
        · cases ha
    | ok a =>
      have hbind : (c >>= f) s = f a s₁ := by
        change Option.bind (c s) _ = _
        rw [h]
        rfl
      rw [hbind]
      constructor
      · intro hf
        exact Or.inr ⟨a, s₁, rfl, hf⟩
      · rintro (⟨e', he, -⟩ | ⟨a', s₂, ha, hf⟩)
        · cases he
        · cases ha
          exact hf

theorem pure_eq_some {b : β} : (pure b : Call ε σ β) s = some (r, s') ↔ r = .ok b ∧ s' = s := by
  change some (Except.ok b, s) = some (r, s') ↔ _
  rw [Option.some.injEq, Prod.mk.injEq, eq_comm (a := s), eq_comm (a := Except.ok b)]

theorem map_eq_some {c : Call ε σ α} {f : α → β} :
    (f <$> c) s = some (r, s') ↔ ∃ x, c s = some (x, s') ∧ r = x.map f := by
  rw [map_eq_pure_bind, bind_eq_some]
  constructor
  · rintro (⟨e, hc, rfl⟩ | ⟨a, s₁, hc, hp⟩)
    · exact ⟨.error e, hc, rfl⟩
    · obtain ⟨rfl, rfl⟩ := pure_eq_some.1 hp
      exact ⟨.ok a, hc, rfl⟩
  · rintro ⟨x, hc, rfl⟩
    cases x with
    | error e => exact Or.inl ⟨e, hc, rfl⟩
    | ok a => exact Or.inr ⟨a, s', hc, pure_eq_some.2 ⟨rfl, rfl⟩⟩

theorem get_bind {f : σ → Call ε σ β} : (get >>= f : Call ε σ β) s = f s s := rfl

theorem modify_bind {g : σ → σ} {f : PUnit → Call ε σ β} : (modify g >>= f : Call ε σ β) s = f ⟨⟩ (g s) := rfl

theorem modify_eq_some {f : σ → σ} {r : Except ε PUnit} :
    (modify f : Call ε σ PUnit) s = some (r, s') ↔ r = .ok ⟨⟩ ∧ s' = f s := by
  change some (Except.ok PUnit.unit, f s) = some (r, s') ↔ _
  rw [Option.some.injEq, Prod.mk.injEq, eq_comm (a := f s), eq_comm (a := Except.ok PUnit.unit)]

theorem ofOption_eq_some {o : Option (Except ε β)} : ofOption o s = some (r, s') ↔ o = some r ∧ s' = s := by
  change o.map (fun r => (r, s)) = some (r, s') ↔ _
  rw [Option.map_eq_some_iff]
  constructor
  · rintro ⟨r', ho, heq⟩
    cases heq
    exact ⟨ho, rfl⟩
  · rintro ⟨ho, rfl⟩
    exact ⟨r, ho, rfl⟩

theorem ofExcept_eq_some {x : Except ε β} : ofExcept x s = some (r, s') ↔ r = x ∧ s' = s := by
  change some (x, s) = some (r, s') ↔ _
  rw [Option.some.injEq, Prod.mk.injEq, eq_comm (a := s), eq_comm (a := x)]

/-! ## Calls that end -/

/-- What always ends does not change whether the call before it does. -/
theorem isSome_bind {c : Call ε σ α} {f : α → Call ε σ β} (hf : ∀ a s, (f a s).isSome) :
    ((c >>= f) s).isSome = (c s).isSome := by
  change (Option.bind (c s) _).isSome = _
  cases h : c s with
  | none => rfl
  | some p =>
    obtain ⟨x, s₁⟩ := p
    cases x with
    | error e => rfl
    | ok a => exact hf a s₁

theorem isSome_map {c : Call ε σ α} {f : α → β} : ((f <$> c) s).isSome = (c s).isSome := by
  rw [map_eq_pure_bind, isSome_bind fun _ _ => rfl]

/-! ## Invariants of calls -/

/-- It holds after the call if it did before, whether the call returns or throws. -/
def Keeps (I : σ → Prop) (c : Call ε σ α) : Prop := ∀ s r s', I s → c s = some (r, s') → I s'

namespace Keeps

variable {I : σ → Prop} {c : Call ε σ α} {f : α → Call ε σ β}

theorem bind (hc : Keeps I c) (hf : ∀ a, Keeps I (f a)) : Keeps I (c >>= f) := by
  intro s r s' hs h
  obtain ⟨e, h₁, -⟩ | ⟨a, s₁, h₁, h₂⟩ := bind_eq_some.1 h
  · exact hc s _ s' hs h₁
  · exact hf a s₁ r s' (hc s _ s₁ hs h₁) h₂

theorem get_bind {f : σ → Call ε σ β} (hf : ∀ a, Keeps I (f a)) : Keeps I (get >>= f) :=
  fun s r s' hs h => hf s s r s' hs h

theorem map {g : α → β} (hc : Keeps I c) : Keeps I (g <$> c) := by
  intro s r s' hs h
  obtain ⟨x, hx, -⟩ := map_eq_some.1 h
  exact hc s x s' hs hx

theorem modify {g : σ → σ} (hg : ∀ s, I s → I (g s)) : Keeps I (modify g : Call ε σ PUnit) := by
  intro s r s' hs h
  rw [(modify_eq_some.1 h).2]
  exact hg s hs

theorem pure {a : α} : Keeps I (pure a : Call ε σ α) := by
  intro s r s' hs h
  rwa [(pure_eq_some.1 h).2]

theorem ofExcept {x : Except ε α} : Keeps I (ofExcept x : Call ε σ α) := by
  intro s r s' hs h
  rwa [(ofExcept_eq_some.1 h).2]

end Keeps

end Call

end BybitApi.Lib
