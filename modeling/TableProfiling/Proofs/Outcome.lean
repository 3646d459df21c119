import Mathlib.Tactic.Common

namespace TableProfiling.Outcome

variable {x : Except ε α}

@[simp]
theorem ok_bind {f : α → Except ε β} : .ok a >>= f = f a :=
  rfl

@[simp]
theorem error_bind {f : α → Except ε β} : .error e >>= f = .error e :=
  rfl

theorem bind_eq_ok_iff {f : α → Except ε β} :
    x >>= f = .ok b ↔ ∃ a, x = .ok a ∧ f a = .ok b := by
  cases x <;> simp [bind, Except.bind]

theorem bind_eq_error_iff {f : α → Except ε β} :
    x >>= f = .error e ↔ x = .error e ∨ ∃ a, x = .ok a ∧ f a = .error e := by
  cases x <;> simp [bind, Except.bind]

theorem map_eq_ok_iff {f : α → β} : f <$> x = .ok b ↔ ∃ a, x = .ok a ∧ f a = b := by
  cases x <;> simp [Functor.map, Except.map]

theorem mapError_eq_ok_iff {f : ε → ε'} : x.mapError f = .ok a ↔ x = .ok a := by
  cases x <;> simp [Except.mapError]

theorem mapError_eq_error_iff {f : ε → ε'} :
    x.mapError f = .error e' ↔ ∃ e, x = .error e ∧ f e = e' := by
  cases x <;> simp [Except.mapError]

theorem mapM_eq_ok_none_iff {o : Option α} {f : α → Except ε β} :
    o.mapM f = .ok none ↔ o = none := by
  cases o
  case none   => simp [pure, Except.pure]
  case some a => simp [map_eq_ok_iff]

theorem mapM_eq_ok_some_iff {o : Option α} {f : α → Except ε β} :
    o.mapM f = .ok (some b) ↔ ∃ a, o = some a ∧ f a = .ok b := by
  cases o
  case none   => simp [pure, Except.pure]
  case some a => simp [map_eq_ok_iff]

theorem list_mapM_ok_iff {l : List α} {f : α → Except ε β} :
    (∃ bs, l.mapM f = .ok bs) ↔ ∀ a ∈ l, ∃ b, f a = .ok b := by
  induction l
  case nil => simp [pure, Except.pure]
  case cons a l hi =>
    rw [List.forall_mem_cons, ←hi, List.mapM_cons]
    simp only [bind_eq_ok_iff]
    constructor
    · rintro ⟨_, b, hb, bs, hbs, -⟩
      exact ⟨⟨b, hb⟩, bs, hbs⟩
    · rintro ⟨⟨b, hb⟩, bs, hbs⟩
      exact ⟨_, b, hb, bs, hbs, rfl⟩

theorem list_mapM_eq_ok_iff {l : List α} {f : α → Except ε β} :
    l.mapM f = .ok bs ↔ List.Forall₂ (f · = .ok ·) l bs := by
  induction l generalizing bs
  case nil =>
    constructor
    · rintro ⟨⟩
      exact .nil
    · rintro ⟨⟩
      rfl
  case cons a l hi =>
    simp only [List.mapM_cons, bind_eq_ok_iff, hi]
    constructor
    · rintro ⟨b, hb, bs, hbs, ⟨⟩⟩
      exact .cons hb hbs
    · rintro ⟨⟩
      exact ⟨_, ‹_›, _, ‹_›, rfl⟩

end TableProfiling.Outcome
