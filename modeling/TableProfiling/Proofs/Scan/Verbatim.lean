import TableProfiling.Proofs.Scan.Resolution

namespace TableProfiling

-- An override that restricts a scan by itself.
structure Override.SelfSufficient (o : Override) : Prop extends o.Acceptable where
  column : ∃ c ∈ o.column, isBlank c = false
  range  : o.kind = some .integerRange → Bounded o.rangeStart o.rangeEnd

namespace Scan

variable {t : Table} {o : Override}

theorem selfSufficient_iff : o.SelfSufficient ↔ o.Acceptable ∧ o.options.Complete := by
  constructor
  case mp =>
    intro h
    have hu := Options.unitOf_eq_ok_iff.mpr ⟨h.unit, rfl⟩
    exact ⟨h.toAcceptable, Options.exclusive_options_iff hu |>.mpr h.exclusive, h.column, h.range⟩
  case mpr => exact fun ⟨accepted, complete⟩ => ⟨accepted, complete.column, complete.range⟩

theorem choice_undeclared_iff (ho : o.enabled) :
    Choice none (some o) options ∧ options.Complete ↔ o.SelfSufficient ∧ options = o.options := by
  rw [selfSufficient_iff]
  constructor
  case mp =>
    intro ⟨choice, complete⟩
    cases choice with
    | overridden _ accepted => exact ⟨⟨accepted, complete⟩, rfl⟩
  case mpr =>
    intro ⟨⟨accepted, complete⟩, h⟩
    subst h
    exact ⟨.overridden ho accepted, complete⟩

theorem resolves_undeclared (hu : t.inUse = none) (ho : o.enabled) :
    Resolves t (some o) o.SelfSufficient o.options := by
  apply Resolves.of_choice <| not_unrestricted ho
  intro options
  rw [hu]
  exact choice_undeclared_iff ho

-- The second part says that a declaration that is not in use cannot be told from the outcome.
theorem resolveWith_verbatim :
    (∀ (t : Table) (o : Override), t.dialect ≠ .bigQuery ∨ t.declaration = none → o.enabled = true →
      Resolves t (some o) o.SelfSufficient o.options) ∧
    ∀ (t₁ t₂ : Table) (o : Option Override), t₁.name = t₂.name → t₁.dialect = t₂.dialect →
      t₁.dialect ≠ .bigQuery → resolveWith t₁ o = resolveWith t₂ o := by
  constructor
  case left =>
    intro t o h
    exact resolves_undeclared <| Table.inUse_eq_none_iff.mpr h.symm
  case right =>
    intro t₁ t₂ o hn hd h
    have h₁ : t₁.inUse = none := Table.inUse_eq_none_iff.mpr <| .inr h
    have h₂ : t₂.inUse = none := Table.inUse_eq_none_iff.mpr <| .inr (hd ▸ h)
    exact resolveWith_congr hn (h₁.trans h₂.symm)

theorem resolveWith_verbatim_postgres :
    (∃ d,
      resolveWith
        { name := "t", dialect := .postgres, declaration := some ⟨[], .timeUnit, none⟩ }
        (some { column := some "at", unit := some "HOUR", interval := some 6, values := some [] }) =
          .ok (some d) ∧
      d.options = { column := some "at", unit := some .hour, interval := some 6 }) ∧
    resolveWith
        { name := "t", dialect := .postgres, declaration := some ⟨[], .timeUnit, none⟩ }
        (some { unit := some "hour" }) =
      resolveWith { name := "t", dialect := .postgres } (some { unit := some "hour" }) := by
  have ⟨passes, ignores⟩ := resolveWith_verbatim
  refine ⟨?_, ignores _ _ _ rfl rfl (by decide)⟩
  have h := passes { name := "t", dialect := .postgres, declaration := some ⟨[], .timeUnit, none⟩ }
    { column := some "at", unit := some "HOUR", interval := some 6, values := some [] }
    (.inl (by decide)) rfl
  have ⟨d, hd⟩ := h.succeeds_iff.mpr {
    unit := by simp
    exclusive := by simp [Override.discreteValues]
    column := ⟨"at", rfl, by decide⟩
    range := by simp }
  exact ⟨d, hd, h.descriptor d hd |>.right⟩

end Scan
end TableProfiling
