import TableProfiling.Proofs.Scan.Verbatim

namespace TableProfiling

-- A descriptor restricts a scan by a column, and by values or by intervals but not by both of them.
-- A range of integers is complete.
structure Descriptor.WellFormed (d : Descriptor) : Prop where
  enabled : d.enabled = true
  column  : ∃ c ∈ d.column.toList, ¬Charset.blank.contains c
  values  : ∀ vs ∈ d.values, vs ≠ [] ∧ NoInterval d.unit d.interval d.rangeStart d.rangeEnd
  range   : d.kind = some .integerRange → d.values = none ∧ Bounded d.rangeStart d.rangeEnd

namespace Scan

variable {t : Table} {p : Option Declaration} {o : Option Override} {options : Options}

-- Only a list that holds something is ever chosen. Declarations come without values, overrides with
-- an empty list count as having none, and merging takes its values from one of the two.
theorem Choice.values_ne_nil (c : Choice p o options) (h : options.values = some vs) : vs ≠ [] := by
  cases c
  case declared         => cases h
  case overridden       => exact Override.discreteValues_ne_nil h
  case merged d o _ _ _ =>
    have h : (o.options.values <|> d.defaults.values) = some vs := Options.merge_values ▸ h
    simp [Declaration.defaults] at h
    exact Override.discreteValues_ne_nil h

theorem Choice.wellFormed (c : Choice p o options) (h : options.descriptor = .ok d) :
    d.WellFormed := by
  have ⟨⟨exclusive, ⟨column, hc, hb⟩, range⟩, enabled, ho⟩ := Options.descriptor_eq_ok_iff.mp h
  subst ho
  cases hc
  refine ⟨enabled, isBlank_eq_false_iff.mp hb, ?values, ?range⟩
  case values =>
    intro vs hv
    exact ⟨c.values_ne_nil hv, exclusive <| by simp [Descriptor.options, Option.mem_def.mp hv]⟩
  case range =>
    intro hk
    have bounded := range hk
    refine ⟨?_, bounded⟩
    by_contra hv
    exact (exclusive hv).not_bounded bounded

theorem resolved_wellFormed (h : resolveWith t o = .ok (some d)) : d.WellFormed := by
  have ⟨_, hc, hd⟩ := resolveWith_eq_some_iff.mp h
  exact chosen_eq_some_iff.mp hc |>.wellFormed hd

theorem resolveWith_wellFormed (t : Table) (o : Option Override) :
    (∀ d, resolveWith t o = .ok (some d) → d.WellFormed) ∧
    ∀ f, resolveWith t o = .error f → ∃ fault, f = .partition t.name fault :=
  ⟨fun _ => resolved_wellFormed, fun _ => resolveWith_error⟩

theorem resolveWith_wellFormed_values :
    (∃ d,
      resolveWith
        { name := "t", dialect := .bigQuery, declaration := some ⟨["region"], .timeUnit, none⟩ }
        (some { values := some [.string "EU"] }) = .ok (some d) ∧
      d.WellFormed) ∧
    ∃ f,
      resolveWith
        { name := "t", dialect := .bigQuery, declaration := some ⟨["region"], .timeUnit, none⟩ }
        (some { values := some [.string "EU"], interval := some 7 }) = .error f ∧
      ∃ fault, f = .partition "t" fault := by
  constructor
  case left  =>
    let d : Descriptor := {
      enabled := true, column := "region", kind := some .columnValue
      values := some [.string "EU"] }
    refine ⟨d, rfl, ?_⟩
    exact resolveWith_wellFormed
      { name := "t", dialect := .bigQuery, declaration := some ⟨["region"], .timeUnit, none⟩ }
      (some { values := some [.string "EU"] }) |>.left _ rfl
  case right =>
    refine ⟨.partition "t" .valuesWithInterval, rfl, ?_⟩
    exact resolveWith_wellFormed
      { name := "t", dialect := .bigQuery, declaration := some ⟨["region"], .timeUnit, none⟩ }
      (some { values := some [.string "EU"], interval := some 7 }) |>.right _ rfl

end Scan

namespace Descriptor

variable {d : Descriptor}

-- The override that asks for a given descriptor, option by option.
def override (d : Descriptor) : Override where
  column := d.column
  kind := d.kind
  unit := d.unit.map IntervalUnit.name
  interval := d.interval
  values := d.values
  rangeStart := d.rangeStart
  rangeEnd := d.rangeEnd

namespace WellFormed

theorem override_discreteValues (h : d.WellFormed) : d.override.discreteValues = d.values := by
  cases hv : d.values
  case none => simp [Override.discreteValues, override, hv]
  case some vs =>
    cases vs
    case nil  => exact absurd rfl (h.values _ hv).left
    case cons => simp [Override.discreteValues, override, hv]

theorem override_options (h : d.WellFormed) : d.override.options = d.options := by
  have hu : d.override.unit.bind IntervalUnit.ofName? = d.unit := by
    cases hu : d.unit <;> simp [override, hu, IntervalUnit.ofName?_name]
  simp [Override.options, options, hu, h.override_discreteValues]
  simp [override]

theorem override_selfSufficient (h : d.WellFormed) : d.override.SelfSufficient where
  unit name hn := by
    have ⟨u, _, hu⟩ := Option.map_eq_some_iff.mp hn
    apply IntervalUnit.ofName?_isSome_iff.mp
    simp [←hu, IntervalUnit.ofName?_name]
  exclusive hv := by
    have ⟨vs, hv⟩ := Option.ne_none_iff_exists'.mp <| h.override_discreteValues ▸ hv
    have ⟨_, hu, hi, hf, hl⟩ := h.values vs hv
    exact ⟨by simp [override, hu], hi, hf, hl⟩
  column := ⟨d.column, rfl, isBlank_eq_false_iff.mpr h.column⟩
  range hk := h.range hk |>.right

end WellFormed

-- Nothing more can be said of all resolved descriptors: each well-formed one is among them.
theorem wellFormed_iff_resolved : d.WellFormed ↔ ∃ t o, Scan.resolveWith t o = .ok (some d) := by
  constructor
  case mp =>
    intro h
    let t : Table := { name := "", dialect := .bigQuery }
    have resolves := Scan.resolves_undeclared (t := t) (o := d.override) rfl rfl
    have ⟨d', hd⟩ := resolves.succeeds_iff.mpr h.override_selfSufficient
    have ⟨he, ho⟩ := resolves.descriptor d' hd
    cases ext_options (he.trans h.enabled.symm) (ho.trans h.override_options)
    exact ⟨t, d.override, hd⟩
  case mpr => exact fun ⟨_, _, h⟩ => Scan.resolved_wellFormed h

end Descriptor
end TableProfiling
