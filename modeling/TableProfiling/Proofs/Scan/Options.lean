import TableProfiling.Proofs.Outcome
import TableProfiling.Scan.Options

namespace TableProfiling

open Outcome

-- No field about an interval of time or a range of integers is set. The unit is a text in an
-- override and a value everywhere else.
structure NoInterval (unit : Option α) (interval : Option UInt32) (first last : Option Int64) :
    Prop where
  unit     : unit = none
  interval : interval = none
  first    : first = none
  last     : last = none

-- Both bounds of a range are set, and in order.
def Bounded (first last : Option Int64) : Prop :=
  ∃ a ∈ first, ∃ b ∈ last, a ≤ b

theorem NoInterval.not_bounded {u : Option α} (h : NoInterval u i a b) : ¬Bounded a b := by
  simp [Bounded, h.first]

theorem isBlank_eq_false_iff : isBlank s = false ↔ ∃ c ∈ s.toList, ¬Charset.blank.contains c := by
  simp [isBlank]

theorem IntervalUnit.ofName?_isSome_iff :
    (ofName? s).isSome ↔ s ∈ ["HOUR", "DAY", "MONTH", "YEAR"] := by
  simp only [ofName?, List.find?_isSome, decide_eq_true_eq]
  simp [all, name, @eq_comm _ s]

namespace Override

variable {o : Override}

-- The values that restrict a scan: a list of none of them counts as no list.
def discreteValues (o : Override) : Option (List Json.Value) :=
  match o.values with
  | some (v :: vs) => some (v :: vs)
  | _ => none

theorem discreteValues_eq_filter : o.discreteValues = o.values.filter (!·.isEmpty) := by
  rcases o with ⟨_, _, _, _, _, _ | _ | _⟩ <;> rfl

theorem discreteValues_ne_nil (h : o.discreteValues = some vs) : vs ≠ [] := by
  simp [discreteValues_eq_filter] at h
  exact h.right

-- What is asked of an override by itself, whatever the table is.
structure Acceptable (o : Override) : Prop where
  unit      : ∀ name ∈ o.unit, name ∈ ["HOUR", "DAY", "MONTH", "YEAR"]
  exclusive : o.discreteValues ≠ none → NoInterval o.unit o.interval o.rangeStart o.rangeEnd

def options (o : Override) : Scan.Options where
  column := o.column
  kind := o.kind
  unit := o.unit.bind IntervalUnit.ofName?
  interval := o.interval
  values := o.discreteValues
  rangeStart := o.rangeStart
  rangeEnd := o.rangeEnd

end Override

-- The options that a descriptor stands for.
def Descriptor.options (d : Descriptor) : Scan.Options where
  column := d.column
  kind := d.kind
  unit := d.unit
  interval := d.interval
  values := d.values
  rangeStart := d.rangeStart
  rangeEnd := d.rangeEnd

theorem Descriptor.ext_options {d₁ d₂ : Descriptor} (he : d₁.enabled = d₂.enabled)
    (ho : d₁.options = d₂.options) : d₁ = d₂ := by
  cases d₁
  cases d₂
  simp_all [Descriptor.options]

namespace Scan.Options

variable {o base overrides : Options} {d : Descriptor}

-- Values and an interval are not set together.
def Exclusive (o : Options) : Prop :=
  o.values ≠ none → NoInterval o.unit o.interval o.rangeStart o.rangeEnd

theorem hasInterval_eq_false_iff :
    o.hasInterval = false ↔ NoInterval o.unit o.interval o.rangeStart o.rangeEnd := by
  simp [hasInterval]
  constructor
  case mp  => exact fun ⟨⟨⟨hu, hi⟩, hf⟩, hl⟩ => ⟨hu, hi, hf, hl⟩
  case mpr => exact fun ⟨hu, hi, hf, hl⟩ => ⟨⟨⟨hu, hi⟩, hf⟩, hl⟩

theorem checkExclusive_eq_ok_iff : o.checkExclusive = .ok u ↔ o.Exclusive := by
  simp [checkExclusive, Exclusive, ←hasInterval_eq_false_iff, Option.isSome_iff_ne_none]

theorem unitOf_eq_ok_iff {name : Option String} :
    unitOf name = .ok u ↔
      (∀ s ∈ name, s ∈ ["HOUR", "DAY", "MONTH", "YEAR"]) ∧ u = name.bind IntervalUnit.ofName? := by
  cases name
  case none => simp [unitOf, eq_comm]
  case some s =>
    simp only [unitOf, Option.mem_some_iff, forall_eq', ←IntervalUnit.ofName?_isSome_iff]
    cases h : IntervalUnit.ofName? s <;> simp [h, eq_comm]

-- A unit that is understood is not lost.
theorem unit_eq_none_iff {unit : Option String}
    (h : ∀ name ∈ unit, name ∈ ["HOUR", "DAY", "MONTH", "YEAR"]) :
    unit.bind IntervalUnit.ofName? = none ↔ unit = none := by
  cases unit
  case none => simp
  case some s =>
    have known := IntervalUnit.ofName?_isSome_iff.mpr <| h s rfl
    simp [Option.isSome_iff_ne_none.mp known]

-- As the unit is not lost, it still stands in the way of values.
theorem exclusive_options_iff {o : Override} (h : unitOf o.unit = .ok u) :
    o.options.Exclusive ↔
      (o.discreteValues ≠ none → NoInterval o.unit o.interval o.rangeStart o.rangeEnd) := by
  have hu : o.options.unit = none ↔ o.unit = none := unit_eq_none_iff (unitOf_eq_ok_iff.mp h).left
  constructor <;> intro he hv
  case mp  => exact ⟨hu.mp (he hv).unit, (he hv).interval, (he hv).first, (he hv).last⟩
  case mpr => exact ⟨hu.mpr (he hv).unit, (he hv).interval, (he hv).first, (he hv).last⟩

-- What a user sets is taken over as it is, as soon as it is acceptable at all.
theorem ofOverride_eq_ok_iff {o : Override} :
    ofOverride o = .ok options ↔ o.Acceptable ∧ options = o.options := by
  simp only [ofOverride, bind_eq_ok_iff, checkExclusive_eq_ok_iff,
    ←Override.discreteValues_eq_filter]
  constructor
  case mp =>
    rintro ⟨u, hu, _, he, h⟩
    obtain ⟨hn, hu'⟩ := unitOf_eq_ok_iff.mp hu
    subst hu'
    cases h
    exact ⟨⟨hn, exclusive_options_iff hu |>.mp he⟩, rfl⟩
  case mpr =>
    rintro ⟨⟨hn, he⟩, h⟩
    have hu := unitOf_eq_ok_iff.mpr ⟨hn, rfl⟩
    exact ⟨_, hu, (), exclusive_options_iff hu |>.mpr he, congrArg _ h.symm⟩

theorem checkRange_eq_ok_iff :
    o.checkRange = .ok u ↔ (o.kind = some .integerRange → Bounded o.rangeStart o.rangeEnd) := by
  simp only [checkRange, Bounded]
  split
  case isFalse h => simp [h]
  case isTrue h =>
    cases o.rangeStart <;> cases o.rangeEnd <;> simp [h]

theorem columnName_eq_ok_iff :
    o.columnName = .ok c ↔ o.column = some c ∧ isBlank c = false := by
  simp only [columnName]
  cases o.column
  case none => simp
  case some c' =>
    by_cases hb : isBlank c' <;> simp [hb]
    all_goals rintro rfl; simp [hb]

-- What is asked of options that are to make a descriptor.
structure Complete (o : Options) : Prop where
  exclusive : o.Exclusive
  column    : ∃ c ∈ o.column, isBlank c = false
  range     : o.kind = some .integerRange → Bounded o.rangeStart o.rangeEnd

theorem descriptor_eq_ok_iff :
    o.descriptor = .ok d ↔ o.Complete ∧ d.enabled = true ∧ d.options = o := by
  simp only [descriptor, bind_eq_ok_iff, checkExclusive_eq_ok_iff, columnName_eq_ok_iff,
    checkRange_eq_ok_iff]
  constructor
  case mp =>
    rintro ⟨_, he, c, ⟨hc, hb⟩, _, hr, h⟩
    cases h
    exact ⟨⟨he, ⟨c, hc, hb⟩, hr⟩, rfl, by simp [Descriptor.options, ←hc]⟩
  case mpr =>
    rintro ⟨⟨he, ⟨c, hc, hb⟩, hr⟩, hd, h⟩
    subst h
    cases hc
    exact ⟨(), he, d.column, ⟨rfl, hb⟩, (), hr, congrArg _ <| Descriptor.ext_options hd.symm rfl⟩

theorem Complete.exists_descriptor (h : o.Complete) : ∃ d, o.descriptor = .ok d := by
  have ⟨c, hc, _⟩ := h.column
  let d : Descriptor := {
    enabled := true, column := c, kind := o.kind, unit := o.unit, interval := o.interval
    values := o.values, rangeStart := o.rangeStart, rangeEnd := o.rangeEnd }
  have hd : d.options = o := by simp [Descriptor.options, d, ←Option.mem_def.mp hc]
  exact ⟨d, descriptor_eq_ok_iff.mpr ⟨h, rfl, hd⟩⟩

theorem merge_empty : base.merge {} = base := by
  simp [merge]

theorem merge_of_values (h : overrides.values = some vs) :
    base.merge overrides = {
      column := overrides.column <|> base.column
      kind := overrides.kind <|> some .columnValue
      values := some vs } := by
  simp [merge, h]

theorem merge_of_no_values (h : overrides.values = none) :
    base.merge overrides = {
      column := overrides.column <|> base.column
      kind := overrides.kind <|> base.kind
      unit := overrides.unit <|> base.unit
      interval := overrides.interval <|> base.interval
      values := base.values
      rangeStart := overrides.rangeStart <|> base.rangeStart
      rangeEnd := overrides.rangeEnd <|> base.rangeEnd } := by
  simp [merge, h]

theorem merge_values : (base.merge overrides).values = (overrides.values <|> base.values) := by
  cases h : overrides.values
  case none   => simp [merge_of_no_values h]
  case some _ => simp [merge_of_values h]

-- What has once been merged over options stays as it is when it is merged over them again.
theorem merge_merge (hb : base.values = none) :
    base.merge (base.merge overrides) = base.merge overrides := by
  cases h : overrides.values
  case none =>
    have merged : (base.merge overrides).values = none := by simp [merge_values, h, hb]
    rw [merge_of_no_values merged, merge_of_no_values h, hb]
    simp [Option.or_assoc]
  case some vs =>
    have merged : (base.merge overrides).values = some vs := by simp [merge_values, h]
    rw [merge_of_values merged, merge_of_values h]
    simp [Option.or_assoc]

theorem merge_self (hb : base.values = none) : base.merge base = base := by
  have again : base.merge (base.merge {}) = base.merge {} := merge_merge hb
  rwa [merge_empty] at again

-- Values push every interval aside, so that they can only clash with an interval that is merged
-- over them.
theorem merge_exclusive (hb : base.values = none) : (base.merge overrides).Exclusive := by
  intro hv
  cases h : overrides.values
  case none   => simp [merge_values, h, hb] at hv
  case some _ => simp only [merge_of_values h]; exact ⟨rfl, rfl, rfl, rfl⟩

end Scan.Options
end TableProfiling
