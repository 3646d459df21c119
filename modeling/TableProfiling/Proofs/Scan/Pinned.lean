import TableProfiling.Proofs.Catalog.Codecs

namespace TableProfiling.Scan

open Json

variable {t : Table} {p : Option Declaration} {o : Option Override} {d : Descriptor}

-- Declarations come without values, so that all values are those of an override.
theorem Choice.values_of_override (c : Choice p o options) (h : options.values = some vs) :
    ∃ x ∈ o, x.values = some vs := by
  have given {x : Override} (hv : x.discreteValues = some vs) : x.values = some vs := by
    rw [Override.discreteValues_eq_filter] at hv
    exact Option.filter_eq_some_iff.mp hv |>.left
  cases c
  case declared         => cases h
  case overridden x _ _ => exact ⟨x, rfl, given h⟩
  case merged p x _ _ _ =>
    have h : (x.options.values <|> p.defaults.values) = some vs := Options.merge_values ▸ h
    refine ⟨x, rfl, given ?_⟩
    simpa [Declaration.defaults, Override.options] using h

-- The options that have once been chosen are chosen again when they are all set.
theorem Choice.pinned (c : Choice p o options) (h : d.WellFormed) (hd : d.options = options) :
    Choice p (some d.override) options := by
  have accepted : d.override.Acceptable := h.override_selfSufficient.toAcceptable
  have ho : d.override.options = options := h.override_options.trans hd
  cases c
  case overridden => exact ho ▸ .overridden rfl accepted
  case declared p names =>
    have merged := Choice.merged rfl accepted names
    rwa [ho, Options.merge_self rfl] at merged
  case merged p x _ _ names =>
    have merged := Choice.merged rfl accepted names
    rwa [ho, Options.merge_merge rfl] at merged

theorem resolved_pinned (h : resolveWith t o = .ok (some d)) :
    resolveWith t (some d.override) = .ok (some d) := by
  have ⟨enabled, choice, complete⟩ := resolved_iff.mp h
  exact resolved_iff.mpr ⟨enabled, choice.pinned (resolved_wellFormed h) rfl, complete⟩

theorem resolved_sorted (hs : ∀ x ∈ o, x.Sorted) (h : resolveWith t o = .ok (some d)) :
    d.override.Sorted := by
  intro vs hv
  have ⟨_, choice, _⟩ := resolved_iff.mp h
  have ⟨x, hx, hv⟩ := choice.values_of_override hv
  exact hs x hx vs hv

-- The text of what a table has been resolved to is an override that it is resolved to again.
theorem resolveWith_ofText (hs : ∀ x ∈ o, x.Sorted) (h : resolveWith t o = .ok (some d))
    (hd : (Descriptor.codec.encode d).depth < 128) :
    ∃ pin, Override.codec.ofText (Descriptor.codec.text d) = .ok pin ∧
      resolveWith t (some pin) = .ok (some d) := by
  have ⟨enabled, _⟩ := resolved_iff.mp h
  exact ⟨d.override, d.ofText_override enabled (resolved_sorted hs h) hd, resolved_pinned h⟩

-- Values of several kinds over a declaration by time.
theorem resolveWith_ofText_values :
    ∃ d,
      resolveWith
        { name := "t", dialect := .bigQuery, declaration := some ⟨["at"], .timeUnit, none⟩ }
        (some { values := some [.object [("a", .null), ("b", .array [])], .string "EU"] })
          = .ok (some d) ∧
      ∃ pin, Override.codec.ofText (Descriptor.codec.text d) = .ok pin ∧
        resolveWith
          { name := "t", dialect := .bigQuery, declaration := some ⟨["at"], .timeUnit, none⟩ }
          (some pin) = .ok (some d) := by
  let d : Descriptor := {
    enabled := true, column := "at", kind := some .columnValue
    values := some [.object [("a", .null), ("b", .array [])], .string "EU"] }
  have sorted : Value.Sorted (.object [("a", .null), ("b", .array [])]) := by
    refine .object ?_ <| List.pairwise_pair.mpr (by decide)
    simpa using ⟨.null, .array <| List.forall_mem_nil _⟩
  refine ⟨d, rfl, resolveWith_ofText (d := d)
    (o := some { values := some [.object [("a", .null), ("b", .array [])], .string "EU"] })
    ?sorted rfl ?depth⟩
  case sorted => simpa [Override.Sorted] using ⟨sorted, .string⟩
  case depth  => decide

end TableProfiling.Scan
