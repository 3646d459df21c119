import TableProfiling.Proofs.Metric.Codecs

namespace TableProfiling

open Json

variable {o o' : Origin}

def Validation.mapMetrics (f : Metric → Metric) (v : Validation) : Validation :=
  { v with computed := f v.computed, expected := f v.expected }

def ColumnProfile.mapMetrics (f : Metric → Metric) (p : ColumnProfile) : ColumnProfile :=
  { p with results := p.results.map f }

def TableProfile.mapMetrics (f : Metric → Metric) (p : TableProfile) : TableProfile :=
  { p with results := p.results.map f, columns := p.columns.map (·.mapMetrics f) }

def TableTest.mapMetrics (f : Metric → Metric) (t : TableTest) : TableTest :=
  { t with expression := t.expression.map (·.mapMetrics f) }

def ColumnTest.mapMetrics (f : Metric → Metric) (t : ColumnTest) : ColumnTest :=
  { t with expression := t.expression.map (·.mapMetrics f) }

def ColumnTestGroup.mapMetrics (f : Metric → Metric) (g : ColumnTestGroup) : ColumnTestGroup :=
  { g with tests := g.tests.map (·.mapMetrics f) }

def TestResults.mapMetrics (f : Metric → Metric) (t : TestResults) : TestResults :=
  { tableTests := t.tableTests.map (·.mapMetrics f)
    columnTests := t.columnTests.map (·.mapMetrics f) }

-- A record with other metrics in the places of its metrics.
def Record.mapMetrics (f : Metric → Metric) (r : Record) : Record :=
  { profile := r.profile.mapMetrics f, tests := r.tests.map (·.mapMetrics f) }

-- The record that a text gives in place of another one.
def Record.expressed (r : Record) : Record :=
  r.mapMetrics Metric.expressed

-- No mapping of a record has a name twice.
structure TableProfile.Distinct (p : TableProfile) : Prop where
  results : p.results.Distinct
  columns : ∀ c ∈ p.columns, c.results.Distinct

def Record.Distinct (r : Record) : Prop :=
  r.profile.Distinct

theorem Json.Codec.encode_list_map {c : Codec α} {f : α → α} (h : ∀ x, c.encode (f x) = c.encode x)
    (xs : List α) : c.list.encode (xs.map f) = c.list.encode xs := by
  simp [Codec.list, h, Function.comp_def]

theorem Validation.encode_expressed (v : Validation) :
    codec.encode (v.mapMetrics Metric.expressed) = codec.encode v := by
  simp [codec, mapMetrics, Codec.record, Fields.encode, Field.required, Metric.codec,
    Metric.toValue_expressed]

theorem ColumnProfile.encode_expressed (p : ColumnProfile) :
    codec.encode (p.mapMetrics Metric.expressed) = codec.encode p := by
  simp [codec, mapMetrics, Codec.record, Fields.encode, Field.required,
    Metric.Results.encode_expressed]

theorem TableProfile.encode_expressed (p : TableProfile) :
    codec.encode (p.mapMetrics Metric.expressed) = codec.encode p := by
  simp [codec, mapMetrics, Codec.record, Fields.encode, Field.required, Field.defaulted,
    Metric.Results.encode_expressed, Codec.encode_list_map ColumnProfile.encode_expressed]

theorem TableTest.encode_expressed (t : TableTest) :
    codec.encode (t.mapMetrics Metric.expressed) = codec.encode t := by
  simp [codec, mapMetrics, Codec.record, Fields.encode, Field.required,
    Codec.encode_list_map Validation.encode_expressed]

theorem ColumnTest.encode_expressed (t : ColumnTest) :
    codec.encode (t.mapMetrics Metric.expressed) = codec.encode t := by
  simp [codec, mapMetrics, Codec.record, Fields.encode, Field.required,
    Codec.encode_list_map Validation.encode_expressed]

theorem ColumnTestGroup.encode_expressed (g : ColumnTestGroup) :
    codec.encode (g.mapMetrics Metric.expressed) = codec.encode g := by
  simp [codec, mapMetrics, Codec.record, Fields.encode, Field.required,
    Codec.encode_list_map ColumnTest.encode_expressed]

theorem TestResults.encode_expressed (t : TestResults) :
    codec.encode (t.mapMetrics Metric.expressed) = codec.encode t := by
  simp [codec, mapMetrics, Codec.record, Fields.encode, Field.defaulted,
    Codec.encode_list_map TableTest.encode_expressed,
    Codec.encode_list_map ColumnTestGroup.encode_expressed]

theorem Record.encode_expressed (r : Record) : codec.encode r.expressed = codec.encode r := by
  simp [codec, expressed, mapMetrics, Codec.record, Fields.encode, Field.required, Field.optional,
    TableProfile.encode_expressed, TestResults.encode_expressed, Function.comp_def]

theorem Json.Codec.keeps_list_map {c : Codec α} {f : α → α} (h : o.Admits (n + 1)) (xs : List α)
    (hx : ∀ x ∈ xs, ∀ o' : Origin, o'.Admits n → c.Keeps o' (f x)) : c.list.Keeps o (xs.map f) := by
  have ⟨o', he, ho⟩ := h.exists_enter
  apply Codec.keeps_list he
  simp only [List.forall_mem_map]
  exact fun x hm => hx x hm o' ho

theorem Comparison.restores_codec (c : Comparison) : codec.Restores c :=
  Codec.restores_names <| by cases c <;> rfl

theorem Validation.keeps_codec (h : o.Admits 1) (v : Validation) :
    codec.Keeps o (v.mapMetrics Metric.expressed) := by
  have ⟨o', he, _⟩ := h.exists_enter
  refine Codec.keeps_record he ⟨?valid, ?computed, ?operator, ?expected, trivial⟩ (by decide) rfl
  case valid    => exact Field.keeps_required ⟨Codec.restores_bool _, o'.admits_zero⟩
  case operator => exact Field.keeps_required ⟨v.operator.restores_codec, o'.admits_zero⟩
  case computed => exact Field.keeps_required <| Metric.keeps_codec v.computed.expressed_expressed
  case expected => exact Field.keeps_required <| Metric.keeps_codec v.expected.expressed_expressed

theorem ColumnProfile.keeps_codec (h : o.Admits 2) {p : ColumnProfile} (hp : p.results.Distinct) :
    codec.Keeps o (p.mapMetrics Metric.expressed) := by
  have ⟨o', he, ho⟩ := h.exists_enter
  have ⟨_, he', _⟩ := ho.exists_enter
  refine Codec.keeps_record he ⟨?column, ?results, trivial⟩ (by decide) rfl
  case column  => exact Field.keeps_required ⟨Codec.restores_string _, o'.admits_zero⟩
  case results => exact Field.keeps_required <| hp.lasting.keeps he'

theorem TableProfile.keeps_codec (h : o.Admits 4) {p : TableProfile} (hp : p.Distinct) :
    codec.Keeps o (p.mapMetrics Metric.expressed) := by
  have ⟨o', he, ho⟩ := h.exists_enter
  have ⟨_, he', _⟩ := ho.exists_enter
  refine Codec.keeps_record he ⟨?name, ?results, ?columns, trivial⟩ (by decide) rfl
  case name    => exact Field.keeps_required ⟨Codec.restores_string _, o'.admits_zero⟩
  case results => exact Field.keeps_required <| hp.results.lasting.keeps he'
  case columns =>
    apply Field.keeps_defaulted
    exact Codec.keeps_list_map ho _ fun c hc _ ho => ColumnProfile.keeps_codec ho (hp.columns c hc)

theorem TableTest.keeps_codec (h : o.Admits 3) (t : TableTest) :
    codec.Keeps o (t.mapMetrics Metric.expressed) := by
  have ⟨o', he, ho⟩ := h.exists_enter
  refine Codec.keeps_record he ⟨?name, ?expression, trivial⟩ (by decide) rfl
  case name => exact Field.keeps_required ⟨Codec.restores_string _, o'.admits_zero⟩
  case expression =>
    apply Field.keeps_required
    exact Codec.keeps_list_map ho _ fun v _ _ ho => v.keeps_codec ho

theorem ColumnTest.keeps_codec (h : o.Admits 3) (t : ColumnTest) :
    codec.Keeps o (t.mapMetrics Metric.expressed) := by
  have ⟨o', he, ho⟩ := h.exists_enter
  refine Codec.keeps_record he ⟨?column, ?name, ?expression, trivial⟩ (by decide) rfl
  case column | name => exact Field.keeps_required ⟨Codec.restores_string _, o'.admits_zero⟩
  case expression =>
    apply Field.keeps_required
    exact Codec.keeps_list_map ho _ fun v _ _ ho => v.keeps_codec ho

theorem ColumnTestGroup.keeps_codec (h : o.Admits 5) (g : ColumnTestGroup) :
    codec.Keeps o (g.mapMetrics Metric.expressed) := by
  have ⟨o', he, ho⟩ := h.exists_enter
  refine Codec.keeps_record he ⟨?tests, trivial⟩ (by decide) rfl
  apply Field.keeps_required
  exact Codec.keeps_list_map ho _ fun t _ _ ho => t.keeps_codec ho

theorem TestResults.keeps_codec (h : o.Admits 7) (t : TestResults) :
    codec.Keeps o (t.mapMetrics Metric.expressed) := by
  have ⟨o', he, ho⟩ := h.exists_enter
  refine Codec.keeps_record he ⟨?tableTests, ?columnTests, trivial⟩ (by decide) rfl
  case tableTests =>
    apply Field.keeps_defaulted
    exact Codec.keeps_list_map (n := 3) (ho.mono (by decide)) _ fun t _ _ ho => t.keeps_codec ho
  case columnTests =>
    apply Field.keeps_defaulted
    exact Codec.keeps_list_map ho _ fun g _ _ ho => g.keeps_codec ho

theorem Record.keeps_codec (h : o.Admits 8) {r : Record} (hr : r.Distinct) :
    codec.Keeps o r.expressed := by
  have ⟨o', he, ho⟩ := h.exists_enter
  refine Codec.keeps_record he ⟨?profile, ?tests, trivial⟩ (by decide) rfl
  case profile =>
    apply Field.keeps_required
    exact TableProfile.keeps_codec (ho.mono (by decide)) hr
  case tests =>
    refine Field.keeps_optional (fun t ht => ?_) Codec.record_encode_ne_null
    obtain ⟨t', _, rfl⟩ := Option.map_eq_some_iff.mp ht
    exact t'.keeps_codec ho

theorem Comparison.stable_codec : codec.Stable (fun _ => True) o :=
  Codec.stable_of_restores restores_codec fun _ => rfl

theorem Validation.stable_codec : codec.Stable (fun _ => True) o := by
  refine Codec.stable_record (fun _ _ => ⟨?valid, ?computed, ?operator, ?expected, trivial⟩)
    (fun _ _ _ => trivial) (by decide) (fun _ => rfl) (fun _ => rfl)
  case valid => exact Field.stable_required Codec.stable_bool
  case operator => exact Field.stable_required Comparison.stable_codec
  case computed | expected => exact Field.stable_required Metric.stable_codec

theorem ColumnProfile.stable_codec : codec.Stable (·.results.Distinct) o := by
  refine Codec.stable_record (fun _ _ => ⟨?column, ?results, trivial⟩) ?distinct (by decide)
    (fun _ => rfl) (fun _ => rfl)
  case column => exact Field.stable_required Codec.stable_string
  case results => exact Field.stable_required Metric.Results.stable_codec
  case distinct =>
    intro _ _ ⟨_, results, _⟩
    exact results.of_required Metric.Results.stable_codec

theorem TableProfile.stable_codec (h : o.Admits 2) : codec.Stable Distinct o := by
  refine Codec.stable_record (fun o' he => ⟨?name, ?results, ?columns, trivial⟩) ?distinct
    (by decide) (fun _ => rfl) (fun _ => rfl)
  case name => exact Field.stable_required Codec.stable_string
  case results => exact Field.stable_required Metric.Results.stable_codec
  case columns =>
    refine Field.stable_defaulted (Codec.stable_list fun _ _ => ColumnProfile.stable_codec) ?_
    have ⟨_, he', _⟩ := Origin.admits_succ_iff he |>.mp h |>.exists_enter
    exact Codec.keeps_list he' nofun
  case distinct =>
    intro _ _ ⟨_, results, columns, _⟩
    refine ⟨results.of_required Metric.Results.stable_codec, ?_⟩
    exact columns.of_defaulted <| Codec.stable_list fun _ _ => ColumnProfile.stable_codec

theorem TableTest.stable_codec : codec.Stable (fun _ => True) o := by
  refine Codec.stable_record (fun _ _ => ⟨?name, ?expression, trivial⟩) (fun _ _ _ => trivial)
    (by decide) (fun _ => rfl) (fun _ => rfl)
  case name => exact Field.stable_required Codec.stable_string
  case expression =>
    exact Field.stable_required <| Codec.stable_list fun _ _ => Validation.stable_codec

theorem ColumnTest.stable_codec : codec.Stable (fun _ => True) o := by
  refine Codec.stable_record (fun _ _ => ⟨?column, ?name, ?expression, trivial⟩)
    (fun _ _ _ => trivial) (by decide) (fun _ => rfl) (fun _ => rfl)
  case column | name => exact Field.stable_required Codec.stable_string
  case expression =>
    exact Field.stable_required <| Codec.stable_list fun _ _ => Validation.stable_codec

theorem ColumnTestGroup.stable_codec : codec.Stable (fun _ => True) o := by
  refine Codec.stable_record (fun _ _ => ⟨?tests, trivial⟩) (fun _ _ _ => trivial) (by decide)
    (fun _ => rfl) (fun _ => rfl)
  exact Field.stable_required <| Codec.stable_list fun _ _ => ColumnTest.stable_codec

theorem TestResults.stable_codec (h : o.Admits 2) : codec.Stable (fun _ => True) o := by
  refine Codec.stable_record (fun o' he => ?_) (fun _ _ _ => trivial) (by decide)
    (fun _ => rfl) (fun _ => rfl)
  have ⟨_, he', _⟩ := Origin.admits_succ_iff he |>.mp h |>.exists_enter
  refine ⟨?tableTests, ?columnTests, trivial⟩
  case tableTests =>
    refine Field.stable_defaulted (Codec.stable_list fun _ _ => TableTest.stable_codec) ?_
    exact Codec.keeps_list he' nofun
  case columnTests =>
    refine Field.stable_defaulted (Codec.stable_list fun _ _ => ColumnTestGroup.stable_codec) ?_
    exact Codec.keeps_list he' nofun

theorem Record.stable_codec (h : o.Admits 3) : codec.Stable Distinct o := by
  refine Codec.stable_record (fun o' he => ?_) ?distinct (by decide) (fun _ => rfl) (fun _ => rfl)
  case distinct =>
    intro _ _ ⟨profile, _⟩
    exact profile.of_required <| TableProfile.stable_codec trivial
  have ho : o'.Admits 2 := Origin.admits_succ_iff he |>.mp h
  refine ⟨?profile, ?tests, trivial⟩
  case profile => exact Field.stable_required <| TableProfile.stable_codec ho
  case tests =>
    exact Field.stable_optional (TestResults.stable_codec ho) Codec.record_encode_ne_null

theorem Record.ofText_expressed {r : Record} (h : r.Distinct) :
    codec.ofText (codec.text r) = .ok r.expressed := by
  have keeps : codec.Keeps (.text 127) r.expressed := keeps_codec (by simp [Origin.Admits]) h
  rw [Codec.text, ←encode_expressed]
  exact keeps.ofText_text

-- What is read cannot change any more when it is written: its text gives it, and would give what is
-- expressed instead.
theorem results_reread :
    (∀ r : Record, r.Distinct →
      Record.codec.ofText (Record.codec.text r) = .ok r.expressed ∧
      Record.codec.text r.expressed = Record.codec.text r) ∧
    ∀ s r, Record.codec.ofText s = .ok r →
      r.Distinct ∧ r.expressed = r ∧ Record.codec.ofText (Record.codec.text r) = .ok r := by
  constructor
  case left =>
    intro r h
    exact ⟨Record.ofText_expressed h, congrArg Value.text r.encode_expressed⟩
  case right =>
    intro s r h
    have stable : Record.codec.Stable Record.Distinct (.text 127) :=
      Record.stable_codec (by simp [Origin.Admits])
    obtain ⟨distinct, keeps⟩ := stable.ofText h
    have reread := keeps.ofText_text
    have same := (Record.ofText_expressed distinct).symm.trans reread
    exact ⟨distinct, Except.ok.inj same, reread⟩

-- Not a number, a whole number, a negative zero and a long, and tests of which there are none.
theorem results_reread_special :
    let results (ratio : Metric) : Metric.Results :=
      ⟨[("ratio", ratio), ("mean", .double ⟨0x4059000000000000⟩),
        ("skew", .double ⟨0x8000000000000000⟩), ("rows", .long 100)]⟩
    let r (ratio : Metric) : Record :=
      { profile := { name := "t", results := results ratio }, tests := some {} }
    (r (.double ⟨0x7ff8000000000000⟩)).Distinct ∧
    Record.codec.ofText (Record.codec.text (r (.double ⟨0x7ff8000000000000⟩))) = .ok (r .null) := by
  intro results r
  have distinct : (r (.double ⟨0x7ff8000000000000⟩)).Distinct :=
    ⟨by simp [r, results, Metric.Results.Distinct], nofun⟩
  exact ⟨distinct, results_reread.left _ distinct |>.left⟩

end TableProfiling
