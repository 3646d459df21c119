import TableProfiling.Proofs.Catalog.Codecs
import TableProfiling.Proofs.Json.Reread

namespace TableProfiling

open Json

variable {origin : Origin}

theorem Dialect.restores_codec (d : Dialect) : codec.Restores d :=
  Codec.restores_names <| by cases d <;> rfl

theorem IntervalUnit.restores_codec (u : IntervalUnit) : codec.Restores u :=
  Codec.restores_names <| by cases u <;> rfl

theorem DeclaredKind.restores_codec (k : DeclaredKind) : codec.Restores k :=
  Codec.restores_names <| by cases k <;> rfl

theorem Declaration.restores_codec (d : Declaration) : codec.Restores d := by
  refine Codec.restores_record ⟨?columns, ?kind, ?interval, trivial⟩ (by decide) rfl
  case columns  =>
    exact Field.restores_defaulted <| Codec.restores_list fun s _ => Codec.restores_string s
  case kind     => exact Field.restores_required d.kind.restores_codec
  case interval => exact Field.restores_optional (fun s _ => Codec.restores_string s) nofun

-- The values that restrict a scan are kept like all that have been read.
def Descriptor.Sorted (d : Descriptor) : Prop :=
  ∀ vs ∈ d.values, ∀ v ∈ vs, v.Sorted

theorem Descriptor.restores_codec {d : Descriptor} (h : d.Sorted) : codec.Restores d := by
  refine Codec.restores_record ⟨?enabled, ?column, ?kind, ?unit, ?interval, ?values, ?rangeStart,
    ?rangeEnd, trivial⟩ (by decide) rfl
  case enabled => exact Field.restores_required <| Codec.restores_bool _
  case column => exact Field.restores_required <| Codec.restores_string _
  case kind => exact Field.restores_optional (fun k _ => k.restores_codec) nofun
  case unit => exact Field.restores_optional (fun u _ => u.restores_codec) nofun
  case interval => exact Field.restores_optional (fun n _ => Codec.restores_uint32 n) nofun
  case values =>
    refine Field.restores_optional (fun vs hv => ?_) nofun
    exact Codec.restores_list fun v hm => Codec.restores_value <| h vs hv v hm
  case rangeStart | rangeEnd =>
    exact Field.restores_optional (fun n _ => Codec.restores_int64 n) nofun

def Settings.Sorted (s : Settings) : Prop :=
  ∀ o ∈ s.partitioning, o.Sorted

theorem Settings.restores_codec {s : Settings} (h : s.Sorted) : codec.Restores s := by
  refine Codec.restores_record ⟨?partitioning, trivial⟩ (by decide) rfl
  refine Field.restores_optional (fun o ho => ?_) Codec.record_encode_ne_null
  exact o.restores_codec <| h o ho

def Table.Sorted (t : Table) : Prop :=
  ∀ s ∈ t.settings, s.Sorted

theorem Table.restores_codec {t : Table} (h : t.Sorted) : codec.Restores t := by
  refine Codec.restores_record ⟨?name, ?dialect, ?declaration, ?settings, trivial⟩ (by decide) rfl
  case name => exact Field.restores_required <| Codec.restores_string _
  case dialect => exact Field.restores_required t.dialect.restores_codec
  case declaration =>
    refine Field.restores_optional (fun d _ => d.restores_codec) Codec.record_encode_ne_null
  case settings =>
    refine Field.restores_optional (fun s hs => ?_) Codec.record_encode_ne_null
    exact s.restores_codec <| h s hs

theorem Dialect.stable_codec : codec.Stable (fun _ => True) origin :=
  Codec.stable_of_restores restores_codec fun _ => rfl

theorem IntervalUnit.stable_codec : codec.Stable (fun _ => True) origin :=
  Codec.stable_of_restores restores_codec fun _ => rfl

theorem PartitionKind.stable_codec : codec.Stable (fun _ => True) origin :=
  Codec.stable_of_restores restores_codec fun _ => rfl

theorem DeclaredKind.stable_codec : codec.Stable (fun _ => True) origin :=
  Codec.stable_of_restores restores_codec fun _ => rfl

theorem Declaration.stable_codec (h : origin.Admits 2) :
    codec.Stable (fun _ => True) origin := by
  refine Codec.stable_record (fun o' he => ?_) (fun _ _ _ => trivial) (by decide)
    (fun _ => rfl) (fun _ => rfl)
  have ho : o'.Admits 1 := Origin.admits_succ_iff he |>.mp h
  refine ⟨?columns, ?kind, ?interval, trivial⟩
  case columns =>
    refine Field.stable_defaulted (Codec.stable_list fun _ _ => Codec.stable_string) ?_
    exact ⟨Codec.restores_list nofun, ho⟩
  case kind => exact Field.stable_required DeclaredKind.stable_codec
  case interval => exact Field.stable_optional Codec.stable_string nofun

theorem stable_values : (Codec.list .value).Stable (∀ v ∈ ·, v.Sorted) origin :=
  Codec.stable_list fun _ _ => Codec.stable_value

theorem Override.stable_codec : codec.Stable Override.Sorted origin := by
  refine Codec.stable_record (fun o' _ => ?fields) ?sorted (by decide) (fun _ => rfl) (fun _ => rfl)
  case sorted =>
    intro _ _ ⟨_, _, _, _, _, values, _⟩
    exact values.of_optional stable_values nofun
  refine ⟨?enabled, ?column, ?kind, ?unit, ?interval, ?values, ?rangeStart, ?rangeEnd, trivial⟩
  case enabled =>
    exact Field.stable_defaulted Codec.stable_bool ⟨Codec.restores_bool _, o'.admits_zero⟩
  case kind => exact Field.stable_optional PartitionKind.stable_codec nofun
  case column | unit => exact Field.stable_optional Codec.stable_string nofun
  case interval => exact Field.stable_optional Codec.stable_uint32 nofun
  case values => exact Field.stable_optional stable_values nofun
  case rangeStart | rangeEnd => exact Field.stable_optional Codec.stable_int64 nofun

theorem Descriptor.stable_codec : codec.Stable Descriptor.Sorted origin := by
  refine Codec.stable_record (fun _ _ => ?fields) ?sorted (by decide) (fun _ => rfl) (fun _ => rfl)
  case sorted =>
    intro _ _ ⟨_, _, _, _, _, values, _⟩
    exact values.of_optional stable_values nofun
  refine ⟨?enabled, ?column, ?kind, ?unit, ?interval, ?values, ?rangeStart, ?rangeEnd, trivial⟩
  case enabled => exact Field.stable_required Codec.stable_bool
  case column => exact Field.stable_required Codec.stable_string
  case kind => exact Field.stable_optional PartitionKind.stable_codec nofun
  case unit => exact Field.stable_optional IntervalUnit.stable_codec nofun
  case interval => exact Field.stable_optional Codec.stable_uint32 nofun
  case values => exact Field.stable_optional stable_values nofun
  case rangeStart | rangeEnd => exact Field.stable_optional Codec.stable_int64 nofun

theorem Settings.stable_codec : codec.Stable Settings.Sorted origin := by
  refine Codec.stable_record (fun _ _ => ?fields) ?sorted (by decide) (fun _ => rfl) (fun _ => rfl)
  case fields =>
    exact ⟨Field.stable_optional Override.stable_codec Codec.record_encode_ne_null, trivial⟩
  case sorted =>
    intro _ _ ⟨partitioning, _⟩
    exact partitioning.of_optional Override.stable_codec Codec.record_encode_ne_null

theorem Table.stable_codec (h : origin.Admits 3) : codec.Stable Table.Sorted origin := by
  refine Codec.stable_record (fun o' he => ?fields) ?sorted (by decide) (fun _ => rfl)
    (fun _ => rfl)
  case sorted =>
    intro _ _ ⟨_, _, _, settings, _⟩
    exact settings.of_optional Settings.stable_codec Codec.record_encode_ne_null
  have ho : o'.Admits 2 := Origin.admits_succ_iff he |>.mp h
  refine ⟨?name, ?dialect, ?declaration, ?settings, trivial⟩
  case name => exact Field.stable_required Codec.stable_string
  case dialect => exact Field.stable_required Dialect.stable_codec
  case declaration =>
    exact Field.stable_optional (Declaration.stable_codec ho) Codec.record_encode_ne_null
  case settings => exact Field.stable_optional Settings.stable_codec Codec.record_encode_ne_null

-- All of the catalogue is read back from its texts, whatever is set in it, is left out or is empty;
-- and so is what has been read from any other text.
theorem catalog_lossless :
    Table.codec.Lossless Table.Sorted ∧ Declaration.codec.Lossless (fun _ => True) ∧
    Settings.codec.Lossless Settings.Sorted ∧ Override.codec.Lossless Override.Sorted ∧
    Descriptor.codec.Lossless Descriptor.Sorted := by
  refine ⟨?table, ?declaration, ?settings, ?override, ?descriptor⟩
  case table =>
    have stable : Table.codec.Stable Table.Sorted (.text 127) :=
      Table.stable_codec (by simp [Origin.Admits])
    exact stable.lossless fun _ => Table.restores_codec
  case declaration =>
    have stable : Declaration.codec.Stable (fun _ => True) (.text 127) :=
      Declaration.stable_codec (by simp [Origin.Admits])
    exact stable.lossless fun d _ => d.restores_codec
  case settings => exact Settings.stable_codec.lossless fun _ => Settings.restores_codec
  case override => exact Override.stable_codec.lossless fun _ => Override.restores_codec
  case descriptor => exact Descriptor.stable_codec.lossless fun _ => Descriptor.restores_codec

-- Members that are out of order when they are read, and a table in which all is set that can be
-- without saying anything.
theorem catalog_lossless_empty :
    (∃ o,
      Override.codec.ofText "\x7b\"partitionValues\":[\x7b\"b\":[],\"a\":null\x7d]\x7d" = .ok o ∧
      Override.codec.ofText (Override.codec.text o) = .ok o) ∧
    Table.codec.ofText (Table.codec.text
      { name := "", dialect := .hive, declaration := some ⟨[], .timeUnit, some ""⟩
        settings := some { partitioning := some { enabled := false, values := some [] } } }) =
      .ok
        { name := "", dialect := .hive, declaration := some ⟨[], .timeUnit, some ""⟩
          settings := some { partitioning := some { enabled := false, values := some [] } } } := by
  have ⟨table, _, _, override, _⟩ := catalog_lossless
  constructor
  case left =>
    have read :
        Override.codec.ofText "\x7b\"partitionValues\":[\x7b\"b\":[],\"a\":null\x7d]\x7d" =
          .ok { values := some [.object [("a", .null), ("b", .array [])]] } := by cbv
    exact ⟨_, read, override.reread _ _ read⟩
  case right =>
    refine table.written _ ?_ (by decide)
    simp [Table.Sorted, Settings.Sorted, Override.Sorted]

end TableProfiling
