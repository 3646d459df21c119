import TableProfiling.Catalog.Codecs
import TableProfiling.Proofs.Json.Record
import TableProfiling.Proofs.Scan.WellFormed

namespace TableProfiling

open Json

theorem PartitionKind.restores_codec (k : PartitionKind) : codec.Restores k :=
  Codec.restores_names <| by cases k <;> rfl

-- The values that restrict a scan are kept like all that have been read.
def Override.Sorted (o : Override) : Prop :=
  ∀ vs ∈ o.values, ∀ v ∈ vs, v.Sorted

theorem Override.restores_codec {o : Override} (h : o.Sorted) : codec.Restores o := by
  refine Codec.restores_record ⟨?enabled, ?column, ?kind, ?unit, ?interval, ?values, ?rangeStart,
    ?rangeEnd, trivial⟩ (by decide) rfl
  case enabled => exact Field.restores_defaulted <| Codec.restores_bool _
  case kind => exact Field.restores_optional (fun k _ => k.restores_codec) nofun
  case interval => exact Field.restores_optional (fun n _ => Codec.restores_uint32 n) nofun
  case values =>
    refine Field.restores_optional (fun vs hv => ?_) nofun
    exact Codec.restores_list fun v hm => Codec.restores_value <| h vs hv v hm
  case column | unit => exact Field.restores_optional (fun s _ => Codec.restores_string s) nofun
  case rangeStart | rangeEnd =>
    exact Field.restores_optional (fun n _ => Codec.restores_int64 n) nofun

namespace Descriptor

variable {d : Descriptor}

-- The keys are the same, and a unit is written like its name.
theorem encode_override (h : d.enabled = true) :
    Override.codec.encode d.override = codec.encode d := by
  rcases d with ⟨enabled, column, kind, unit, interval, values, rangeStart, rangeEnd⟩
  cases h
  cases unit <;> rfl

theorem ofText_override (he : d.enabled = true) (hs : d.override.Sorted)
    (hd : (codec.encode d).depth < 128) :
    Override.codec.ofText (codec.text d) = .ok d.override := by
  rw [←encode_override he] at hd
  rw [Codec.text, ←encode_override he]
  exact Codec.ofText_text (Override.restores_codec hs) hd

end Descriptor
end TableProfiling
