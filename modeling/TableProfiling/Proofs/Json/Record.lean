import TableProfiling.Json.Record
import TableProfiling.Proofs.Json.Codec

namespace TableProfiling.Json

open Outcome

namespace Field

variable {c : Codec α} {key : String}

-- A field is read back from what is written of it, or from its absence.
structure Restores (f : Field α) (x : α) : Prop where
  given  : ∀ v ∈ f.encode x, ∀ o : Origin, o.Admits v.depth → f.decode o v.doc = .ok x
  absent : f.encode x = none → f.absent = some x

theorem restores_required (h : c.Restores x) : (required key c).Restores x where
  given _ hv := Option.mem_some.mp hv ▸ h
  absent     := nofun

theorem restores_defaulted (h : c.Restores x) : (defaulted key c y).Restores x where
  given _ hv := Option.mem_some.mp hv ▸ h
  absent     := nofun

-- Nothing that is given may be written like what is absent.
theorem restores_optional {x : Option α} (h : ∀ a ∈ x, c.Restores a)
    (hn : ∀ a, c.encode a ≠ .null) : (optional key c).Restores x where
  given v hv o ho := by
    obtain ⟨a, rfl, rfl⟩ := Option.map_eq_some_iff.mp hv
    have ha : c.decode o (c.encode a).doc = .ok a := h a rfl o ho
    have given : (c.encode a).doc ≠ .null := Value.doc_ne_null <| hn a
    simp only [optional, Codec.option_decode given, ha]
    rfl
  absent hx := by
    cases x
    case none => rfl
    case some => cases hx

end Field

namespace Fields

def keys : Fields αs → List String
  | .nil => []
  | .cons f fs => f.key :: fs.keys

def Restores : (fs : Fields αs) → Row αs → Prop
  | .nil, () => True
  | .cons f fs, (x, xs) => f.Restores x ∧ fs.Restores xs

-- The slots of a row after its members have been read: what has been left out is still missing.
def filled : (fs : Fields αs) → Row αs → Slots αs
  | .nil, () => ()
  | .cons f fs, (x, xs) => ((f.encode x).map fun _ => x, fs.filled xs)

variable {o : Origin} {f : Field α} {fs : Fields αs}

theorem mem_keys_of_encode {xs : Row αs} (h : m ∈ fs.encode xs) : m.1 ∈ fs.keys := by
  induction fs
  case nil => cases h
  case cons f fs hi =>
    have ⟨x, xs⟩ := xs
    simp only [encode] at h
    split at h
    · cases h
      case head => exact .head _
      case tail h => exact .tail _ <| hi h
    · exact .tail _ <| hi h

theorem put_head {slots : Slots αs} (h : f.decode o d = .ok x) :
    (cons f fs).put o f.key d (none, slots) = some (.ok (some x, slots)) := by
  simp [put, h, Except.map]

-- Members with other keys leave the slot of a field alone.
theorem members_tail {slot : Option α} {slots : Slots αs} {ms : List (String × Value)}
    (h : ∀ m ∈ ms, m.1 ≠ f.key) :
    (cons f fs).members o (slot, slots) (membersDoc ms) =
      (slot, ·) <$> fs.members o slots (membersDoc ms) := by
  induction ms generalizing slots
  case nil => rfl
  case cons m ms hi =>
    have ⟨hm, hms⟩ := List.forall_mem_cons.mp h
    simp only [membersDoc, members, put, if_neg (Ne.symm hm)]
    cases fs.put o m.1 m.2.doc slots
    case none   => cases m.2.doc.skip <;> simp [hi hms]
    case some r => cases r <;> simp [Except.map, hi hms]

theorem row_filled {xs : Row αs} (h : fs.Restores xs) : fs.row (fs.filled xs) = .ok xs := by
  induction fs
  case nil => rfl
  case cons f fs hi =>
    have ⟨x, xs⟩ := xs
    have ⟨hx, hxs⟩ := h
    have given : ((f.encode x).map (fun _ => x) <|> f.absent) = some x := by
      cases he : f.encode x
      case none   => simpa using hx.absent he
      case some v => rfl
    simp only [row, filled, given, hi hxs]
    rfl

theorem members_encode {xs : Row αs} (h : fs.Restores xs) (keys : fs.keys.Nodup)
    (ho : o.Admits (Value.membersDepth (fs.encode xs))) :
    fs.members o fs.slots (membersDoc (fs.encode xs)) = .ok (fs.filled xs) := by
  induction fs
  case nil => rfl
  case cons f fs hi =>
    have ⟨x, xs⟩ := xs
    have ⟨hx, hxs⟩ := h
    have ⟨new, keys⟩ := List.nodup_cons.mp keys
    have others : ∀ m ∈ fs.encode xs, m.1 ≠ f.key := by
      intro m hm he
      exact new <| he ▸ mem_keys_of_encode hm
    cases he : f.encode x
    case none =>
      simp only [encode, he] at ho
      simp only [encode, slots, filled, he, members_tail others, hi hxs keys ho]
      rfl
    case some v =>
      simp only [encode, he, Value.membersDepth] at ho
      have first := hx.given v he o <| ho.mono <| Nat.le_max_left _ _
      have rest := hi hxs keys <| ho.mono <| Nat.le_max_right _ _
      simp only [encode, slots, filled, he, membersDoc, members, put_head first, ok_bind,
        members_tail others, rest]
      rfl

end Fields

-- A record is read back if all its fields are, and these have different keys.
theorem Codec.restores_record {fs : Fields αs} {make : Row αs → ρ} {row : ρ → Row αs}
    (h : fs.Restores (row x)) (keys : fs.keys.Nodup) (hm : make (row x) = x) :
    (record name fs make row).Restores x := by
  intro o ho
  have ⟨o', he, ho⟩ := ho.exists_enter
  have members := Fields.members_encode h keys ho
  simp only [record, Value.doc, he, members, ok_bind, Fields.row_filled h, hm]
  rfl

theorem Codec.record_encode_ne_null {fs : Fields αs} {make : Row αs → ρ} {row : ρ → Row αs}
    (x : ρ) : (record name fs make row).encode x ≠ .null :=
  nofun

end TableProfiling.Json
