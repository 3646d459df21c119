import TableProfiling.Proofs.Json.Record

namespace TableProfiling.Json

open Outcome

variable {o : Origin}

namespace Codec

variable {c : Codec α}

-- What is written of a value is restored to it, and is no deeper than what may be entered.
structure Keeps (c : Codec α) (o : Origin) (x : α) : Prop where
  restores : c.Restores x
  admits   : o.Admits (c.encode x).depth

-- Whatever a codec reads, it keeps; and it reads nothing that cannot be kept.
def Stable (c : Codec α) (kept : α → Prop) (o : Origin) : Prop :=
  ∀ d x, c.decode o d = .ok x → kept x ∧ c.Keeps o x

theorem stable_of_restores (h : ∀ x, c.Restores x) (flat : ∀ x, (c.encode x).depth = 0) :
    c.Stable (fun _ => True) o :=
  fun _ x _ => ⟨trivial, h x, flat x ▸ o.admits_zero⟩

theorem stable_bool : bool.Stable (fun _ => True) o :=
  stable_of_restores restores_bool fun _ => rfl

theorem stable_string : string.Stable (fun _ => True) o :=
  stable_of_restores restores_string fun _ => rfl

theorem stable_uint32 : uint32.Stable (fun _ => True) o :=
  stable_of_restores restores_uint32 fun _ => rfl

theorem stable_int64 : int64.Stable (fun _ => True) o :=
  stable_of_restores restores_int64 fun _ => rfl

theorem stable_value : value.Stable Value.Sorted o := by
  intro d v h
  have kept := d.value_kept h
  exact ⟨kept.sorted, restores_value kept.sorted, kept.admits⟩

theorem Stable.mapM (h : c.Stable kept o) (is : Items) {xs : List α}
    (hx : is.mapM (c.decode o) = .ok xs) : ∀ x ∈ xs, kept x ∧ c.Keeps o x := by
  cases is
  case done   => cases hx; nofun
  case broken => cases hx
  case more d rest =>
    simp only [Items.mapM, bind_eq_ok_iff] at hx
    obtain ⟨x, hd, xs, hr, hx⟩ := hx
    cases hx
    exact List.forall_mem_cons.mpr ⟨h d x hd, h.mapM rest hr⟩

theorem keeps_list {xs : List α} (he : o.enter = .ok o') (h : ∀ x ∈ xs, c.Keeps o' x) :
    c.list.Keeps o xs where
  restores := restores_list fun x hx => (h x hx).restores
  admits := by
    apply Origin.admits_succ_iff he |>.mpr
    apply Origin.admits_itemsDepth_iff.mpr
    simpa using fun x hx => (h x hx).admits

theorem stable_list (h : ∀ o', o.enter = .ok o' → c.Stable kept o') :
    c.list.Stable (∀ x ∈ ·, kept x) o := by
  intro d xs hx
  cases d
  case array is =>
    simp only [list, bind_eq_ok_iff] at hx
    have ⟨o', he, hx⟩ := hx
    have items := (h o' he).mapM is hx
    exact ⟨fun x hm => (items x hm).left, keeps_list he fun x hm => (items x hm).right⟩
  all_goals cases hx

end Codec

namespace Field

variable {c : Codec α} {key : String}

structure Keeps (f : Field α) (o : Origin) (x : α) : Prop where
  restores : f.Restores x
  admits   : ∀ v ∈ f.encode x, o.Admits v.depth

-- A field keeps what it reads, and what stands for its absence.
structure Stable (f : Field α) (o : Origin) : Prop where
  read   : ∀ d x, f.decode o d = .ok x → f.Keeps o x
  absent : ∀ x ∈ f.absent, f.Keeps o x

theorem keeps_required (h : c.Keeps o x) : (required key c).Keeps o x where
  restores     := restores_required h.restores
  admits _ hv := Option.mem_some.mp hv ▸ h.admits

theorem keeps_defaulted (h : c.Keeps o x) : (defaulted key c y).Keeps o x where
  restores     := restores_defaulted h.restores
  admits _ hv := Option.mem_some.mp hv ▸ h.admits

theorem keeps_optional {x : Option α} (h : ∀ a ∈ x, c.Keeps o a) (hn : ∀ a, c.encode a ≠ .null) :
    (optional key c).Keeps o x where
  restores := restores_optional (fun a ha => (h a ha).restores) hn
  admits v hv := by
    obtain ⟨a, ha, rfl⟩ := Option.map_eq_some_iff.mp hv
    exact (h a ha).admits

-- What is kept of a field can be kept by itself.
theorem Keeps.of_required (h : (required key c).Keeps o x) (hs : c.Stable kept .value) : kept x :=
  (hs _ x <| h.restores.given _ rfl .value trivial).left

theorem Keeps.of_defaulted (h : (defaulted key c y).Keeps o x) (hs : c.Stable kept .value) :
    kept x :=
  (hs _ x <| h.restores.given _ rfl .value trivial).left

theorem Keeps.of_optional {x : Option α} (h : (optional key c).Keeps o x)
    (hs : c.Stable kept .value) (hn : ∀ a, c.encode a ≠ .null) : ∀ a ∈ x, kept a := by
  intro a ha
  cases ha
  have read : c.option.decode .value (c.encode a).doc = .ok (some a) :=
    h.restores.given _ rfl .value trivial
  rw [Codec.option_decode <| Value.doc_ne_null <| hn a] at read
  have ⟨a', hd, ha⟩ := map_eq_ok_iff.mp read
  cases ha
  exact (hs _ a hd).left

theorem stable_required (h : c.Stable kept o) : (required key c).Stable o where
  read d x hx := keeps_required (h d x hx).right
  absent      := nofun

theorem stable_defaulted (h : c.Stable kept o) (hy : c.Keeps o y) :
    (defaulted key c y).Stable o where
  read d x hx := keeps_defaulted (h d x hx).right
  absent _ hx := keeps_defaulted <| Option.some.inj hx ▸ hy

theorem stable_optional (h : c.Stable kept o) (hn : ∀ a, c.encode a ≠ .null) :
    (optional key c).Stable o where
  absent _ hx := keeps_optional (by cases hx; nofun) hn
  read d _ hx := by
    refine keeps_optional (fun a ha => ?_) hn
    cases ha
    by_cases hd : d = .null
    case pos => subst hd; cases hx
    case neg =>
      have ⟨a', ha, hx⟩ := map_eq_ok_iff.mp <| (Codec.option_decode hd).symm.trans hx
      cases hx
      exact (h d a ha).right

end Field

namespace Fields

def Keeps (o : Origin) : (fs : Fields αs) → Row αs → Prop
  | .nil, () => True
  | .cons f fs, (x, xs) => f.Keeps o x ∧ fs.Keeps o xs

def Stable (o : Origin) : Fields αs → Prop
  | .nil => True
  | .cons f fs => f.Stable o ∧ fs.Stable o

-- The fields that have been read so far are kept.
def Holds (o : Origin) : (fs : Fields αs) → Slots αs → Prop
  | .nil, () => True
  | .cons f fs, (slot, slots) => (∀ x ∈ slot, f.Keeps o x) ∧ fs.Holds o slots

variable {fs : Fields αs}

theorem Keeps.restores {xs : Row αs} (h : fs.Keeps o xs) : fs.Restores xs := by
  induction fs
  case nil          => trivial
  case cons f fs hi => exact ⟨h.left.restores, hi h.right⟩

theorem Keeps.admits {xs : Row αs} (h : fs.Keeps o xs) :
    ∀ m ∈ fs.encode xs, o.Admits m.2.depth := by
  induction fs
  case nil => nofun
  case cons f fs hi =>
    have ⟨x, xs⟩ := xs
    have ⟨hx, hxs⟩ := h
    simp only [encode]
    split
    case h_1 v hv => exact List.forall_mem_cons.mpr ⟨hx.admits v hv, hi hxs⟩
    case h_2      => exact hi hxs

theorem holds_slots : fs.Holds o fs.slots := by
  induction fs
  case nil          => trivial
  case cons f fs hi => exact ⟨nofun, hi⟩

theorem Holds.put {before after : Slots αs} (h : fs.Holds o before) (hs : fs.Stable o)
    (hp : fs.put o key d before = some (.ok after)) : fs.Holds o after := by
  induction fs
  case nil => cases hp
  case cons f fs hi =>
    obtain ⟨slot, slots⟩ := before
    obtain ⟨hslot, hslots⟩ := h
    obtain ⟨hf, hfs⟩ := hs
    simp only [Fields.put] at hp
    split at hp
    case isTrue =>
      cases slot
      case some => cases hp
      case none =>
        obtain ⟨x, hx, ha⟩ := map_eq_ok_iff.mp <| Option.some.inj hp
        cases ha
        exact ⟨fun y hy => hf.read d y <| Option.some.inj hy ▸ hx, hslots⟩
    case isFalse =>
      obtain ⟨r, hr, hp⟩ := Option.map_eq_some_iff.mp hp
      obtain ⟨slots', hs', ha⟩ := map_eq_ok_iff.mp hp
      cases hs'
      cases ha
      exact ⟨hslot, hi hslots hfs hr⟩

theorem Holds.members {before after : Slots αs} (h : fs.Holds o before) (hs : fs.Stable o)
    (ms : Members) (hm : fs.members o before ms = .ok after) : fs.Holds o after := by
  cases ms
  case done   => cases hm; exact h
  case broken => cases hm
  case stray  => cases hm
  case more key d rest =>
    cases key
    case none => cases hm
    case some key =>
      simp only [Fields.members] at hm
      split at hm
      case h_1 r hp =>
        obtain ⟨slots, hr, hm⟩ := bind_eq_ok_iff.mp hm
        exact (h.put hs <| hr ▸ hp).members hs rest hm
      case h_2 =>
        obtain ⟨_, _, hm⟩ := bind_eq_ok_iff.mp hm
        exact h.members hs rest hm

theorem Holds.row {slots : Slots αs} {xs : Row αs} (h : fs.Holds o slots) (hs : fs.Stable o)
    (hr : fs.row slots = .ok xs) : fs.Keeps o xs := by
  induction fs
  case nil => trivial
  case cons f fs hi =>
    obtain ⟨slot, slots⟩ := slots
    obtain ⟨hslot, hslots⟩ := h
    obtain ⟨hf, hfs⟩ := hs
    simp only [Fields.row] at hr
    split at hr
    case h_2 => cases hr
    case h_1 x hx =>
      obtain ⟨xs', hxs, hr⟩ := bind_eq_ok_iff.mp hr
      cases hr
      refine ⟨?_, hi hslots hfs hxs⟩
      cases slot
      case none   => exact hf.absent x hx
      case some y => exact hslot x hx

theorem Stable.items {xs : Row αs} (h : fs.Stable o)
    (hr : fs.items o tooShort i is = .ok (xs, rest)) : fs.Keeps o xs := by
  induction fs generalizing i is
  case nil => trivial
  case cons f fs hi =>
    obtain ⟨hf, hfs⟩ := h
    cases is
    case broken => cases hr
    case done =>
      simp only [Fields.items] at hr
      split at hr
      case h_2 => cases hr
      case h_1 x hx =>
        obtain ⟨_, hxs, hr⟩ := bind_eq_ok_iff.mp hr
        cases hr
        exact ⟨hf.absent x hx, hi hfs hxs⟩
    case more d is =>
      simp only [Fields.items, bind_eq_ok_iff] at hr
      obtain ⟨x, hx, _, hxs, hr⟩ := hr
      cases hr
      exact ⟨hf.read d x hx, hi hfs hxs⟩

end Fields

namespace Codec

variable {c : Codec α}

theorem keeps_record {fs : Fields αs} {make : Row αs → ρ} {row : ρ → Row αs}
    (he : o.enter = .ok o') (h : fs.Keeps o' (row x)) (keys : fs.keys.Nodup)
    (hm : make (row x) = x) : (record name fs make row).Keeps o x where
  restores := restores_record h.restores keys hm
  admits := by
    apply Origin.admits_succ_iff he |>.mpr
    exact Origin.admits_membersDepth_iff.mpr h.admits

theorem stable_record {fs : Fields αs} {make : Row αs → ρ} {row : ρ → Row αs} {kept : ρ → Prop}
    (h : ∀ o', o.enter = .ok o' → fs.Stable o') (hk : ∀ o' xs, fs.Keeps o' xs → kept (make xs))
    (keys : fs.keys.Nodup) (hm : ∀ r, make (row r) = r) (hr : ∀ xs, row (make xs) = xs) :
    (record name fs make row).Stable kept o := by
  have kept {o' xs} (he : o.enter = .ok o') (hx : fs.Keeps o' xs) :
      kept (make xs) ∧ (record name fs make row).Keeps o (make xs) :=
    ⟨hk o' xs hx, keeps_record he ((hr xs).symm ▸ hx) keys (hm _)⟩
  intro d x hx
  cases d
  case object ms =>
    simp only [record, bind_eq_ok_iff] at hx
    have ⟨o', he, slots, hs, xs, hxs, hx⟩ := hx
    cases hx
    exact kept he <| Fields.holds_slots.members (h o' he) ms hs |>.row (h o' he) hxs
  case array is =>
    simp only [record, bind_eq_ok_iff] at hx
    have ⟨o', he, ⟨xs, rest⟩, hi, _, _, hx⟩ := hx
    cases hx
    exact kept he <| (h o' he).items hi
  all_goals cases hx

-- A text may have 127 levels.
theorem Stable.ofText (hs : c.Stable kept (.text 127)) (h : c.ofText s = .ok x) :
    kept x ∧ c.Keeps (.text 127) x :=
  have ⟨d, _, hd⟩ := Codec.ofText_eq_ok_iff.mp h
  hs d x hd

theorem Keeps.ofText_text (h : c.Keeps (.text 127) x) : c.ofText (c.text x) = .ok x :=
  Codec.ofText_text h.restores <| Nat.lt_succ_of_le h.admits

-- The values that can be kept are those that texts are read as, up to the depth that texts may
-- have; and each of them is read back from its own text.
structure Lossless (c : Codec α) (kept : α → Prop) : Prop where
  read    : ∀ s x, c.ofText s = .ok x → kept x ∧ (c.encode x).depth < 128
  written : ∀ x, kept x → (c.encode x).depth < 128 → c.ofText (c.text x) = .ok x
  reread  : ∀ s x, c.ofText s = .ok x → c.ofText (c.text x) = .ok x

theorem Stable.lossless (hs : c.Stable kept (.text 127)) (h : ∀ x, kept x → c.Restores x) :
    c.Lossless kept where
  read _ _ hx :=
    have ⟨kept, keeps⟩ := hs.ofText hx
    ⟨kept, Nat.lt_succ_of_le keeps.admits⟩
  written x hx hd := Codec.ofText_text (h x hx) hd
  reread _ _ hx := (hs.ofText hx).right.ofText_text

end Codec

end TableProfiling.Json
