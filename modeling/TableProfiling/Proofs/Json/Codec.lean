import TableProfiling.Json.Codec
import TableProfiling.Proofs.Json.Sorted
import TableProfiling.Proofs.Json.Value

namespace TableProfiling.Json

open Outcome

theorem Value.doc_ne_null {v : Value} (h : v ≠ .null) : v.doc ≠ .null := by
  cases v <;> simp_all [doc]

theorem mapM_itemsDoc {f : Doc → Except Fault α} {encode : α → Value} {xs : List α}
    (h : ∀ x ∈ xs, f (encode x).doc = .ok x) :
    (itemsDoc (xs.map encode)).mapM f = .ok xs := by
  induction xs
  case nil => rfl
  case cons x xs hi =>
    have ⟨hx, hxs⟩ := List.forall_mem_cons.mp h
    simp only [List.map_cons, itemsDoc, Items.mapM, hx, hi hxs, ok_bind]
    rfl

namespace Codec

variable {c : Codec α} {x : α}

-- A codec reads back what it writes, wherever this may be entered.
def Restores (c : Codec α) (x : α) : Prop :=
  ∀ o : Origin, o.Admits (c.encode x).depth → c.decode o (c.encode x).doc = .ok x

theorem restores_value (h : v.Sorted) : value.Restores v :=
  fun _ => v.value_doc h

theorem restores_bool (b : Bool) : bool.Restores b :=
  fun _ _ => rfl

theorem restores_string (s : String) : string.Restores s :=
  fun _ _ => rfl

theorem restores_uint32 (n : UInt32) : uint32.Restores n := by
  intro o _
  have fits : (0 : Int) ≤ n.toNat ∧ (n.toNat : Int) < 0x100000000 := by
    have := n.toNat_lt
    omega
  simp [uint32, Value.ofUInt32, Value.doc, fits]

theorem restores_int64 (n : Int64) : int64.Restores n := by
  intro o _
  have fits : n.toInt < 0x8000000000000000 := n.toInt_lt
  simp [int64, Value.ofInt64, Value.doc, fits]

theorem restores_list {xs : List α} (h : ∀ x ∈ xs, c.Restores x) : c.list.Restores xs := by
  intro o ho
  have ⟨o', he, ho⟩ := ho.exists_enter
  have items : (itemsDoc (xs.map c.encode)).mapM (c.decode o') = .ok xs := by
    apply mapM_itemsDoc
    intro x hx
    apply h x hx
    exact ho.mono <| Value.depth_le_itemsDepth <| List.mem_map_of_mem hx
  simp only [list, Value.doc, he, ok_bind, items]

theorem restores_names {ns : Names α} (h : ns.find (ns.name x) = .ok x) :
    (names ns).Restores x :=
  fun _ _ => h

theorem option_decode {d : Doc} (h : d ≠ .null) : c.option.decode o d = some <$> c.decode o d := by
  cases d <;> first | contradiction | rfl

theorem ofText_eq_ok_iff :
    c.ofText s = .ok x ↔ ∃ d, Doc.ofText s = (d, true) ∧ c.decode (.text 127) d = .ok x := by
  obtain ⟨d, clean, hs⟩ : ∃ d clean, Doc.ofText s = (d, clean) := ⟨_, _, rfl⟩
  rw [ofText, hs]
  constructor
  case mp =>
    intro h
    obtain ⟨x', hd, h⟩ := bind_eq_ok_iff.mp h
    cases clean <;> cases h
    exact ⟨d, rfl, hd⟩
  case mpr =>
    rintro ⟨_, ⟨⟩, hd⟩
    exact bind_eq_ok_iff.mpr ⟨x, hd, rfl⟩

theorem ofText_written {t : Term} (h : t.Written s) (c : Codec α) :
    c.ofText s = c.decode (.text 127) t.doc := by
  rw [ofText, Doc.ofText_written h]
  cases hd : c.decode (.text 127) t.doc <;> simp only [hd] <;> rfl

-- A whole text is read back if it is not too deep.
theorem ofText_text (h : c.Restores x) (hd : (c.encode x).depth < 128) :
    c.ofText (c.text x) = .ok x :=
  ofText_eq_ok_iff.mpr ⟨_, Doc.ofText_text _, h (.text 127) <| Nat.le_of_lt_succ hd⟩

end Codec

end TableProfiling.Json
