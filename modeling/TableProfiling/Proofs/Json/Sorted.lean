import TableProfiling.Json.Document
import TableProfiling.Proofs.Outcome

namespace TableProfiling.Json

open Outcome

section

variable {ms : List (String × α)}

-- Members in the order of their keys, none of which is there twice.
def InOrder (ms : List (String × α)) : Prop :=
  ms.Pairwise (·.1 < ·.1)

theorem mem_putSorted (h : m ∈ putSorted k v ms) : m = (k, v) ∨ m ∈ ms := by
  induction ms
  case nil => simpa [putSorted] using h
  case cons m' ms hi =>
    simp only [putSorted] at h
    split at h
    · exact List.mem_cons.mp h
    · split at h <;> grind

theorem InOrder.putSorted (h : InOrder ms) (k : String) (v : α) : InOrder (putSorted k v ms) := by
  induction ms
  case nil => exact List.pairwise_singleton _ _
  case cons m ms hi =>
    have ⟨first, others⟩ := List.pairwise_cons.mp h
    simp only [Json.putSorted]
    split
    case isTrue before =>
      refine List.pairwise_cons.mpr ⟨?_, h⟩
      intro m' hm
      rcases List.mem_cons.mp hm with rfl | hm
      · exact before
      · exact String.lt_trans before <| first m' hm
    case isFalse notBefore =>
      split
      case isTrue same => exact List.pairwise_cons.mpr ⟨same ▸ first, others⟩
      case isFalse other =>
        refine List.pairwise_cons.mpr ⟨?_, hi others⟩
        intro m' hm
        rcases mem_putSorted hm with rfl | hm
        · exact Std.lt_of_le_of_ne (String.not_lt.mp notBefore) (Ne.symm other)
        · exact first m' hm

-- A member whose key comes behind all others is put at the end.
theorem putSorted_last (h : ∀ m ∈ ms, m.1 < k) (v : α) : putSorted k v ms = ms ++ [(k, v)] := by
  induction ms
  case nil => rfl
  case cons m ms hi =>
    have ⟨hm, hms⟩ := List.forall_mem_cons.mp h
    have other : k ≠ m.1 := by
      rintro rfl
      exact String.lt_irrefl _ hm
    rw [putSorted, if_neg <| String.lt_asymm hm, if_neg other, hi hms]
    rfl

end

namespace Value

-- All objects in a value have their members in order.
inductive Sorted : Value → Prop
  | null : Sorted .null
  | bool : Sorted (.bool b)
  | number : Sorted (.number n)
  | string : Sorted (.string s)
  | array (items : ∀ v ∈ vs, Sorted v) : Sorted (.array vs)
  | object {ms : List (String × Value)} (members : ∀ m ∈ ms, Sorted m.2) (order : InOrder ms) :
    Sorted (.object ms)

mutual

-- How many arrays and objects are around the innermost value, with the value itself.
def depth : Value → Nat
  | .null | .bool _ | .number _ | .string _ => 0
  | .array vs => itemsDepth vs + 1
  | .object ms => membersDepth ms + 1

def itemsDepth : List Value → Nat
  | [] => 0
  | v :: vs => max v.depth (itemsDepth vs)

def membersDepth : List (String × Value) → Nat
  | [] => 0
  | (_, v) :: ms => max v.depth (membersDepth ms)

end

theorem depth_le_itemsDepth (h : v ∈ vs) : v.depth ≤ itemsDepth vs := by
  induction h
  case head        => exact Nat.le_max_left _ _
  case tail _ _ hi => exact Nat.le_trans hi <| Nat.le_max_right _ _

theorem depth_le_membersDepth {ms : List (String × Value)} (h : m ∈ ms) :
    m.2.depth ≤ membersDepth ms := by
  induction h
  case head        => exact Nat.le_max_left _ _
  case tail _ _ hi => exact Nat.le_trans hi <| Nat.le_max_right _ _

end Value

-- Whether so many levels may still be entered.
def Origin.Admits : Origin → Nat → Prop
  | .text n, k => k ≤ n
  | .value, _ => True

namespace Origin

variable {o : Origin}

theorem Admits.mono (h : o.Admits n) (hk : k ≤ n) : o.Admits k := by
  cases o
  case text  => exact Nat.le_trans hk h
  case value => trivial

theorem Admits.exists_enter (h : o.Admits (n + 1)) : ∃ o', o.enter = .ok o' ∧ o'.Admits n := by
  cases o
  case value => exact ⟨_, rfl, trivial⟩
  case text k =>
    cases k
    case zero   => cases h
    case succ k => exact ⟨_, rfl, Nat.le_of_succ_le_succ h⟩

theorem admits_zero : o.Admits 0 := by
  cases o
  case text  => exact Nat.zero_le _
  case value => trivial

-- What is inside of an array or object is one level deeper.
theorem admits_succ_iff (h : o.enter = .ok o') : o.Admits (n + 1) ↔ o'.Admits n := by
  cases o
  case value => cases h; rfl
  case text k =>
    cases k
    case zero   => cases h
    case succ k => cases h; exact Nat.succ_le_succ_iff

theorem admits_max_iff : o.Admits (max a b) ↔ o.Admits a ∧ o.Admits b := by
  cases o
  case text  => exact Nat.max_le
  case value => simp [Admits]

theorem admits_itemsDepth_iff {vs : List Value} :
    o.Admits (Value.itemsDepth vs) ↔ ∀ v ∈ vs, o.Admits v.depth := by
  induction vs
  case nil          => simp [Value.itemsDepth, admits_zero]
  case cons v vs hi => simp [Value.itemsDepth, admits_max_iff, hi]

theorem admits_membersDepth_iff {ms : List (String × Value)} :
    o.Admits (Value.membersDepth ms) ↔ ∀ m ∈ ms, o.Admits m.2.depth := by
  induction ms
  case nil          => simp [Value.membersDepth, admits_zero]
  case cons m ms hi => simp [Value.membersDepth, admits_max_iff, hi]

end Origin

-- A value as it is kept, of no more levels than may be entered.
structure Value.Kept (o : Origin) (v : Value) : Prop where
  sorted : v.Sorted
  admits : o.Admits v.depth

mutual

theorem Doc.value_kept (d : Doc) {o : Origin} {v : Value} (h : d.value o = .ok v) : v.Kept o := by
  cases d
  case null       => cases h; exact ⟨.null, o.admits_zero⟩
  case bool       => cases h; exact ⟨.bool, o.admits_zero⟩
  case number     => cases h; exact ⟨.number, o.admits_zero⟩
  case string     => cases h; exact ⟨.string, o.admits_zero⟩
  case unreadable => cases h
  case broken     => cases h
  case array is =>
    simp only [Doc.value, bind_eq_ok_iff] at h
    have ⟨o', he, vs, hvs, hv⟩ := h
    cases hv
    have items := is.values_kept hvs
    refine ⟨.array fun v hv => (items v hv).sorted, ?_⟩
    apply Origin.admits_succ_iff he |>.mpr
    exact Origin.admits_itemsDepth_iff.mpr fun v hv => (items v hv).admits
  case object ms =>
    simp only [Doc.value, bind_eq_ok_iff] at h
    have ⟨o', he, ms', hms, hv⟩ := h
    cases hv
    have ⟨members, order⟩ := ms.values_kept hms (List.forall_mem_nil _) .nil
    refine ⟨.object (fun m hm => (members m hm).sorted) order, ?_⟩
    apply Origin.admits_succ_iff he |>.mpr
    exact Origin.admits_membersDepth_iff.mpr fun m hm => (members m hm).admits

theorem Items.values_kept (is : Items) {o : Origin} {vs : List Value}
    (h : is.values o = .ok vs) : ∀ v ∈ vs, v.Kept o := by
  cases is
  case done => cases h; nofun
  case broken => cases h
  case more d rest =>
    simp only [Items.values, bind_eq_ok_iff] at h
    have ⟨v, hv, vs, hvs, h⟩ := h
    cases h
    exact List.forall_mem_cons.mpr ⟨d.value_kept hv, rest.values_kept hvs⟩

theorem Members.values_kept (ms : Members) {o : Origin} {before after : List (String × Value)}
    (h : ms.values o before = .ok after) (hb : ∀ m ∈ before, m.2.Kept o) (ho : InOrder before) :
    (∀ m ∈ after, m.2.Kept o) ∧ InOrder after := by
  cases ms
  case done => cases h; exact ⟨hb, ho⟩
  case broken => cases h
  case stray => cases h
  case more key d rest =>
    cases key
    case none => cases h
    case some k =>
      simp only [Members.values, bind_eq_ok_iff] at h
      have ⟨v, hv, h⟩ := h
      refine rest.values_kept h ?_ <| ho.putSorted k v
      intro m hm
      rcases mem_putSorted hm with rfl | hm
      · exact d.value_kept hv
      · exact hb m hm

end

variable {o : Origin}

theorem values_itemsDoc {vs : List Value} (h : ∀ v ∈ vs, v.doc.value o = .ok v) :
    (itemsDoc vs).values o = .ok vs := by
  induction vs
  case nil => rfl
  case cons v vs hi =>
    have ⟨hv, hvs⟩ := List.forall_mem_cons.mp h
    simp only [itemsDoc, Items.values, hv, hi hvs, ok_bind]
    rfl

-- The members that have been read come before all others, so that each one is put at their end.
theorem values_membersDoc (before : List (String × Value)) {ms : List (String × Value)}
    (h : ∀ m ∈ ms, m.2.doc.value o = .ok m.2) (ho : InOrder (before ++ ms)) :
    (membersDoc ms).values o before = .ok (before ++ ms) := by
  induction ms generalizing before
  case nil => simp [membersDoc, Members.values]
  case cons m ms hi =>
    have ⟨hm, hms⟩ := List.forall_mem_cons.mp h
    have last : ∀ m' ∈ before, m'.1 < m.1 :=
      fun m' hm' => List.pairwise_append.mp ho |>.right.right m' hm' m (.head _)
    rw [List.append_cons] at ho ⊢
    simp only [membersDoc, Members.values, hm, ok_bind, putSorted_last last]
    exact hi _ hms ho

-- A value is read back from its document, if it is not too deep to be entered.
theorem Value.value_doc {v : Value} (hv : v.Sorted) (ho : o.Admits v.depth) :
    v.doc.value o = .ok v := by
  induction hv generalizing o
  case array vs _ hi =>
    have ⟨o', he, ho⟩ := ho.exists_enter
    have items : (itemsDoc vs).values o' = .ok vs :=
      values_itemsDoc fun v hv => hi v hv <| ho.mono <| depth_le_itemsDepth hv
    simp only [doc, Doc.value, he, items, ok_bind]
    rfl
  case object ms _ order hi =>
    have ⟨o', he, ho⟩ := ho.exists_enter
    have members : (membersDoc ms).values o' [] = .ok ms :=
      values_membersDoc [] (fun m hm => hi m hm <| ho.mono <| depth_le_membersDepth hm) order
    simp only [doc, Doc.value, he, members, ok_bind]
    rfl
  all_goals rfl

end TableProfiling.Json
