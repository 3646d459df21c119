import Mathlib.Data.List.Induction
import TableProfiling.Proofs.Metric.Codecs
import TableProfiling.Proofs.Metric.Kinds

namespace TableProfiling.Metric.Results

open Json Outcome

-- What entries make of a mapping without any, if they are inserted one after the other.
inductive Inserted : List (String × Metric) → Results → Prop
  | empty : Inserted [] .empty
  | insert (h : Inserted es r) (name : String) (m : Metric) :
    Inserted (es ++ [(name, m)]) (r.insert name m)

-- The metrics that the members of an object give, in the order of the text.
def Gives (ms : List (String × Term)) (es : List (String × Metric)) : Prop :=
  List.Forall₂ (fun m e => m.1 = e.1 ∧ Metric.Decoded m.2 (.ok e.2)) ms es

-- A mapping with the names of some entries in the order in which they come up first, each of them
-- with the metric that it comes up with last.
structure Lists (r : Results) (es : List (String × Metric)) : Prop where
  names    : r.entries.map Prod.fst = (es.map Prod.fst).eraseDups
  distinct : r.Distinct
  metrics  : ∀ e ∈ r.entries, es.reverse.lookup e.1 = some e.2
  get      : ∀ name, r.get? name = es.reverse.lookup name
  absent   : ∀ name, r.get? name = none ↔ name ∉ es.map Prod.fst
  size     : r.size = (es.map Prod.fst).eraseDups.length

variable {r : Results} {es : List (String × Metric)} {o : Origin}

theorem lookup_cons_ite (k : String) (m : Metric) (n : String) :
    List.lookup n ((k, m) :: es) = if n = k then some m else es.lookup n := by
  rw [List.lookup_cons]
  split <;> simp_all

theorem lookup_put (name : String) (m : Metric) (n : String) :
    (put name m es).lookup n = if n = name then some m else es.lookup n := by
  induction es
  case nil => exact lookup_cons_ite name m n
  case cons e es hi =>
    simp only [put]
    split
    case isTrue same   => simp only [lookup_cons_ite]; grind
    case isFalse other => simp only [lookup_cons_ite, hi]; grind

theorem lookup_of_mem (h : r.Distinct) (he : e ∈ r.entries) :
    r.entries.lookup e.1 = some e.2 := by
  have ⟨before, after, split⟩ := List.append_of_mem he
  refine List.lookup_eq_some_iff.mpr ⟨before, after, split, fun e' he' => ?_⟩
  rw [Distinct, split, List.map_append, List.nodup_append] at h
  have other := h.right.right _ (List.mem_map_of_mem he') e.1 (.head _)
  exact bne_iff_ne.mpr other.symm

theorem eraseDups_concat (ns : List String) (n : String) :
    (ns ++ [n]).eraseDups = if n ∈ ns then ns.eraseDups else ns.eraseDups ++ [n] := by
  by_cases h : n ∈ ns <;> simp [List.eraseDups_append, List.removeAll, h, List.eraseDups_cons]

-- The names, and what they are looked up with, say all about a mapping.
theorem Lists.of_get (distinct : r.Distinct)
    (names : r.entries.map Prod.fst = (es.map Prod.fst).eraseDups)
    (get : ∀ name, r.get? name = es.reverse.lookup name) : r.Lists es where
  names        := names
  distinct     := distinct
  get          := get
  metrics e he := (get e.1).symm.trans <| lookup_of_mem distinct he
  absent name  := by
    rw [get, List.lookup_eq_none_iff]
    simp only [List.mem_reverse, List.mem_map, bne_iff_ne]
    grind
  size         := by
    rw [←names, List.length_map]
    rfl

theorem lists_empty : empty.Lists [] :=
  .of_get distinct_empty rfl fun _ => rfl

theorem Lists.insert (h : r.Lists es) (name : String) (m : Metric) :
    (r.insert name m).Lists (es ++ [(name, m)]) := by
  refine .of_get (h.distinct.insert name m) ?names fun n => ?get
  case get =>
    rw [Results.get?, Results.insert, lookup_put, List.reverse_append]
    exact (congrArg _ <| h.get n).trans (lookup_cons_ite name m n).symm
  case names =>
    have known : name ∈ r.entries.map Prod.fst ↔ name ∈ es.map Prod.fst := by
      rw [h.names, List.mem_eraseDups]
    rw [List.map_append, List.map_singleton, eraseDups_concat, ←h.names, Results.insert]
    split
    case isTrue old  => exact names_put_old (known.mpr old) m
    case isFalse new => rw [put_new (new <| known.mp ·), List.map_append]; rfl

theorem inserted_ofList (es : List (String × Metric)) : Inserted es (ofList es) := by
  induction es using List.reverseRecOn
  case nil => exact .empty
  case append_singleton es e hi =>
    rw [ofList, List.foldl_append]
    exact hi.insert e.1 e.2

theorem Inserted.eq_ofList (h : Inserted es r) : r = ofList es := by
  induction h
  case empty => rfl
  case insert hi => rw [hi, ofList, ofList, List.foldl_append]; rfl

theorem Inserted.lists (h : Inserted es r) : r.Lists es := by
  induction h
  case empty            => exact lists_empty
  case insert name m hi => exact hi.insert name m

-- There is only one such mapping.
theorem Lists.unique {r' : Results} (h : r.Lists es) (h' : r'.Lists es) : r = r' := by
  have shown {r : Results} (h : r.Lists es) : r.entries.map (fun e => (e.1, some e.2)) =
      (es.map Prod.fst).eraseDups.map fun name => (name, es.reverse.lookup name) := by
    rw [←h.names, List.map_map]
    exact List.map_congr_left fun e he => by simp [h.metrics e he]
  have injective : Function.Injective fun e : String × Metric => (e.1, some e.2) := by
    rintro ⟨_, _⟩ ⟨_, _⟩ ⟨⟩
    rfl
  have entries : r.entries = r'.entries :=
    List.map_injective_iff.mpr injective <| shown h |>.trans (shown h').symm
  cases r
  cases r'
  cases entries
  rfl

theorem insertMembers_eq_ok_iff {ms : List (String × Term)} :
    r.insertMembers (.text n) (Term.membersDoc ms) = .ok r' ↔
      ∃ es, Gives ms es ∧ r' = es.foldl (fun r e => r.insert e.1 e.2) r := by
  induction ms generalizing r
  case nil =>
    constructor
    · rintro ⟨⟩
      exact ⟨[], .nil, rfl⟩
    · rintro ⟨_, ⟨⟩, rfl⟩
      rfl
  case cons m ms hi =>
    simp only [Term.membersDoc, insertMembers, bind_eq_ok_iff, hi, decode_eq_ok_iff]
    constructor
    · rintro ⟨x, hx, es, hes, rfl⟩
      exact ⟨(m.1, x) :: es, .cons ⟨rfl, hx⟩ hes, rfl⟩
    · rintro ⟨_, ⟨⟩ | @⟨_, e, _, es, ⟨he, hx⟩, hes⟩, rfl⟩
      exact ⟨e.2, hx, es, hes, he ▸ rfl⟩

-- Whatever becomes a mapping is the document of a value.
theorem exists_values (ms : Members) {r r' : Results} (h : r.insertMembers o ms = .ok r')
    (before : List (String × Value)) : ∃ vs, ms.values o before = .ok vs := by
  cases ms
  case done   => exact ⟨before, rfl⟩
  case broken => cases h
  case stray  => cases h
  case more key d rest =>
    cases key
    case none => cases h
    case some k =>
      simp only [insertMembers, bind_eq_ok_iff] at h
      obtain ⟨m, hm, h⟩ := h
      obtain ⟨v, hv⟩ := exists_value_of_decode hm
      obtain ⟨vs, hvs⟩ := exists_values rest h (putSorted k v before)
      refine ⟨vs, ?_⟩
      simp only [Members.values, hv, ok_bind, hvs]

theorem ofText_eq_ok_iff :
    codec.ofText s = .ok r ↔
      ∃ ms es, (Term.object ms).Written s ∧ Gives ms es ∧ r = ofList es := by
  have object ms : codec.decode (.text 127) (.object ms) = empty.insertMembers (.text 126) ms := rfl
  rw [Codec.ofText_eq_ok_iff]
  constructor
  case mp =>
    rintro ⟨d, hs, hd⟩
    cases d
    case object ms =>
      rw [object] at hd
      obtain ⟨vs, hvs⟩ := exists_values ms hd []
      have value : (Doc.object ms).value (.text 127) = .ok (.object vs) := by
        simp only [Doc.value, Origin.enter, ok_bind, hvs]
        rfl
      obtain ⟨t, written, ht⟩ := Doc.ofText_eq_iff value |>.mp hs
      cases t
      case object ts =>
        cases ht
        obtain ⟨es, decoded, hr⟩ := insertMembers_eq_ok_iff.mp hd
        exact ⟨ts, es, written, decoded, hr⟩
      case number l =>
        rw [Term.doc, Reader.Literal.doc] at ht
        split at ht <;> cases ht
      all_goals cases ht
    all_goals cases hd
  case mpr =>
    rintro ⟨ms, es, written, decoded, hr⟩
    exact ⟨_, Doc.ofText_written written, insertMembers_eq_ok_iff.mpr ⟨es, decoded, hr⟩⟩

-- What is written of a metric gives the metric, or `null` if the text has nothing else for it.
theorem insertMembers_toValue (r : Results) (es : List (String × Metric)) :
    r.insertMembers o (membersDoc (es.map fun (name, m) => (name, m.toValue))) =
      .ok (es.foldl (fun r e => r.insert e.1 e.2.expressed) r) := by
  induction es generalizing r
  case nil => rfl
  case cons e es hi =>
    have read : Metric.codec.decode o e.2.expressed.toValue.doc = .ok e.2.expressed :=
      restores_codec e.2.expressed_expressed o <| e.2.expressed.depth_toValue ▸ o.admits_zero
    rw [toValue_expressed] at read
    simp only [List.map_cons, membersDoc, insertMembers, read, ok_bind, hi, List.foldl_cons]

-- The text of an object with some members, the names of which need not be distinct.
theorem ofText_text (es : List (String × Metric)) :
    codec.ofText (Value.object (es.map fun (name, m) => (name, m.toValue))).text =
      .ok (ofList (es.map fun (name, m) => (name, m.expressed))) := by
  refine Codec.ofText_eq_ok_iff.mpr ⟨_, Doc.ofText_text _, ?_⟩
  rw [ofList, List.foldl_map]
  exact insertMembers_toValue empty es

-- However a mapping is filled, it has each name once, where the name came up first, with the metric
-- that it came up with last.
theorem insertion_ordered :
    (∀ es r, r.Lists es ↔ r = ofList es) ∧
    (∀ es r, Inserted es r ↔ r = ofList es) ∧
    (∀ s r, codec.ofText s = .ok r ↔
      ∃ ms es, (Term.object ms).Written s ∧ Gives ms es ∧ r = ofList es) ∧
    ∀ es : List (String × Metric),
      codec.ofText (Value.object (es.map fun (name, m) => (name, m.toValue))).text =
        .ok (ofList (es.map fun (name, m) => (name, m.expressed))) := by
  have listed es : (ofList es).Lists es := (inserted_ofList es).lists
  refine ⟨fun es r => ⟨fun h => h.unique (listed es), ?_⟩,
    fun es r => ⟨Inserted.eq_ofList, ?_⟩, fun _ _ => ofText_eq_ok_iff, ofText_text⟩
  · rintro rfl
    exact listed es
  · rintro rfl
    exact inserted_ofList es

example : ofList [("a", .long 1), ("b", .null), ("a", .bool true)] =
    ⟨[("a", .bool true), ("b", .null)]⟩ := by
  decide

end TableProfiling.Metric.Results
