import TableProfiling.Metric.Codecs
import TableProfiling.Proofs.Json.Reread
import TableProfiling.Proofs.Metric.Results
import TableProfiling.Proofs.Number.Nearest

namespace TableProfiling

open Json Outcome

variable {o o' : Origin}

namespace Metric

-- The metric that a text gives in place of another one.
def expressed : Metric → Metric
  | .double x => if x.isFinite then .double x else .null
  | m => m

theorem toValue_expressed (m : Metric) : m.expressed.toValue = m.toValue := by
  cases m
  case double x => by_cases h : x.isFinite <;> simp [expressed, toValue, Value.ofDouble, h]
  all_goals rfl

theorem expressed_expressed (m : Metric) : m.expressed.expressed = m.expressed := by
  cases m
  case double x => by_cases h : x.isFinite <;> simp [expressed, h]
  all_goals rfl

theorem depth_toValue (m : Metric) : m.toValue.depth = 0 := by
  cases m
  case double x => by_cases h : x.isFinite <;> simp [toValue, Value.ofDouble, Value.depth, h]
  all_goals simp [toValue, Value.ofInt64, Value.depth]

theorem restores_codec {m : Metric} (h : m.expressed = m) : codec.Restores m := by
  cases m
  case long n =>
    intro o _
    have fits : n.toInt < 0x8000000000000000 := n.toInt_lt
    simp [codec, toValue, Value.ofInt64, Value.doc, Doc.value, ofValue?, fits]
    rfl
  case double x =>
    intro o _
    have finite : x.isFinite := by
      by_contra hx
      simp [expressed, hx] at h
    simp [codec, toValue, Value.ofDouble, finite, Value.doc, Doc.value, ofValue?]
    rfl
  all_goals exact fun _ _ => rfl

theorem keeps_codec {m : Metric} (h : m.expressed = m) : codec.Keeps o m where
  restores := restores_codec h
  admits   := m.depth_toValue ▸ o.admits_zero

-- No number in a text is too large for a double that is finite.
theorem expressed_of_ofValue? {v : Value} (h : ofValue? v = some m) : m.expressed = m := by
  cases v
  case number n =>
    cases n
    case integer n fits =>
      simp only [ofValue?, Option.some.injEq] at h
      subst h
      split
      · rfl
      · simp [expressed, Binary64.isFinite_ofInt (show n.natAbs < 2 ^ 64 by omega)]
    case double x finite =>
      cases h
      simp [expressed, finite]
  all_goals cases h
  all_goals rfl

theorem stable_codec : codec.Stable (fun m => m.expressed = m) o := by
  intro d m h
  simp only [codec, bind_eq_ok_iff] at h
  obtain ⟨v, _, h⟩ := h
  split at h
  case h_2 => cases h
  case h_1 m' hv =>
    cases h
    have expressed := expressed_of_ofValue? hv
    exact ⟨expressed, keeps_codec expressed⟩

namespace Results

def map (f : Metric → Metric) (r : Results) : Results :=
  ⟨r.entries.map fun e => (e.1, f e.2)⟩

-- A text says all about such a mapping.
structure Lasting (r : Results) : Prop where
  distinct  : r.Distinct
  expressed : ∀ e ∈ r.entries, e.2.expressed = e.2

variable {r : Results}

theorem Distinct.lasting (h : r.Distinct) : (r.map Metric.expressed).Lasting where
  distinct := by simpa [Distinct, map, Function.comp_def] using h
  expressed := by
    simp only [map, List.forall_mem_map]
    exact fun e _ => e.2.expressed_expressed

theorem Lasting.insert (h : r.Lasting) (name : String) (hm : m.expressed = m) :
    (r.insert name m).Lasting where
  distinct := h.distinct.insert name m
  expressed e he := by
    rcases mem_put he with rfl | he
    · exact hm
    · exact h.expressed e he

-- Members are put behind those that have been read before.
theorem insertMembers_entries (before : List (String × Metric)) {es : List (String × Metric)}
    (h : ∀ e ∈ es, e.2.expressed = e.2) (distinct : (before ++ es |>.map Prod.fst).Nodup) :
    insertMembers o ⟨before⟩ (membersDoc (es.map fun (name, m) => (name, m.toValue))) =
      .ok ⟨before ++ es⟩ := by
  induction es generalizing before
  case nil => simp [membersDoc, insertMembers]
  case cons e es hi =>
    obtain ⟨he, hes⟩ := List.forall_mem_cons.mp h
    have new : e.1 ∉ before.map Prod.fst := by
      intro hm
      rw [List.map_append, List.nodup_append] at distinct
      exact distinct.right.right _ hm _ (.head _) rfl
    have read : Metric.codec.decode o e.2.toValue.doc = .ok e.2 :=
      restores_codec he o (e.2.depth_toValue ▸ o.admits_zero)
    rw [List.append_cons] at distinct ⊢
    simp only [List.map_cons, membersDoc, insertMembers, read, ok_bind, insert, put_new new]
    exact hi _ hes distinct

theorem Lasting.insertMembers {r r' : Results} (h : r.Lasting) (ms : Members)
    (hr : r.insertMembers o ms = .ok r') : r'.Lasting := by
  cases ms
  case done   => cases hr; exact h
  case broken => cases hr
  case stray  => cases hr
  case more key d rest =>
    cases key
    case none => cases hr
    case some name =>
      simp only [Results.insertMembers, bind_eq_ok_iff] at hr
      obtain ⟨m, hm, hr⟩ := hr
      obtain ⟨expressed, _⟩ := Metric.stable_codec d m hm
      exact (h.insert name expressed).insertMembers rest hr

theorem Lasting.keeps (h : r.Lasting) (he : o.enter = .ok o') : codec.Keeps o r where
  restores o ho := by
    have ⟨o', he, _⟩ := ho.exists_enter
    simp only [codec, Value.doc, he, ok_bind]
    exact insertMembers_entries [] h.expressed h.distinct
  admits := by
    apply Origin.admits_succ_iff he |>.mpr
    apply Origin.admits_membersDepth_iff.mpr
    simp only [List.forall_mem_map]
    exact fun e _ => e.2.depth_toValue ▸ o'.admits_zero

theorem stable_codec : codec.Stable Distinct o := by
  intro d r h
  cases d
  case object ms =>
    simp only [codec, bind_eq_ok_iff] at h
    obtain ⟨o', he, h⟩ := h
    have lasting := Lasting.insertMembers ⟨distinct_empty, List.forall_mem_nil _⟩ ms h
    exact ⟨lasting.distinct, lasting.keeps he⟩
  all_goals cases h

theorem encode_expressed (r : Results) : codec.encode (r.map Metric.expressed) = codec.encode r := by
  simp [codec, map, toValue_expressed, Function.comp_def]

end Results
end Metric

end TableProfiling
