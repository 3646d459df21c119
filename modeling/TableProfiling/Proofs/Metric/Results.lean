import Mathlib.Data.List.Nodup
import TableProfiling.Metric.Results

namespace TableProfiling.Metric.Results

variable {r : Results} {es : List (String × Metric)} {name : String}

-- No name is there twice. All mappings that come of insertions are like that.
def Distinct (r : Results) : Prop :=
  (r.entries.map Prod.fst).Nodup

theorem put_new (h : name ∉ es.map Prod.fst) (m : Metric) : put name m es = es ++ [(name, m)] := by
  induction es
  case nil => rfl
  case cons e es hi =>
    simp only [List.map_cons, List.mem_cons, not_or] at h
    simp only [put, if_neg <| Ne.symm h.left, hi h.right, List.cons_append]

theorem names_put_old (h : name ∈ es.map Prod.fst) (m : Metric) :
    (put name m es).map Prod.fst = es.map Prod.fst := by
  induction es
  case nil => cases h
  case cons e es hi =>
    simp only [put]
    split
    case isTrue same => simp [same]
    case isFalse other =>
      simp only [List.map_cons, List.mem_cons, Ne.symm other, false_or] at h
      rw [List.map_cons, List.map_cons, hi h]

theorem mem_put (h : e ∈ put name m es) : e = (name, m) ∨ e ∈ es := by
  induction es
  case nil => simpa [put] using h
  case cons e' es hi =>
    simp only [put] at h
    split at h <;> grind

theorem distinct_empty : empty.Distinct :=
  .nil

theorem Distinct.insert (h : r.Distinct) (name : String) (m : Metric) :
    (r.insert name m).Distinct := by
  by_cases hn : name ∈ r.entries.map Prod.fst
  case pos => rwa [Distinct, Results.insert, names_put_old hn]
  case neg =>
    rw [Distinct, Results.insert, put_new hn, List.map_append]
    exact h.append (List.nodup_singleton _) <| by simpa using hn

end TableProfiling.Metric.Results
