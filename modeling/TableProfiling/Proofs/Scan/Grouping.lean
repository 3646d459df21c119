import Mathlib.Data.List.Induction
import TableProfiling.Proofs.Scan.Options

namespace TableProfiling.Scan.Options

variable {a b c o m l : Options}

theorem merge_again (a b : Options) : (a.merge b).merge b = a.merge b := by
  cases hb : b.values
  case none   => simp [merge_of_no_values hb, ←Option.or_assoc]
  case some _ => simp [merge_of_values hb, ←Option.or_assoc]

def withoutInterval (o : Options) : Options :=
  { o with unit := none, interval := none, rangeStart := none, rangeEnd := none }

theorem eq_withoutInterval_iff : o = o.withoutInterval ↔ o.hasInterval = false := by
  cases o
  simp [withoutInterval, hasInterval, and_assoc]

theorem hasInterval_merge_of_values (hb : b.values ≠ none) : (a.merge b).hasInterval = false := by
  have ⟨_, hvs⟩ := Option.ne_none_iff_exists'.mp hb
  rw [merge_of_values hvs]
  rfl

theorem hasInterval_merge_of_no_values (hb : b.values = none) :
    (a.merge b).hasInterval = (b.hasInterval || a.hasInterval) := by
  simp [merge_of_no_values hb, hasInterval]
  grind

-- The overlay on top hides all that could be lost.
theorem merge_merge_of_values (hc : c.values ≠ none) :
    (a.merge b).merge c = a.merge (b.merge c) := by
  have ⟨vs, hvs⟩ := Option.ne_none_iff_exists'.mp hc
  have combined : (b.merge c).values = some vs := by rw [merge_values, hvs]; rfl
  rw [merge_of_values combined, merge_of_values hvs, merge_of_values hvs]
  cases hb : b.values
  case none   => simp [merge_of_no_values hb, Option.or_assoc]
  case some _ => simp [merge_of_values hb, Option.or_assoc]

-- There are no values below which anything could be lost.
theorem merge_merge_of_no_values (hb : b.values = none) (hc : c.values = none) :
    (a.merge b).merge c = a.merge (b.merge c) := by
  have combined : (b.merge c).values = none := by rw [merge_values, hc, hb]; rfl
  rw [merge_of_no_values combined, merge_of_no_values hc, merge_of_no_values hc,
    merge_of_no_values hb]
  simp [Option.or_assoc]

theorem merge_merge_over_values (hb : b.values ≠ none) (hc : c.values = none) :
    a.merge (b.merge c) = ((a.merge b).merge c).withoutInterval := by
  have ⟨vs, hvs⟩ := Option.ne_none_iff_exists'.mp hb
  have combined : (b.merge c).values = some vs := by rw [merge_values, hc, hvs]; rfl
  rw [merge_of_values combined, merge_of_no_values hc, merge_of_no_values hc, merge_of_values hvs]
  simp [withoutInterval, Option.or_assoc]

theorem merge_assoc_iff :
    (a.merge b).merge c = a.merge (b.merge c) ↔
      ¬(b.values ≠ none ∧ c.values = none ∧ c.hasInterval = true) := by
  by_cases hc : c.values = none
  case neg => simp [hc, merge_merge_of_values hc]
  case pos =>
    by_cases hb : b.values = none
    case pos => simp [hb, merge_merge_of_no_values hb hc]
    case neg =>
      rw [merge_merge_over_values hb hc, eq_withoutInterval_iff, hasInterval_merge_of_no_values hc,
        hasInterval_merge_of_values hb, Bool.or_false]
      simp [hb, hc]

-- It does not matter how overlays are grouped, but for one case: an interval that is set over
-- values stands beside them, while values that already come with an interval push it aside.
theorem merge_overlays (a b c : Options) :
    a.merge {} = a ∧ (a.merge b).merge b = a.merge b ∧
    ((a.merge b).merge c = a.merge (b.merge c) ↔
      ¬(b.values ≠ none ∧ c.values = none ∧ c.hasInterval = true)) :=
  ⟨merge_empty, merge_again a b, merge_assoc_iff⟩

theorem exclusive_iff : o.Exclusive ↔ (o.values ≠ none → o.hasInterval = false) := by
  rw [Exclusive, hasInterval_eq_false_iff]

-- What overlays come to over a base (`l`), beside what they come to by themselves (`m`).
inductive Combined (a m l : Options) : Prop
  | same (unvalued : m.values = none) (merged : l = a.merge m)
  | lossy (valued : m.values ≠ none) (merged : a.merge m = l.withoutInterval)
      (interval : l.hasInterval = m.hasInterval)

theorem Combined.single (h : o.Exclusive) : Combined a o (a.merge o) := by
  by_cases hv : o.values = none
  case pos => exact .same hv rfl
  case neg =>
    have kept := hasInterval_merge_of_values (a := a) hv
    exact .lossy hv (eq_withoutInterval_iff.mpr kept) <| kept.trans (exclusive_iff.mp h hv).symm

theorem Combined.merge_eq (h : Combined a m l) (hc : c.values ≠ none) :
    a.merge (m.merge c) = l.merge c := by
  have ⟨_, hvs⟩ := Option.ne_none_iff_exists'.mp hc
  rw [←merge_merge_of_values hc]
  cases h
  case same h    => rw [h]
  case lossy h _ => rw [h, merge_of_values hvs, merge_of_values hvs, withoutInterval]

theorem Combined.merge (h : Combined a m l) (c : Options) : Combined a (m.merge c) (l.merge c) := by
  by_cases hc : c.values = none
  case neg =>
    have kept : (l.merge c).hasInterval = false := hasInterval_merge_of_values hc
    refine .lossy (by simp [merge_values, hc]) ?_ ?_
    · rw [h.merge_eq hc, ←eq_withoutInterval_iff.mpr kept]
    · rw [kept, hasInterval_merge_of_values hc]
  case pos =>
    cases h
    case same hm h =>
      exact .same (by simp [merge_values, hc, hm]) <| h ▸ merge_merge_of_no_values hm hc
    case lossy hm h hi =>
      refine .lossy (by simp [merge_values, hc, hm]) ?_ ?_
      · rw [merge_merge_over_values hm hc, h]
        simp [withoutInterval, merge_of_no_values hc]
      · rw [hasInterval_merge_of_no_values hc, hasInterval_merge_of_no_values hc, hi]

-- Overlays may be combined before it is known over what, unless the combination contradicts itself.
theorem foldl_merge_combined_iff (h : o.Exclusive) (overlays : List Options) :
    overlays.foldl merge (a.merge o) = a.merge (overlays.foldl merge o) ↔
      (overlays.foldl merge o).Exclusive := by
  have combined : Combined a (overlays.foldl merge o) (overlays.foldl merge (a.merge o)) := by
    induction overlays using List.reverseRecOn
    case nil => exact .single h
    case append_singleton overlays c hi =>
      rw [List.foldl_append, List.foldl_append]
      exact hi.merge c
  cases combined
  case same hv h        => simp [Exclusive, hv, h]
  case lossy hv h hi =>
    rw [h, eq_withoutInterval_iff, exclusive_iff, hi]
    simp [hv]

end TableProfiling.Scan.Options
