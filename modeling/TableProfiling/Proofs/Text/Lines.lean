import Mathlib.Tactic.Common

namespace TableProfiling

-- What stands before, between and after the line feeds of a text.
def textLines (s : String) : List String :=
  (s.split '\n').toList.map String.Slice.copy

theorem textLines_eq : textLines s = (s.toList.splitOn '\n').map .ofList :=
  String.toList_split_char

theorem textLines_intercalate (h : ∀ l ∈ ls, '\n' ∉ l.toList) (hn : ls ≠ []) :
    textLines ("\n".intercalate ls) = ls := by
  simpa [textLines, hn] using String.toList_split_intercalate h

theorem textLines_append (h : '\n' ∉ l.toList) : textLines (l ++ "\n" ++ s) = l :: textLines s := by
  simp [textLines_eq, List.splitOn_append_cons_self_of_not_mem h]

end TableProfiling
