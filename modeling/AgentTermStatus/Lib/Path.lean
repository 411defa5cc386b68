import Mathlib.Data.List.Basic

namespace AgentTermStatus.Lib

/-!
# Paths

Paths as texts, with `/` between their parts: a name is joined to a path, and taken off again.
-/

/-- `Path::join` with a relative path. -/
def joinPath (base name : List Char) : List Char :=
  if base = [] ∨ base.getLast? = some '/' then base ++ name else base ++ '/' :: name

/-- `Path::parent` of a path with a name at its end. -/
def parentPath (path : List Char) : Option (List Char) :=
  if '/' ∈ path then some ((path.reverse.dropWhile (· ≠ '/')).tail.reverse)
  else if path = [] then none else some []

/-- What comes before the last separator, whatever name comes after it. -/
theorem parentPath_append {base name : List Char} (hname : '/' ∉ name) :
    parentPath (base ++ '/' :: name) = some base := by
  have hdrop : (name.reverse ++ ['/'] ++ base.reverse).dropWhile (· ≠ '/') =
      '/' :: base.reverse := by
    rw [List.append_assoc, List.dropWhile_append_of_pos]
    · rfl
    · intro c hc
      have hne : c ≠ '/' := fun heq => hname (heq ▸ List.mem_reverse.mp hc)
      simpa using hne
  rw [parentPath, if_pos (by simp)]
  simp only [List.reverse_append, List.reverse_cons, hdrop, List.tail_cons, List.reverse_reverse]

/-- Names joined to the same path have the same parent. -/
theorem parentPath_joinPath_congr (base : List Char) {name name' : List Char}
    (hname : '/' ∉ name) (hname' : '/' ∉ name') (hne : name ≠ []) (hne' : name' ≠ []) :
    parentPath (joinPath base name) = parentPath (joinPath base name') := by
  unfold joinPath
  split
  · next hbase =>
    rcases hbase with rfl | hlast
    · simp [parentPath, hname, hname', hne, hne']
    · obtain ⟨base, rfl⟩ := List.getLast?_eq_some_iff.mp hlast
      simp only [List.append_assoc, List.singleton_append, parentPath_append hname,
        parentPath_append hname']
  · rw [parentPath_append hname, parentPath_append hname']

end AgentTermStatus.Lib
