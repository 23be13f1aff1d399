import DasiModel.Texts
import DasiModel.Library.DirectoryTrees
import Mathlib.Data.List.Infix

/-!
# Paths of files

A walk through a directory gives file names, and joining them to the path of
their directory gives the paths that are tested and opened afterwards.
-/

namespace Paths
open Texts DirectoryTrees

def separator : CodePoint := 0x2F

/-- The name of a file or a directory, as it is listed. -/
abbrev FileName := { name : PyStr // name ≠ [] ∧ separator ∉ name }

/-- `os.path.join`. -/
def join (path name : PyStr) : PyStr :=
  if name.head? = some separator then name
  else if path = [] ∨ path.getLast? = some separator then path ++ name
  else path ++ separator :: name

/-- The files that `os.walk(dir)` comes to, each with the path of its directory. -/
def walked (dir : PyStr) (d : Directory FileName) : List (PyStr × FileName) :=
  listing (fun path name => join path name.1) dir d

def fullPath (file : PyStr × FileName) : PyStr := join file.1 file.2.1

/-- A joined path ends with the name, behind a separator or nothing. -/
theorem join_eq (path : PyStr) (name : FileName) : ∃ front : PyStr,
    join path name.1 = front ++ name.1 ∧ (front = [] ∨ front.getLast? = some separator) := by
  have relative : name.1.head? ≠ some separator :=
    fun first => name.2.2 (List.mem_of_mem_head? first)
  rw [join, if_neg relative]
  split
  · rename_i ended
    exact ⟨path, rfl, ended⟩
  · exact ⟨path ++ [separator], by simp, Or.inr (by simp)⟩

theorem name_infix_join (path : PyStr) (name : FileName) : name.1 <:+: join path name.1 := by
  obtain ⟨front, same, -⟩ := join_eq path name
  rw [same]
  exact (List.suffix_append front name.1).isInfix

/-- What follows a separator in a name is nothing. -/
theorem eq_nil_of_ends {front rest name : PyStr} (free : separator ∉ name)
    (ended : front ++ rest = [] ∨ (front ++ rest).getLast? = some separator)
    (inside : ∀ c ∈ rest, c ∈ name) : rest = [] := by
  by_contra some
  rcases ended with empty | last
  · exact some (List.append_eq_nil_iff.mp empty).2
  · rw [List.getLast?_append_of_ne_nil _ some] at last
    exact free (inside _ (List.mem_of_mem_getLast? last))

/-- The path of a file tells its name. -/
theorem name_of_join_eq {path path' : PyStr} {name name' : FileName}
    (same : join path name.1 = join path' name'.1) : name = name' := by
  obtain ⟨front, whole, ended⟩ := join_eq path name
  obtain ⟨front', whole', ended'⟩ := join_eq path' name'
  rw [whole, whole'] at same
  rcases List.append_eq_append_iff.mp same with ⟨rest, rfl, names⟩ | ⟨rest, rfl, names⟩
  · have none := eq_nil_of_ends name.2.2 ended'
      (fun c (hc : c ∈ rest) => names ▸ List.mem_append_left _ hc)
    subst none
    exact Subtype.ext names
  · have none := eq_nil_of_ends name'.2.2 ended
      (fun c (hc : c ∈ rest) => names ▸ List.mem_append_left _ hc)
    subst none
    exact Subtype.ext names.symm

end Paths
