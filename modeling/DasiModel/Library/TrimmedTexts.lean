import Mathlib.Data.List.DropRight

/-!
# Trimming a text at both ends

The letters of a kind are removed from the front and from the back. What is left
neither begins nor ends with one, and such a text is left alone.
-/

namespace TrimmedTexts

universe u
variable {A : Type u} {remove : A → Bool} {l : List A}

/-- Letters are removed from the front first. -/
def trim (remove : A → Bool) (l : List A) : List A := (l.dropWhile remove).rdropWhile remove

/-- Neither the first nor the last letter is one to remove. -/
def Trimmed (remove : A → Bool) (l : List A) : Prop :=
  (∀ a ∈ l.head?, remove a = false) ∧ ∀ a ∈ l.getLast?, remove a = false

theorem trimmed_of_forall (kept : ∀ a ∈ l, remove a = false) : Trimmed remove l :=
  ⟨fun a first => kept a (List.mem_of_mem_head? first),
    fun a last => kept a (List.mem_of_mem_getLast? last)⟩

theorem trim_of_trimmed (trimmed : Trimmed remove l) : trim remove l = l := by
  cases l with
  | nil => rfl
  | cons a rest =>
    have front : ¬ remove a = true := by
      simpa using trimmed.1 a rfl
    rw [trim, List.dropWhile_cons_of_neg front, List.rdropWhile_eq_self_iff]
    intro some
    simpa using trimmed.2 _ (List.getLast?_eq_getLast_of_ne_nil some)

theorem trimmed_trim (remove : A → Bool) (l : List A) : Trimmed remove (trim remove l) := by
  constructor
  · intro a first
    obtain ⟨rest, same⟩ := List.rdropWhile_prefix remove (l.dropWhile remove)
    have front := List.head?_dropWhile_not remove l
    rw [← same] at front
    cases cut : (l.dropWhile remove).rdropWhile remove with
    | nil =>
      rw [trim, cut] at first
      cases first
    | cons b tail =>
      rw [trim, cut] at first
      rw [cut] at front
      cases first
      simpa using front
  · intro a last
    have some : trim remove l ≠ [] := List.ne_nil_of_mem (List.mem_of_mem_getLast? last)
    have back := List.rdropWhile_last_not remove (l.dropWhile remove) some
    rw [List.getLast?_eq_getLast_of_ne_nil some] at last
    cases last
    exact Bool.eq_false_iff.mpr back

end TrimmedTexts
