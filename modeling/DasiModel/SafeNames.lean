import DasiModel.RucioNames
import DasiModel.Library.TrimmedTexts

/-!
# File names are safe and canonical

A safe component is trimmed and made of safe characters, or it is the word for an
empty one; so making it safe again changes nothing. The name of a key consists of
components and separators, in the order of the sorted items.
-/

namespace SafeNames
open Texts RucioNames TrimmedTexts

theorem subUnsafe_of_safe {text : PyStr} (safe : ∀ c ∈ text, isSafe c = true) :
    subUnsafe false text = text := by
  induction text with
  | nil => rfl
  | cons c rest ih =>
    obtain ⟨here, later⟩ := List.forall_mem_cons.mp safe
    rw [subUnsafe, if_pos here, ih later]

theorem not_isWhitespace_of_isSafe {c : CodePoint} (safe : isSafe c = true) :
    isWhitespace c = false := by
  simp only [isSafe, isWhitespace, Bool.or_eq_true, Bool.and_eq_true, decide_eq_true_eq,
    beq_iff_eq, Bool.or_eq_false_iff, Bool.and_eq_false_iff, decide_eq_false_iff_not,
    beq_eq_false_iff_ne] at safe ⊢
  omega

/-- What a component is: not empty, of safe characters, trimmed, and safe already. -/
structure IsComponent (text : PyStr) : Prop where
  nonempty : text ≠ []
  safe : ∀ c ∈ text, isSafe c = true
  trimmed : Trimmed isTrimmed text
  fixed : safeFilenameComponent text = text

theorem isComponent_of_trimmed {text : PyStr} (nonempty : text ≠ [])
    (safe : ∀ c ∈ text, isSafe c = true) (trimmed : Trimmed isTrimmed text) :
    IsComponent text := by
  refine ⟨nonempty, safe, trimmed, ?_⟩
  have unspaced : strip isWhitespace text = text :=
    trim_of_trimmed (trimmed_of_forall (fun c inside => not_isWhitespace_of_isSafe (safe c inside)))
  have trimmed : strip isTrimmed text = text := trim_of_trimmed trimmed
  simp only [safeFilenameComponent, unspaced, if_neg nonempty, subUnsafe_of_safe safe, trimmed]

/-- Every text is made a component. -/
theorem isComponent_safeFilenameComponent (value : PyStr) :
    IsComponent (safeFilenameComponent value) := by
  have safe := fun c (inside : c ∈ safeFilenameComponent value) => isSafe_of_mem_component inside
  have empty : Trimmed isTrimmed (py "empty") := by
    have kept : (py "empty").all (fun c => !isTrimmed c) = true := by decide
    exact trimmed_of_forall (fun c inside => by simpa using List.all_eq_true.mp kept c inside)
  refine isComponent_of_trimmed ?_ safe ?_
  · rw [safeFilenameComponent]
    split
    · decide
    · dsimp only
      split
      · decide
      · assumption
  · rw [safeFilenameComponent]
    split
    · exact empty
    · dsimp only
      split
      · exact empty
      · exact trimmed_trim isTrimmed _

/-- The order of insertion does not matter. -/
theorem sortedItems_of_perm {key key' : KeyDict} (perm : key'.items.Perm key.items) :
    sortedItems key' = sortedItems key := by
  have sorted (entries : List (PyStr × PyStr)) : (entries.insertionSort
      (fun a b => toLex a ≤ toLex b)).Pairwise (fun a b => toLex a ≤ toLex b) :=
    List.pairwise_insertionSort _ _
  have same := (List.perm_insertionSort (fun a b => toLex a ≤ toLex b) key'.items).trans
    (perm.trans (List.perm_insertionSort (fun a b => toLex a ≤ toLex b) key.items).symm)
  refine same.eq_of_pairwise ?_ (sorted _) (sorted _)
  intro a b _ _ below above
  exact toLex.injective (le_antisymm below above)

/-- The file name of a key. -/
structure SafeAndCanonical (key : KeyDict) : Prop where
  safe : ∀ c ∈ filename key, isSafe c = true
  suffix : py ".data" <:+ filename key
  not_dots : filename key ≠ py "." ∧ filename key ≠ py ".."
  no_separator : slash ∉ filename key
  /-- The condition without which archiving raises "Unsafe filename". -/
  inside : staysInside (filename key) = true
  canonical : ∀ key' : KeyDict, key'.items.Perm key.items → filename key' = filename key
  components : ∀ c ∈ components key, IsComponent c.1 ∧ IsComponent c.2

theorem filename_safeAndCanonical (key : KeyDict) : SafeAndCanonical key where
  safe _ inside := isSafe_of_mem_filename inside
  suffix := List.suffix_append _ _
  not_dots := by
    have long : 5 ≤ (filename key).length := by
      rw [filename, List.length_append]
      exact Nat.le_add_left 5 _
    constructor
    · intro same
      rw [same] at long
      exact absurd long (by decide)
    · intro same
      rw [same] at long
      exact absurd long (by decide)
  no_separator inside := absurd (isSafe_of_mem_filename inside) (by decide)
  inside := filename_staysInside key
  canonical key' perm := by
    rw [filename, filename, RucioNames.components, sortedItems_of_perm perm]
    rfl
  components c inside := by
    obtain ⟨item, -, rfl⟩ := List.mem_map.mp inside
    exact ⟨isComponent_safeFilenameComponent _, isComponent_safeFilenameComponent _⟩

end SafeNames
