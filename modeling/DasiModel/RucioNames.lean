import DasiModel.Texts
import DasiModel.Library.SeparatedTexts
import Mathlib.Data.List.Sort
import Mathlib.Data.Prod.Lex
import Mathlib.Order.Fin.Basic

/-!
# File names of the Rucio backend

`Rucio.archive` names a DID after its key: the items in sorted order, each
component made safe, joined with `-` inside an item and `_` between items. Both
separators are also characters of components.
-/

namespace RucioNames
open Texts SeparatedTexts

/-- The characters that `_SAFE_FILENAME_CHARS` does not match. -/
def isSafe (c : CodePoint) : Bool :=
  (0x41 ≤ c.val && c.val ≤ 0x5A) || (0x61 ≤ c.val && c.val ≤ 0x7A) ||
    (0x30 ≤ c.val && c.val ≤ 0x39) || c.val == 0x2E || c.val == 0x5F || c.val == 0x2D

def dot : CodePoint := 0x2E
def dash : CodePoint := 0x2D
def underscore : CodePoint := 0x5F
def slash : CodePoint := 0x2F

/-- `_SAFE_FILENAME_CHARS.sub("-", text)`; the flag tells that the run of unsafe
characters before `text` has been replaced already. -/
def subUnsafe : Bool → PyStr → PyStr
  | _, [] => []
  | replaced, c :: rest =>
    if isSafe c then c :: subUnsafe false rest
    else if replaced then subUnsafe true rest
    else dash :: subUnsafe true rest

/-- The characters of `text.strip(".-_")`. -/
def isTrimmed (c : CodePoint) : Bool := c == dot || c == dash || c == underscore

/-- `Rucio._safe_filename_component`, for a text. -/
def safeFilenameComponent (value : PyStr) : PyStr :=
  let text := strip isWhitespace value
  if text = [] then py "empty"
  else
    let text := strip isTrimmed (subUnsafe false text)
    if text = [] then py "empty" else text

/-- A `dict[str, Any]`, its items in order of insertion. Of a value only its `str()` is
used: the keywords differ, so sorting the items compares no values. -/
structure KeyDict where
  items : List (PyStr × PyStr)
  distinct : (items.map Prod.fst).Nodup

/-- `d[k] = v`. -/
def setEntry (k v : PyStr) : List (PyStr × PyStr) → List (PyStr × PyStr)
  | [] => [(k, v)]
  | item :: rest => if item.1 = k then (k, v) :: rest else item :: setEntry k v rest

/-- `sorted(key.items())`. -/
def sortedItems (key : KeyDict) : List (PyStr × PyStr) :=
  key.items.insertionSort (fun a b => toLex a ≤ toLex b)

/-- The sanitised keyword and value of every item. -/
def components (key : KeyDict) : List (PyStr × PyStr) :=
  (sortedItems key).map (fun item => (safeFilenameComponent item.1, safeFilenameComponent item.2))

/-- `"_".join(f"{..}-{..}" for ..)`. -/
def joined (cs : List (PyStr × PyStr)) : PyStr :=
  [underscore].intercalate (cs.map (fun c => c.1 ++ dash :: c.2))

/-- `filename` in `Rucio.archive`. -/
def filename (key : KeyDict) : PyStr := joined (components key) ++ py ".data"

/-- `(tmpdir_path / path).resolve()`, as the segments below the directory; `none` if
the path leads out of it. -/
def resolveBelow (path : PyStr) : Option (List PyStr) :=
  if path.head? = some slash then none
  else (path.splitOnP (· = slash)).foldlM (fun below segment =>
    if segment = [] ∨ segment = [dot] then some below
    else if segment = [dot, dot] then (if below = [] then none else some below.dropLast)
    else some (below ++ [segment])) []

/-- `local_path.parent == tmpdir_path`. -/
def staysInside (path : PyStr) : Bool :=
  match resolveBelow path with
  | some [_] => true
  | _ => false

example : safeFilenameComponent (py " ../a b//c_ ") = py "a-b-c" := by decide

example : staysInside (py "a/../b") = true ∧ staysInside (py "../b") = false := by decide

theorem setEntry_of_not_mem {k v : PyStr} {entries : List (PyStr × PyStr)}
    (fresh : k ∉ entries.map Prod.fst) : setEntry k v entries = entries ++ [(k, v)] := by
  induction entries with
  | nil => rfl
  | cons entry rest ih =>
    simp only [List.map_cons, List.mem_cons, not_or] at fresh
    rw [setEntry, if_neg (Ne.symm fresh.1), ih fresh.2, List.cons_append]

theorem mem_setEntry {k v : PyStr} {entries : List (PyStr × PyStr)} {entry : PyStr × PyStr}
    (h : entry ∈ setEntry k v entries) : entry = (k, v) ∨ entry ∈ entries := by
  induction entries with
  | nil => exact Or.inl (List.mem_singleton.mp h)
  | cons first rest ih =>
    rw [setEntry] at h
    split at h
    · exact (List.mem_cons.mp h).imp id (List.mem_cons_of_mem first)
    · rcases List.mem_cons.mp h with rfl | later
      · exact Or.inr List.mem_cons_self
      · exact (ih later).imp id (List.mem_cons_of_mem first)

theorem isSafe_of_mem_subUnsafe {replaced : Bool} {text : PyStr} {c : CodePoint}
    (h : c ∈ subUnsafe replaced text) : isSafe c = true := by
  induction text generalizing replaced with
  | nil => cases h
  | cons d rest ih =>
    rw [subUnsafe] at h
    split at h
    · rcases List.mem_cons.mp h with rfl | later
      · assumption
      · exact ih later
    · split at h
      · exact ih h
      · rcases List.mem_cons.mp h with rfl | later
        · rfl
        · exact ih later

theorem mem_of_mem_strip {remove : CodePoint → Bool} {text : PyStr} {c : CodePoint}
    (h : c ∈ strip remove text) : c ∈ text :=
  (List.dropWhile_sublist _).subset ((List.rdropWhile_prefix _ _).subset h)

theorem mem_dropWhile_of_not {remove : CodePoint → Bool} {text : PyStr} {c : CodePoint}
    (inside : c ∈ text) (kept : remove c = false) : c ∈ text.dropWhile remove := by
  rw [← @List.takeWhile_append_dropWhile _ remove text] at inside
  refine (List.mem_append.mp inside).resolve_left ?_
  intro removed
  rw [List.mem_takeWhile_imp removed] at kept
  cases kept

theorem mem_strip_of_not {remove : CodePoint → Bool} {text : PyStr} {c : CodePoint}
    (inside : c ∈ text) (kept : remove c = false) : c ∈ strip remove text := by
  have front := mem_dropWhile_of_not inside kept
  rw [strip, List.rdropWhile, List.mem_reverse]
  exact mem_dropWhile_of_not (List.mem_reverse.mpr front) kept

theorem isSafe_of_mem_component {value : PyStr} {c : CodePoint}
    (h : c ∈ safeFilenameComponent value) : isSafe c = true := by
  have literal := List.all_eq_true.mp (by decide : (py "empty").all isSafe = true)
  simp only [safeFilenameComponent] at h
  split at h
  · exact literal c h
  · split at h
    · exact literal c h
    · exact isSafe_of_mem_subUnsafe (mem_of_mem_strip h)

/-- What follows the first component of a name. -/
def followers (cs : List (PyStr × PyStr)) : List (CodePoint × PyStr) :=
  cs.flatMap (fun c => [(underscore, c.1), (dash, c.2)])

theorem joined_cons (c : PyStr × PyStr) (rest : List (PyStr × PyStr)) :
    joined (c :: rest) = render c.1 ((dash, c.2) :: followers rest) := by
  induction rest generalizing c with
  | nil => simp [joined, followers, render]
  | cons next rest ih =>
    have later := ih next
    simp only [joined, List.map_cons] at later ⊢
    rw [List.intercalate_cons_cons, later]
    simp [followers, render]

theorem isSafe_of_mem_joined {cs : List (PyStr × PyStr)}
    (safe : ∀ b ∈ cs, ∀ c, c ∈ b.1 ∨ c ∈ b.2 → isSafe c = true) {c : CodePoint}
    (h : c ∈ joined cs) : isSafe c = true := by
  cases cs with
  | nil => cases h
  | cons first rest =>
    rw [joined_cons] at h
    obtain ⟨here, later⟩ := List.forall_mem_cons.mp safe
    rcases mem_render h with inside | ⟨b, hb, found⟩
    · exact here c (Or.inl inside)
    · rcases List.mem_cons.mp hb with rfl | hb
      · rcases found with rfl | inside
        · rfl
        · exact here c (Or.inr inside)
      · obtain ⟨item, hitem, hb⟩ := List.mem_flatMap.mp hb
        simp only [List.mem_cons, List.not_mem_nil, or_false] at hb
        rcases hb with rfl | rfl
        · rcases found with rfl | inside
          · rfl
          · exact later item hitem c (Or.inl inside)
        · rcases found with rfl | inside
          · rfl
          · exact later item hitem c (Or.inr inside)

theorem isSafe_of_mem_filename {key : KeyDict} {c : CodePoint} (h : c ∈ filename key) :
    isSafe c = true := by
  have literal := List.all_eq_true.mp (by decide : (py ".data").all isSafe = true)
  rcases List.mem_append.mp h with inside | suffix
  · refine isSafe_of_mem_joined ?_ inside
    intro b hb c hc
    obtain ⟨item, -, rfl⟩ := List.mem_map.mp hb
    rcases hc with hc | hc
    · exact isSafe_of_mem_component hc
    · exact isSafe_of_mem_component hc
  · exact literal c suffix

/-- The `Unsafe filename` guard never fires. -/
theorem filename_staysInside (key : KeyDict) : staysInside (filename key) = true := by
  have noSlash : ∀ c ∈ filename key, (decide (c = slash)) = false := by
    intro c hc
    have safe := isSafe_of_mem_filename hc
    apply decide_eq_false
    rintro rfl
    cases safe
  have long : 5 ≤ (filename key).length := by
    rw [filename, List.length_append]
    exact Nat.le_add_left 5 _
  have relative : (filename key).head? ≠ some slash := by
    intro h
    have first := noSlash slash (List.mem_of_mem_head? h)
    simp at first
  have plain : ∀ text : PyStr, text.length < 5 → filename key ≠ text := by
    rintro text short rfl
    omega
  have resolved : resolveBelow (filename key) = some [filename key] := by
    rw [resolveBelow, if_neg relative, List.splitOnP_eq_singleton noSlash]
    simp [plain [] (by decide), plain [dot] (by decide), plain [dot, dot] (by decide)]
  rw [staysInside, resolved]

/-- Keys whose sanitised components come from two ways of cutting one text. -/
def CutAlike (key key' : KeyDict) : Prop :=
  match components key, components key' with
  | [], [] => True
  | c :: rest, c' :: rest' =>
    LinesUp c.1 ((dash, c.2) :: followers rest) c'.1 ((dash, c'.2) :: followers rest')
  | _, _ => False

theorem joined_cons_ne_nil (c : PyStr × PyStr) (rest : List (PyStr × PyStr)) :
    joined (c :: rest) ≠ [] := by
  rw [joined_cons, render]
  simp

/-- Two keys have the same file name exactly when they are cut alike. -/
theorem filename_eq_iff (key key' : KeyDict) :
    filename key = filename key' ↔ CutAlike key key' := by
  rw [filename, filename, List.append_left_inj, CutAlike]
  split
  · rename_i h h'
    simp [h, h']
  · rename_i c rest c' rest' h h'
    rw [h, h', joined_cons, joined_cons, linesUp_iff_render_eq]
  · rename_i nil cons
    cases h : components key with
    | nil =>
      cases h' : components key' with
      | nil => exact False.elim (nil h h')
      | cons c rest => simpa [joined] using (joined_cons_ne_nil c rest).symm
    | cons c rest =>
      cases h' : components key' with
      | nil => simpa [joined] using joined_cons_ne_nil c rest
      | cons c' rest' => exact False.elim (cons _ _ _ _ h h')

theorem items_eq_nil_of_cutAlike {key key' : KeyDict} (alike : CutAlike key key')
    (empty : key'.items = []) : key.items = [] := by
  have none : components key' = [] := by
    simp [components, sortedItems, empty]
  rw [CutAlike, none] at alike
  cases h : components key with
  | nil =>
    have length : (components key).length = key.items.length := by
      simp [components, sortedItems, List.length_insertionSort]
    rw [h] at length
    exact List.length_eq_zero_iff.mp length.symm
  | cons c rest =>
    rw [h] at alike
    exact False.elim alike

end RucioNames
