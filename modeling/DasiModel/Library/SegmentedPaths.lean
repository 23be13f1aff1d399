import Mathlib.Data.List.DropRight

/-!
# Paths made of segments

A path is a text with a separator, and its segments are the non-empty pieces
between separators. Collapsing repeated separators is the same as going to the
segments and back, so two paths that differ only in repeated, leading or
trailing separators are compared through their segments.
-/

namespace SegmentedPaths

universe u
variable {A : Type u}

section Pieces
variable (sep : A)

/-- The path with a separator before each of the pieces. -/
def rooted (pieces : List (List A)) : List A := pieces.flatMap (sep :: ·)

/-- Pieces that are the segments of some path. -/
def AreSegments (pieces : List (List A)) : Prop := ∀ s ∈ pieces, s ≠ [] ∧ sep ∉ s

variable {sep}

theorem rooted_append (pieces pieces' : List (List A)) :
    rooted sep (pieces ++ pieces') = rooted sep pieces ++ rooted sep pieces' :=
  List.flatMap_append

theorem rooted_eq_cons_intercalate {pieces : List (List A)} (some : pieces ≠ []) :
    rooted sep pieces = sep :: [sep].intercalate pieces := by
  induction pieces with
  | nil => exact absurd rfl some
  | cons s rest ih =>
    cases rest with
    | nil => simp [rooted]
    | cons t rest =>
      have later := ih (List.cons_ne_nil t rest)
      rw [List.intercalate_cons_cons]
      simp only [rooted, List.flatMap_cons] at later ⊢
      rw [later]
      simp

theorem mem_intercalate {pieces : List (List A)} {a : A} (inside : a ∈ [sep].intercalate pieces) :
    a = sep ∨ ∃ s ∈ pieces, a ∈ s := by
  cases pieces with
  | nil => cases inside
  | cons t rest =>
    have all : a ∈ rooted sep (t :: rest) := by
      rw [rooted_eq_cons_intercalate (List.cons_ne_nil t rest)]
      exact List.mem_cons_of_mem sep inside
    obtain ⟨s, piece, here⟩ := List.mem_flatMap.mp all
    exact (List.mem_cons.mp here).imp id (fun h => ⟨s, piece, h⟩)

theorem intercalate_ne_nil {pieces : List (List A)} (some : pieces ≠ [])
    (nonempty : ∀ s ∈ pieces, s ≠ []) : [sep].intercalate pieces ≠ [] := by
  cases pieces with
  | nil => exact absurd rfl some
  | cons s rest =>
    have here := nonempty s List.mem_cons_self
    cases rest with
    | nil => simpa only [List.intercalate_singleton] using here
    | cons t rest =>
      rw [List.intercalate_cons_cons, List.append_assoc]
      exact List.append_ne_nil_of_left_ne_nil here _

theorem AreSegments.append {pieces pieces' : List (List A)} (left : AreSegments sep pieces)
    (right : AreSegments sep pieces') : AreSegments sep (pieces ++ pieces') := by
  intro s hs
  rcases List.mem_append.mp hs with hs | hs
  · exact left s hs
  · exact right s hs

end Pieces

variable [DecidableEq A] (sep : A)

/-- Every repeated separator becomes a single one. -/
def collapse : List A → List A
  | [] => []
  | a :: rest => if a = sep ∧ rest.head? = some sep then collapse rest else a :: collapse rest

/-- A separator at either end, added unless it is there. -/
def enclose (p : List A) : List A :=
  let opened := if p.head? = some sep then p else sep :: p
  if opened.getLast? = some sep then opened else opened ++ [sep]

def segments (p : List A) : List (List A) := (p.splitOn sep).filter (· ≠ [])

variable {sep}

theorem rooted_splitOn (p : List A) : rooted sep (p.splitOn sep) = sep :: p := by
  rw [rooted_eq_cons_intercalate (List.splitOn_ne_nil sep p), List.intercalate_splitOn]

theorem not_mem_of_mem_splitOn {p s : List A} (h : s ∈ p.splitOn sep) : sep ∉ s := by
  induction p generalizing s with
  | nil =>
    rw [List.splitOn_nil, List.mem_singleton] at h
    rw [h]
    exact List.not_mem_nil
  | cons a rest ih =>
    rw [List.splitOn_cons_eq_if_modifyHead] at h
    split at h
    · rcases List.mem_cons.mp h with rfl | h
      · exact List.not_mem_nil
      · exact ih h
    · rename_i other
      have hne := List.splitOn_ne_nil sep rest
      cases pieces : rest.splitOn sep with
      | nil => exact absurd pieces hne
      | cons t later =>
        rw [pieces] at h ih
        rcases List.mem_cons.mp h with rfl | h
        · intro inside
          rcases List.mem_cons.mp inside with rfl | inside
          · exact other (beq_self_eq_true sep)
          · exact ih List.mem_cons_self inside
        · exact ih (List.mem_cons_of_mem t h)

theorem areSegments_segments (p : List A) : AreSegments sep (segments sep p) := by
  intro s hs
  obtain ⟨own, nonempty⟩ := List.mem_filter.mp hs
  exact ⟨of_decide_eq_true nonempty, not_mem_of_mem_splitOn own⟩

/-- A path is cut into the segments that it was made of. -/
theorem splitOn_intercalate {pieces : List (List A)} (own : AreSegments sep pieces)
    (some : pieces ≠ []) : ([sep].intercalate pieces).splitOn sep = pieces :=
  List.splitOn_intercalate sep (fun s hs => (own s hs).2) some

theorem intercalate_injective {pieces pieces' : List (List A)} (own : AreSegments sep pieces)
    (some : pieces ≠ []) (own' : AreSegments sep pieces') (some' : pieces' ≠ [])
    (same : [sep].intercalate pieces = [sep].intercalate pieces') : pieces = pieces' := by
  rw [← splitOn_intercalate own some, same, splitOn_intercalate own' some']

/-- No character is made up by cutting. -/
theorem mem_of_mem_segments {p s : List A} {a : A} (piece : s ∈ segments sep p) (inside : a ∈ s) :
    a ∈ p := by
  have all : a ∈ rooted sep (p.splitOn sep) :=
    List.mem_flatMap.mpr ⟨s, (List.mem_filter.mp piece).1, List.mem_cons_of_mem sep inside⟩
  rw [rooted_splitOn] at all
  rcases List.mem_cons.mp all with rfl | here
  · exact absurd inside (areSegments_segments p s piece).2
  · exact here

/-- Segments are what joining them is cut into. -/
theorem segments_intercalate {pieces : List (List A)} (own : AreSegments sep pieces) :
    segments sep ([sep].intercalate pieces) = pieces := by
  by_cases none : pieces = []
  · rw [none]
    rfl
  · rw [segments, splitOn_intercalate own none]
    exact List.filter_eq_self.mpr (fun s hs => decide_eq_true (own s hs).1)

theorem segments_single {s : List A} (some : s ≠ []) (free : sep ∉ s) : segments sep s = [s] := by
  have own : AreSegments sep [s] := fun t ht => by
    rw [List.mem_singleton.mp ht]
    exact ⟨some, free⟩
  simpa only [List.intercalate_singleton] using segments_intercalate own

theorem segments_append_sep (p q : List A) :
    segments sep (p ++ sep :: q) = segments sep p ++ segments sep q := by
  rw [segments, List.splitOn_append_cons_self, List.filter_append]
  rfl

theorem segments_dropWhile (p : List A) :
    segments sep (p.dropWhile (· == sep)) = segments sep p := by
  induction p with
  | nil => rfl
  | cons a rest ih =>
    rw [List.dropWhile_cons]
    split
    · rename_i same
      rw [ih, eq_of_beq same]
      exact (segments_append_sep [] rest).symm
    · rfl

theorem segments_rdropWhile (p : List A) :
    segments sep (p.rdropWhile (· == sep)) = segments sep p := by
  induction p using List.reverseRecOn with
  | nil => rfl
  | append_singleton p a ih =>
    by_cases same : a = sep
    · subst same
      rw [List.rdropWhile_concat_pos (· == a) _ _ (beq_self_eq_true a), ih, segments_append_sep]
      exact (List.append_nil _).symm
    · rw [List.rdropWhile_concat_neg _ _ _ (by simpa using same)]

theorem mem_rooted_segments {p : List A} {a : A} (inside : a ∈ p) (other : a ≠ sep) :
    a ∈ rooted sep (segments sep p) := by
  have all : a ∈ rooted sep (p.splitOn sep) := by
    rw [rooted_splitOn]
    exact List.mem_cons_of_mem sep inside
  obtain ⟨s, hs, ha⟩ := List.mem_flatMap.mp all
  have here := (List.mem_cons.mp ha).resolve_left other
  refine List.mem_flatMap.mpr ⟨s, List.mem_filter.mpr ⟨hs, ?_⟩, ha⟩
  exact decide_eq_true (List.ne_nil_of_mem here)

theorem segments_eq_nil_iff (p : List A) : segments sep p = [] ↔ ∀ a ∈ p, a = sep := by
  constructor
  · intro none a inside
    by_contra other
    have here := mem_rooted_segments inside other
    rw [none] at here
    cases here
  · intro all
    induction p with
    | nil => rfl
    | cons a rest ih =>
      obtain ⟨rfl, later⟩ := List.forall_mem_cons.mp all
      rw [← ih later]
      exact segments_append_sep [] rest

/-- Induction on the pieces of a path. -/
theorem piece_induction (sep : A) {motive : List A → Prop} (single : ∀ s, sep ∉ s → motive s)
    (step : ∀ s p, sep ∉ s → motive p → motive (s ++ sep :: p)) (p : List A) : motive p := by
  by_cases inside : sep ∈ p
  · obtain ⟨s, rest, rfl, free⟩ := List.eq_append_cons_of_mem inside
    exact step s rest free (piece_induction sep single step rest)
  · exact single p inside
termination_by p.length
decreasing_by
  subst p
  simp only [List.length_append, List.length_cons]
  omega

/-- The first segment of a path that does not start with a separator. -/
theorem segments_free_append {p : List A} (free : sep ∉ p) (q : List A)
    (some : p ++ q.takeWhile (· ≠ sep) ≠ []) :
    ∃ rest, segments sep (p ++ q) = (p ++ q.takeWhile (· ≠ sep)) :: rest := by
  have free' : sep ∉ p ++ q.takeWhile (· ≠ sep) := by
    rw [List.mem_append]
    rintro (inside | inside)
    · exact free inside
    · simpa using List.mem_takeWhile_imp inside
  have whole := List.takeWhile_append_dropWhile (p := (· ≠ sep)) (l := q)
  cases left : q.dropWhile (· ≠ sep) with
  | nil =>
    rw [left, List.append_nil] at whole
    rw [whole] at some free' ⊢
    exact ⟨[], segments_single some free'⟩
  | cons a r =>
    have same : a = sep := by
      have head := List.head?_dropWhile_not (· ≠ sep) q
      rw [left] at head
      simpa using head
    subst same
    refine ⟨segments a r, ?_⟩
    rw [left] at whole
    conv_lhs => rw [← whole, ← List.append_assoc]
    rw [segments_append_sep, segments_single some free', List.singleton_append]

/-- A segment of a path is one of every longer path, unless it grows. -/
theorem mem_segments_append {p s : List A} (piece : s ∈ segments sep p) (q : List A) :
    ∃ more, s ++ more ∈ segments sep (p ++ q) := by
  induction p using piece_induction sep with
  | single p free =>
    have some : p ≠ [] := by
      rintro rfl
      cases piece
    rw [segments_single some free, List.mem_singleton] at piece
    subst piece
    have some' := List.append_ne_nil_of_left_ne_nil some (q.takeWhile (· ≠ sep))
    obtain ⟨rest, segs⟩ := segments_free_append free q some'
    rw [segs]
    exact ⟨_, List.mem_cons_self⟩
  | step first p free ih =>
    rw [segments_append_sep, List.mem_append] at piece
    rw [List.append_assoc, List.cons_append, segments_append_sep]
    rcases piece with piece | piece
    · refine ⟨[], ?_⟩
      rw [List.append_nil]
      exact List.mem_append_left _ piece
    · obtain ⟨more, grown⟩ := ih piece
      exact ⟨more, List.mem_append_right _ grown⟩

/-- A segment that another one follows does not grow. -/
theorem segments_head_append {p s t : List A} {rest : List (List A)}
    (pieces : segments sep p = s :: t :: rest) (q : List A) :
    ∃ rest', segments sep (p ++ q) = s :: rest' := by
  induction p using piece_induction sep with
  | single p free =>
    by_cases none : p = []
    · subst none
      cases pieces
    · rw [segments_single none free] at pieces
      cases pieces
  | step first p free ih =>
    rw [segments_append_sep] at pieces
    rw [List.append_assoc, List.cons_append, segments_append_sep]
    by_cases none : first = []
    · subst none
      exact ih pieces
    · rw [segments_single none free] at pieces ⊢
      obtain ⟨rfl, -⟩ := List.cons.inj pieces
      exact ⟨_, rfl⟩

/-- A character that does not separate is in one of the segments. -/
theorem exists_mem_segments {p : List A} {a : A} (inside : a ∈ p) (other : a ≠ sep) :
    ∃ s ∈ segments sep p, a ∈ s := by
  obtain ⟨s, piece, here⟩ := List.mem_flatMap.mp (mem_rooted_segments inside other)
  exact ⟨s, piece, (List.mem_cons.mp here).resolve_left other⟩

section Collapse

theorem mem_of_mem_collapse {p : List A} {a : A} (h : a ∈ collapse sep p) : a ∈ p := by
  induction p with
  | nil => cases h
  | cons b rest ih =>
    rw [collapse] at h
    split at h
    · exact List.mem_cons_of_mem b (ih h)
    · rcases List.mem_cons.mp h with rfl | later
      · exact List.mem_cons_self
      · exact List.mem_cons_of_mem b (ih later)

theorem collapse_piece_append {s : List A} (free : sep ∉ s) (rest : List A) :
    collapse sep (s ++ rest) = s ++ collapse sep rest := by
  induction s with
  | nil => rfl
  | cons a s ih =>
    rw [List.mem_cons, not_or] at free
    rw [List.cons_append, collapse, if_neg (fun h => free.1 h.1.symm), ih free.2,
      List.cons_append]

/-- Collapsing deletes the empty pieces in front of a further separator. -/
theorem collapse_rooted_append {pieces : List (List A)} (free : ∀ s ∈ pieces, sep ∉ s)
    {tail : List A} (further : tail.head? = some sep) :
    collapse sep (rooted sep pieces ++ tail) =
      rooted sep (pieces.filter (· ≠ [])) ++ collapse sep tail := by
  induction pieces with
  | nil => rfl
  | cons s rest ih =>
    obtain ⟨here, later⟩ := List.forall_mem_cons.mp free
    have open_ : rooted sep (s :: rest) ++ tail = sep :: (s ++ (rooted sep rest ++ tail)) := by
      simp [rooted]
    have head : (rooted sep rest ++ tail).head? = some sep := by
      cases rest with
      | nil => exact further
      | cons t rest => simp [rooted]
    rw [open_]
    cases s with
    | nil =>
      rw [List.nil_append, collapse, if_pos ⟨rfl, head⟩, ih later]
      simp
    | cons a s =>
      have apart : a ≠ sep := fun same => here (same ▸ List.mem_cons_self)
      rw [collapse, if_neg (by simpa using apart), collapse_piece_append here, ih later]
      simp [rooted]

theorem collapse_rooted {pieces : List (List A)} (own : AreSegments sep pieces) :
    collapse sep (rooted sep pieces) = rooted sep pieces := by
  induction pieces with
  | nil => rfl
  | cons s rest ih =>
    obtain ⟨⟨some, free⟩, later⟩ := List.forall_mem_cons.mp own
    have open_ : rooted sep (s :: rest) = sep :: (s ++ rooted sep rest) := by
      simp [rooted]
    cases s with
    | nil => exact absurd rfl some
    | cons a s =>
      have apart : a ≠ sep := fun same => free (same ▸ List.mem_cons_self)
      rw [open_, collapse, if_neg (by simpa using apart), collapse_piece_append free, ih later]

/-- Any text in front of segments collapses to segments. -/
theorem collapse_before {pieces : List (List A)} (own : AreSegments sep pieces)
    (some : pieces ≠ []) (p : List A) : collapse sep (sep :: (p ++ rooted sep pieces)) =
      rooted sep (segments sep p ++ pieces) := by
  have further : (rooted sep pieces).head? = .some sep := by
    rw [rooted_eq_cons_intercalate some, List.head?_cons]
  have split : sep :: (p ++ rooted sep pieces) =
      rooted sep (p.splitOn sep) ++ rooted sep pieces := by
    rw [rooted_splitOn, List.cons_append]
  rw [split, collapse_rooted_append (fun s hs => not_mem_of_mem_splitOn hs) further,
    collapse_rooted own, rooted_append]
  rfl

theorem head?_collapse (p : List A) : (collapse sep p).head? = p.head? := by
  induction p with
  | nil => rfl
  | cons a rest ih =>
    rw [collapse]
    split
    · rename_i repeated
      rw [ih, repeated.2, List.head?_cons, repeated.1]
    · rfl

theorem collapse_concat (p : List A) : collapse sep (p ++ [sep]) =
    if p.getLast? = some sep then collapse sep p else collapse sep p ++ [sep] := by
  induction p with
  | nil => simp [collapse]
  | cons a rest ih =>
    cases rest with
    | nil =>
      by_cases same : a = sep
      · simp [collapse, same]
      · simp [collapse, same]
    | cons b rest =>
      have open_ (tail : List A) : collapse sep (a :: b :: tail) =
          if a = sep ∧ b = sep then collapse sep (b :: tail)
          else a :: collapse sep (b :: tail) := by
        simp only [collapse, List.head?_cons, Option.some.injEq]
      have last : (a :: b :: rest).getLast? = (b :: rest).getLast? := List.getLast?_cons_cons
      rw [List.cons_append, List.cons_append, open_, open_, ← List.cons_append, ih, last]
      by_cases ends : (b :: rest).getLast? = some sep
      · rw [if_pos ends, if_pos ends]
      · rw [if_neg ends, if_neg ends]
        split
        · rfl
        · rfl

theorem getLast?_collapse (p : List A) : (collapse sep p).getLast? = p.getLast? := by
  induction p with
  | nil => rfl
  | cons a rest ih =>
    rw [collapse]
    split
    · rename_i repeated
      cases rest with
      | nil => cases repeated.2
      | cons b rest => rw [ih, List.getLast?_cons_cons]
    · rw [List.getLast?_cons, List.getLast?_cons, ih]

/-- The collapsed path with separators at both ends. -/
theorem enclose_collapse (p : List A) :
    enclose sep (collapse sep p) = rooted sep (segments sep p) ++ [sep] := by
  have opened : (if (collapse sep p).head? = some sep then collapse sep p
      else sep :: collapse sep p) = collapse sep (sep :: p) := by
    rw [head?_collapse, collapse]
    simp
  have closed : enclose sep (collapse sep p) = collapse sep ((sep :: p) ++ [sep]) := by
    rw [enclose, opened, getLast?_collapse, collapse_concat]
  rw [closed, ← rooted_splitOn,
    collapse_rooted_append (fun s hs => not_mem_of_mem_splitOn hs) rfl, segments]
  simp [collapse]

end Collapse

end SegmentedPaths
