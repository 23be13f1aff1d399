import Mathlib.Data.List.Basic

/-!
# Walking a directory tree

A walk lists the files of a directory before it enters the directories in it.
What it comes to are the files that lie somewhere below the directory, whatever
the depth and whatever the order in which entries are enumerated.
-/

namespace DirectoryTrees

universe u v
variable {N : Type u} {R : Type v} (join : R → N → R)

/-- The entries of a directory, as they are enumerated. -/
inductive Directory (N : Type u) where
  | nil
  | file (name : N) (rest : Directory N)
  | dir (name : N) (content rest : Directory N)

/-- The files of a directory itself. -/
def files : Directory N → List N
  | .nil => []
  | .file name rest => name :: files rest
  | .dir _ _ rest => files rest

/-- The levels below a directory, each with its path. -/
def inner (root : R) : Directory N → List (R × List N)
  | .nil => []
  | .file _ rest => inner root rest
  | .dir name content rest =>
    ((join root name, files content) :: inner (join root name) content) ++ inner root rest

/-- All levels from the top downwards. -/
def walk (root : R) (d : Directory N) : List (R × List N) := (root, files d) :: inner join root d

/-- The files a walk comes to, each with the path of its directory. -/
def listing (root : R) (d : Directory N) : List (R × N) :=
  (walk join root d).flatMap (fun level => level.2.map (Prod.mk level.1))

/-- A file called `name` lies in a directory at the path `parent`, below `root`. -/
inductive Below : R → Directory N → R → N → Prop where
  | here {root : R} {name : N} {rest : Directory N} : Below root (.file name rest) root name
  | after_file {root : R} {other : N} {rest : Directory N} {parent : R} {name : N}
    (later : Below root rest parent name) : Below root (.file other rest) parent name
  | inside {root : R} {other : N} {content rest : Directory N} {parent : R} {name : N}
    (deeper : Below (join root other) content parent name) :
    Below root (.dir other content rest) parent name
  | after_dir {root : R} {other : N} {content rest : Directory N} {parent : R} {name : N}
    (later : Below root rest parent name) : Below root (.dir other content rest) parent name

theorem listing_file (root : R) (name : N) (rest : Directory N) :
    listing join root (.file name rest) = (root, name) :: listing join root rest := rfl

theorem mem_listing_dir (root : R) (name : N) (content rest : Directory N) (f : R × N) :
    f ∈ listing join root (.dir name content rest) ↔
      f ∈ listing join (join root name) content ∨ f ∈ listing join root rest := by
  simp only [listing, walk, files, inner, List.flatMap_cons, List.flatMap_append, List.mem_append,
    List.cons_append]
  constructor
  · rintro (level | top | deeper | later)
    · exact Or.inr (Or.inl level)
    · exact Or.inl (Or.inl top)
    · exact Or.inl (Or.inr deeper)
    · exact Or.inr (Or.inr later)
  · rintro ((top | deeper) | (level | later))
    · exact Or.inr (Or.inl top)
    · exact Or.inr (Or.inr (Or.inl deeper))
    · exact Or.inl level
    · exact Or.inr (Or.inr (Or.inr later))

/-- A walk comes to the files below its top and to no others. -/
theorem mem_listing_iff (root : R) (d : Directory N) (parent : R) (name : N) :
    (parent, name) ∈ listing join root d ↔ Below join root d parent name := by
  induction d generalizing root with
  | nil => exact iff_of_false List.not_mem_nil (fun below => nomatch below)
  | file other rest ih =>
    rw [listing_file, List.mem_cons, ih]
    constructor
    · rintro (same | later)
      · cases same
        exact .here
      · exact .after_file later
    · intro below
      cases below with
      | here => exact Or.inl rfl
      | after_file later => exact Or.inr later
  | dir other content rest ih_content ih =>
    rw [mem_listing_dir, ih_content, ih]
    constructor
    · rintro (deeper | later)
      · exact .inside deeper
      · exact .after_dir later
    · intro below
      cases below with
      | inside deeper => exact Or.inl deeper
      | after_dir later => exact Or.inr later

end DirectoryTrees
