import DasiModel.Paths
import DasiModel.Library.SegmentedPaths

/-!
# Finding the library

`FindLib` walks the search paths one after the other and takes the first file
whose full path contains the name of the library. The directories of a path count
as much as the file's own name.
-/

namespace FindLib
open Texts DirectoryTrees Paths

def colon : CodePoint := 0x3A

structure FileSystem where
  /-- What a walk from a path comes to, if it is a directory that can be listed. -/
  directory : PyStr → Option (Directory FileName)
  /-- `os.path.exists`. -/
  pathExists : PyStr → Bool
  empty_path : pathExists [] = false

structure Host where
  /-- `platform.system()`. -/
  platform : PyStr
  getenv : PyStr → Option PyStr
  files : FileSystem

inductive FindException where
  | notImplemented (text : PyStr)
  | fileNotFound (path : PyStr)
  deriving DecidableEq

/-- `needle in text`. -/
def contains (text needle : PyStr) : Bool := text.tails.any (fun rest => needle.isPrefixOf rest)

/-- `paths` in `FindLib.__init__`. -/
def searchPaths (host : Host) (dir : PyStr) : List PyStr :=
  [join (join dir (py "libs")) host.platform] ++
    [py "DASI_DIR", py "dasi_DIR", py "LD_LIBRARY_PATH"].flatMap (fun env_var =>
      match host.getenv env_var with
      | none => []
      | some env_path => if env_path = [] then [] else env_path.splitOn colon) ++
    [py "/usr/local/lib64", py "/usr/local/lib"]

/-- `os.walk(dir)`: the path and the files of every directory. -/
def osWalk (files : FileSystem) (dir : PyStr) : List (PyStr × List FileName) :=
  match files.directory dir with
  | none => []
  | some d => walk (fun path name => join path name.1) dir d

def listFiles (files : FileSystem) (dirs : List PyStr) : List PyStr :=
  dirs.flatMap (fun dir => (osWalk files dir).flatMap (fun level =>
    level.2.map (fun file => join level.1 file.1)))

def scanPaths (files : FileSystem) (needle : PyStr) (paths : List PyStr) : PyStr :=
  ((listFiles files paths).find? (fun file => contains file needle)).getD []

/-- `FindLib(name, dir).path`. -/
def findLib (host : Host) (name dir : PyStr) : Except FindException PyStr :=
  if host.platform = py "Windows" then
    .error (.notImplemented (py "Windows OS is not supported!"))
  else
    let path := scanPaths host.files (py "lib" ++ name) (searchPaths host dir)
    if host.files.pathExists path then .ok path else .error (.fileNotFound path)

theorem contains_iff (text needle : PyStr) : contains text needle = true ↔ needle <:+: text := by
  simp only [contains, List.any_eq_true, List.mem_tails, List.isPrefixOf_iff_prefix]
  rw [List.infix_iff_prefix_suffix]
  constructor
  · rintro ⟨rest, back, front⟩
    exact ⟨rest, front, back⟩
  · rintro ⟨rest, front, back⟩
    exact ⟨rest, back, front⟩

section Search
variable {files : FileSystem} {paths : List PyStr} {needle : PyStr}

/-- A file with this name lies in the directory `parent`, somewhere below a search path. -/
def LiesBelow (files : FileSystem) (top parent : PyStr) (name : FileName) : Prop :=
  ∃ d, files.directory top = some d ∧
    Below (fun path (name : FileName) => join path name.1) top d parent name

/-- The files below a search path, in the order of its walk. -/
def filesBelow (files : FileSystem) (top : PyStr) : List (PyStr × FileName) :=
  (osWalk files top).flatMap (fun level => level.2.map (Prod.mk level.1))

theorem mem_filesBelow {top parent : PyStr} {name : FileName} :
    (parent, name) ∈ filesBelow files top ↔ LiesBelow files top parent name := by
  rw [filesBelow, osWalk, LiesBelow]
  cases files.directory top with
  | none => exact iff_of_false List.not_mem_nil (fun ⟨d, found, _⟩ => nomatch found)
  | some d =>
    refine (mem_listing_iff _ top d parent name).trans ?_
    exact ⟨fun below => ⟨d, rfl, below⟩, fun ⟨d', same, below⟩ => Option.some.inj same ▸ below⟩

theorem listFiles_eq : listFiles files paths =
    (paths.flatMap (filesBelow files)).map fullPath := by
  simp only [listFiles, filesBelow, List.map_flatMap, List.map_map]
  rfl

/-- An existing file below a search path that has the library's name in its own. -/
def IsLibrary (files : FileSystem) (needle top parent : PyStr) (name : FileName) : Prop :=
  LiesBelow files top parent name ∧ files.pathExists (join parent name.1) = true ∧
    needle <:+: name.1

/-- The library found is one by its own name, from the earliest search path with any. -/
structure FindsByName (files : FileSystem) (paths : List PyStr) (needle : PyStr)
    (result : Except FindException PyStr) : Prop where
  raises_iff : (∃ path, result = .error (.fileNotFound path)) ↔
    ∀ top ∈ paths, ∀ parent name, ¬ IsLibrary files needle top parent name
  finds : (¬ ∃ path, result = .error (.fileNotFound path)) →
    ∃ before top after, paths = before ++ top :: after ∧
      (∃ parent name, IsLibrary files needle top parent name ∧ result = .ok (join parent name.1)) ∧
      ∀ earlier ∈ before, ∀ parent name, ¬ IsLibrary files needle earlier parent name

/-- The files below the search paths, in the order in which they are enumerated. -/
def enumerated (files : FileSystem) (paths : List PyStr) : List (PyStr × FileName) :=
  paths.flatMap (filesBelow files)

/-- A file that exists and has the library's name in its own. -/
def Named (files : FileSystem) (needle : PyStr) (file : PyStr × FileName) : Prop :=
  files.pathExists (fullPath file) = true ∧ needle <:+: file.2.1

/-- Whatever else has the library's name in its path comes behind a library. If there is
none, files with the name in their directories come behind a dangling link with it. -/
structure LibrariesComeFirst (files : FileSystem) (paths : List PyStr) (needle : PyStr) :
    Prop where
  behindLibrary : (∃ file ∈ enumerated files paths, Named files needle file) →
    ∀ before file after, enumerated files paths = before ++ file :: after →
      needle <:+: fullPath file → ¬ Named files needle file →
      ∃ library ∈ before, Named files needle library
  behindLink : (∀ file ∈ enumerated files paths, ¬ Named files needle file) →
    ∀ before file after, enumerated files paths = before ++ file :: after →
      needle <:+: fullPath file → files.pathExists (fullPath file) = true →
      ∃ link ∈ before, needle <:+: fullPath link ∧ files.pathExists (fullPath link) = false

/-- The first file with the library's name in its path is a library, or else it is a
dangling link and there is no library at all. -/
def FirstMatchIsLibrary (files : FileSystem) (paths : List PyStr) (needle : PyStr) : Prop :=
  ∀ before file after, paths.flatMap (filesBelow files) = before ++ file :: after →
    (∀ earlier ∈ before, ¬ needle <:+: fullPath earlier) → needle <:+: fullPath file →
    files.pathExists (fullPath file) = true ∧ needle <:+: file.2.1 ∨
    files.pathExists (fullPath file) = false ∧
      ∀ top ∈ paths, ∀ parent name, ¬ IsLibrary files needle top parent name

/-- The first file with the library's name in its path. -/
def firstMatch (files : FileSystem) (paths : List PyStr) (needle : PyStr) :
    Option (PyStr × FileName) :=
  (paths.flatMap (filesBelow files)).find? (fun file => contains (fullPath file) needle)

theorem firstMatch_eq_some_iff (file : PyStr × FileName) :
    firstMatch files paths needle = some file ↔ needle <:+: fullPath file ∧
      ∃ before after, paths.flatMap (filesBelow files) = before ++ file :: after ∧
        ∀ earlier ∈ before, ¬ needle <:+: fullPath earlier := by
  simp only [firstMatch, List.find?_eq_some_iff_append, contains_iff, Bool.not_eq_true',
    Bool.eq_false_iff, ne_eq]

theorem firstMatch_eq_none_iff : firstMatch files paths needle = none ↔
    ∀ top ∈ paths, ∀ file ∈ filesBelow files top, ¬ needle <:+: fullPath file := by
  simp only [firstMatch, List.find?_flatMap_eq_none_iff, Bool.not_eq_true', Bool.eq_false_iff,
    ne_eq, contains_iff]

/-- The first match lies below a search path, and no path before has a match. -/
theorem firstMatch_below {file : PyStr × FileName}
    (found : firstMatch files paths needle = some file) :
    ∃ before top after, paths = before ++ top :: after ∧ LiesBelow files top file.1 file.2 ∧
      ∀ earlier ∈ before, ∀ other ∈ filesBelow files earlier, ¬ needle <:+: fullPath other := by
  rw [firstMatch, List.find?_flatMap, List.findSome?_eq_some_iff] at found
  obtain ⟨before, top, after, whole, here, earlier⟩ := found
  refine ⟨before, top, after, whole, mem_filesBelow.mp (List.mem_of_find?_eq_some here), ?_⟩
  intro other inside file below match_
  exact List.find?_eq_none.mp (earlier other inside) file below ((contains_iff _ _).mpr match_)

/-- The scan, and the existence test after it. -/
def lookUp (files : FileSystem) (needle : PyStr) (paths : List PyStr) :
    Except FindException PyStr :=
  let path := scanPaths files needle paths
  if files.pathExists path then .ok path else .error (.fileNotFound path)

theorem lookUp_eq : lookUp files needle paths =
    match firstMatch files paths needle with
    | none => .error (.fileNotFound [])
    | some file =>
      if files.pathExists (fullPath file) then .ok (fullPath file)
      else .error (.fileNotFound (fullPath file)) := by
  have scan : scanPaths files needle paths =
      ((firstMatch files paths needle).map fullPath).getD [] := by
    rw [scanPaths, listFiles_eq, List.find?_map]
    rfl
  cases found : firstMatch files paths needle with
  | none =>
    have path : scanPaths files needle paths = [] := by
      rw [scan, found]
      rfl
    simp only [lookUp, path, files.empty_path, Bool.false_eq_true, if_false]
  | some file =>
    have path : scanPaths files needle paths = fullPath file := by
      rw [scan, found]
      rfl
    simp only [lookUp, path]

/-- A library has its name in its path as well. -/
theorem not_isLibrary {top : PyStr}
    (none : ∀ file ∈ filesBelow files top, ¬ needle <:+: fullPath file) (parent : PyStr)
    (name : FileName) : ¬ IsLibrary files needle top parent name := by
  rintro ⟨below, -, named⟩
  exact none (parent, name) (mem_filesBelow.mpr below) (named.trans (name_infix_join parent name))

/-- A search without a match raises, and rightly so. -/
theorem findsByName_of_unmatched (found : firstMatch files paths needle = none) :
    FindsByName files paths needle (lookUp files needle paths) ∧
      FirstMatchIsLibrary files paths needle := by
  have result : ∃ path, lookUp files needle paths = .error (.fileNotFound path) := by
    rw [lookUp_eq, found]
    exact ⟨[], rfl⟩
  have unmatched := firstMatch_eq_none_iff.mp found
  have none : ∀ top ∈ paths, ∀ parent name, ¬ IsLibrary files needle top parent name :=
    fun top inside => not_isLibrary (unmatched top inside)
  refine ⟨⟨iff_of_true result none, fun no => absurd result no⟩, ?_⟩
  intro before file after whole earlier match_
  have first := (firstMatch_eq_some_iff file).mpr ⟨match_, before, after, whole, earlier⟩
  rw [found] at first
  cases first

/-- The condition on the first match, if there is one. -/
theorem firstMatchIsLibrary_of_found {file : PyStr × FileName}
    (found : firstMatch files paths needle = some file) :
    FirstMatchIsLibrary files paths needle ↔
      files.pathExists (fullPath file) = true ∧ needle <:+: file.2.1 ∨
      files.pathExists (fullPath file) = false ∧
        ∀ top ∈ paths, ∀ parent name, ¬ IsLibrary files needle top parent name := by
  obtain ⟨match_, before, after, whole, earlier⟩ := (firstMatch_eq_some_iff file).mp found
  constructor
  · intro all
    exact all before file after whole earlier match_
  · intro here before' file' after' whole' earlier' match'
    have first := (firstMatch_eq_some_iff file').mpr ⟨match', before', after', whole', earlier'⟩
    obtain rfl : file = file' := Option.some.inj (found.symm.trans first)
    exact here

/-- A file that is returned is right exactly if it has the name in its own. -/
theorem findsByName_of_present {file : PyStr × FileName}
    (found : firstMatch files paths needle = some file)
    (present : files.pathExists (fullPath file) = true) :
    FindsByName files paths needle (.ok (fullPath file)) ↔ needle <:+: file.2.1 := by
  have returned : ¬ ∃ path, (Except.ok (fullPath file) : Except FindException PyStr) =
      .error (.fileNotFound path) := fun ⟨_, same⟩ => nomatch same
  constructor
  · intro finds
    obtain ⟨-, top, -, -, ⟨parent, name, isLibrary, same⟩, -⟩ := finds.finds returned
    have own : file.2 = name := name_of_join_eq (Except.ok.inj same)
    rw [own]
    exact isLibrary.2.2
  · intro named
    obtain ⟨before, top, after, split, below, unmatched⟩ := firstMatch_below found
    have library : IsLibrary files needle top file.1 file.2 := ⟨below, present, named⟩
    refine ⟨iff_of_false returned (fun none => ?_), fun _ => ?_⟩
    · have inside : top ∈ paths := by
        rw [split]
        exact List.mem_append_right _ List.mem_cons_self
      exact none top inside _ _ library
    · exact ⟨before, top, after, split, ⟨file.1, file.2, library, rfl⟩,
        fun earlier inside => not_isLibrary (unmatched earlier inside)⟩

theorem lookUp_findsByName_iff :
    FindsByName files paths needle (lookUp files needle paths) ↔
      FirstMatchIsLibrary files paths needle := by
  cases found : firstMatch files paths needle with
  | none =>
    obtain ⟨finds, first⟩ := findsByName_of_unmatched found
    exact iff_of_true finds first
  | some file =>
    rw [firstMatchIsLibrary_of_found found]
    cases present : files.pathExists (fullPath file) with
    | false =>
      have result : lookUp files needle paths = .error (.fileNotFound (fullPath file)) := by
        simp only [lookUp_eq, found, present, Bool.false_eq_true, if_false]
      have raised : ∃ path, (Except.error (.fileNotFound (fullPath file)) :
          Except FindException PyStr) = .error (.fileNotFound path) := ⟨fullPath file, rfl⟩
      rw [result]
      simp only [Bool.false_eq_true, false_and, false_or, true_and]
      constructor
      · intro finds
        exact finds.raises_iff.mp raised
      · intro none
        exact ⟨iff_of_true raised none, fun no => absurd raised no⟩
    | true =>
      have result : lookUp files needle paths = .ok (fullPath file) := by
        simp only [lookUp_eq, found, present, if_true]
      rw [result, findsByName_of_present found present]
      simp only [true_and, Bool.true_eq_false, false_and, or_false]

theorem isLibrary_iff (file : PyStr × FileName) :
    (∃ top ∈ paths, IsLibrary files needle top file.1 file.2) ↔
      file ∈ enumerated files paths ∧ Named files needle file := by
  rw [enumerated, List.mem_flatMap]
  constructor
  · rintro ⟨top, inside, below, present, named⟩
    exact ⟨⟨top, inside, mem_filesBelow.mpr below⟩, present, named⟩
  · rintro ⟨⟨top, inside, below⟩, present, named⟩
    exact ⟨top, inside, mem_filesBelow.mp below, present, named⟩

theorem Named.matches {file : PyStr × FileName} (named : Named files needle file) :
    needle <:+: fullPath file := named.2.trans (name_infix_join file.1 file.2)

/-- What matches is the first match or comes behind it. -/
theorem behind_first {before after before' after' : List (PyStr × FileName)}
    {first file : PyStr × FileName}
    (split : enumerated files paths = before ++ first :: after)
    (unmatched : ∀ earlier ∈ before, ¬ needle <:+: fullPath earlier)
    (split' : enumerated files paths = before' ++ file :: after')
    (match_ : needle <:+: fullPath file) (other : file ≠ first) : first ∈ before' := by
  rw [split] at split'
  rcases List.append_eq_append_iff.mp split' with ⟨rest, rfl, same⟩ | ⟨rest, rfl, same⟩
  · cases rest with
    | nil =>
      rw [List.nil_append, List.cons.injEq] at same
      exact absurd same.1.symm other
    | cons head rest =>
      rw [List.cons_append, List.cons.injEq] at same
      rw [same.1]
      exact List.mem_append_right _ List.mem_cons_self
  · cases rest with
    | nil =>
      rw [List.nil_append, List.cons.injEq] at same
      exact absurd same.1 other
    | cons head rest =>
      rw [List.cons_append, List.cons.injEq] at same
      refine absurd match_ (unmatched file ?_)
      rw [same.1]
      exact List.mem_append_right _ List.mem_cons_self

theorem noLibrary_iff :
    (∀ top ∈ paths, ∀ parent name, ¬ IsLibrary files needle top parent name) ↔
      ∀ file ∈ enumerated files paths, ¬ Named files needle file := by
  constructor
  · intro none file inside named
    obtain ⟨top, below, library⟩ := (isLibrary_iff file).mpr ⟨inside, named⟩
    exact none top below _ _ library
  · intro none top inside parent name library
    obtain ⟨below, named⟩ := (isLibrary_iff (parent, name)).mp ⟨top, inside, library⟩
    exact none _ below named

/-- Where nothing has the name in its path, nothing gets in the way. -/
theorem comeFirst_of_unmatched
    (unmatched : ∀ file ∈ enumerated files paths, ¬ needle <:+: fullPath file) :
    LibrariesComeFirst files paths needle := by
  have missed : ∀ before file after, enumerated files paths = before ++ file :: after →
      ¬ needle <:+: fullPath file := by
    intro before file after split
    apply unmatched
    rw [split]
    exact List.mem_append_right _ List.mem_cons_self
  constructor
  · intro _ before file after split match_
    exact absurd match_ (missed before file after split)
  · intro _ before file after split match_
    exact absurd match_ (missed before file after split)

/-- If the first match is as it should be, it is what the others come behind. -/
theorem comeFirst_of_first {before after : List (PyStr × FileName)} {head : PyStr × FileName}
    (split : enumerated files paths = before ++ head :: after)
    (unmatched : ∀ earlier ∈ before, ¬ needle <:+: fullPath earlier)
    (match_ : needle <:+: fullPath head)
    (first : Named files needle head ∨ files.pathExists (fullPath head) = false ∧
      ∀ file ∈ enumerated files paths, ¬ Named files needle file) :
    LibrariesComeFirst files paths needle := by
  rcases first with named | ⟨absent, none⟩
  · constructor
    · intro _ before' file after' split' match' misleads
      have other : file ≠ head := fun same => misleads (same ▸ named)
      exact ⟨head, behind_first split unmatched split' match' other, named⟩
    · intro none
      refine absurd named (none head ?_)
      rw [split]
      exact List.mem_append_right _ List.mem_cons_self
  · constructor
    · rintro ⟨file, inside, named⟩
      exact absurd named (none file inside)
    · intro _ before' file after' split' match' present
      have other : file ≠ head := by
        rintro rfl
        rw [absent] at present
        cases present
      exact ⟨head, behind_first split unmatched split' match' other, match_, absent⟩

theorem firstMatchIsLibrary_iff :
    FirstMatchIsLibrary files paths needle ↔ LibrariesComeFirst files paths needle := by
  constructor
  · intro first
    cases found : firstMatch files paths needle with
    | none =>
      apply comeFirst_of_unmatched
      intro file inside
      obtain ⟨top, below, own⟩ := List.mem_flatMap.mp inside
      exact firstMatch_eq_none_iff.mp found top below file own
    | some head =>
      obtain ⟨match_, before, after, split, unmatched⟩ := (firstMatch_eq_some_iff head).mp found
      have own := first before head after split unmatched match_
      rw [noLibrary_iff] at own
      exact comeFirst_of_first split unmatched match_ own
  · intro libraries before file after split unmatched match_
    by_cases some : ∃ file ∈ enumerated files paths, Named files needle file
    · refine Or.inl ?_
      by_contra misleads
      obtain ⟨library, earlier, named⟩ :=
        libraries.behindLibrary some before file after split match_ misleads
      exact unmatched library earlier named.matches
    · push Not at some
      refine Or.inr ⟨?_, noLibrary_iff.mpr some⟩
      by_contra present
      rw [Bool.not_eq_false] at present
      obtain ⟨link, earlier, matched, -⟩ :=
        libraries.behindLink some before file after split match_ present
      exact unmatched link earlier matched

end Search

section Order

/-- A text made of parts with colons between them. -/
def ColonSeparated (text : PyStr) (parts : List PyStr) : Prop :=
  parts ≠ [] ∧ (∀ part ∈ parts, colon ∉ part) ∧ text = [colon].intercalate parts

/-- The directories that an environment variable names. -/
inductive Names (host : Host) (env_var : PyStr) : List PyStr → Prop where
  | unset (unset : host.getenv env_var = none) : Names host env_var []
  | empty (empty : host.getenv env_var = some []) : Names host env_var []
  | list {text : PyStr} {tops : List PyStr} (set : host.getenv env_var = some text)
    (nonempty : text ≠ []) (separated : ColonSeparated text tops) : Names host env_var tops

/-- The package directory, the directories of `DASI_DIR`, of `dasi_DIR` and of
`LD_LIBRARY_PATH`, and then the two standard ones. -/
def SearchOrder (host : Host) (dir : PyStr) (paths : List PyStr) : Prop :=
  ∃ dasi lower libraries, Names host (py "DASI_DIR") dasi ∧ Names host (py "dasi_DIR") lower ∧
    Names host (py "LD_LIBRARY_PATH") libraries ∧
    paths = join (join dir (py "libs")) host.platform :: (dasi ++ (lower ++ (libraries ++
      [py "/usr/local/lib64", py "/usr/local/lib"])))

theorem splitOn_of_separated {text : PyStr} {parts : List PyStr}
    (separated : ColonSeparated text parts) : text.splitOn colon = parts := by
  obtain ⟨some, free, rfl⟩ := separated
  exact List.splitOn_intercalate colon free some

theorem names_eq {host : Host} {env_var : PyStr} {tops : List PyStr}
    (names : Names host env_var tops) : (match host.getenv env_var with
      | none => []
      | some env_path => if env_path = [] then [] else env_path.splitOn colon) = tops := by
  cases names with
  | unset unset => rw [unset]
  | empty empty =>
    rw [empty]
    rfl
  | list set nonempty separated =>
    rw [set]
    exact (if_neg nonempty).trans (splitOn_of_separated separated)

/-- The search follows the order. -/
theorem searchPaths_eq {host : Host} {dir : PyStr} {paths : List PyStr}
    (order : SearchOrder host dir paths) : searchPaths host dir = paths := by
  obtain ⟨dasi, lower, libraries, first, second, third, rfl⟩ := order
  simp only [searchPaths, List.flatMap_cons, List.flatMap_nil, List.append_nil, names_eq first,
    names_eq second, names_eq third, List.nil_append, List.cons_append, List.append_assoc]

theorem names_splitOn (host : Host) (env_var : PyStr) : ∃ tops, Names host env_var tops := by
  cases set : host.getenv env_var with
  | none => exact ⟨[], .unset set⟩
  | some text =>
    by_cases empty : text = []
    · exact ⟨[], .empty (empty ▸ set)⟩
    · refine ⟨text.splitOn colon, .list set empty ⟨List.splitOn_ne_nil _ _, ?_, ?_⟩⟩
      · exact fun part inside => SegmentedPaths.not_mem_of_mem_splitOn inside
      · exact (List.intercalate_splitOn colon).symm

/-- Every host has an order. -/
theorem exists_searchOrder (host : Host) (dir : PyStr) : ∃ paths, SearchOrder host dir paths := by
  obtain ⟨dasi, first⟩ := names_splitOn host (py "DASI_DIR")
  obtain ⟨lower, second⟩ := names_splitOn host (py "dasi_DIR")
  obtain ⟨libraries, third⟩ := names_splitOn host (py "LD_LIBRARY_PATH")
  exact ⟨_, dasi, lower, libraries, first, second, third, rfl⟩

end Order

/-- `FindLib` does what its name says if no directory called like the library, and no link,
gets in the way. -/
theorem findLib_findsByName_iff (host : Host) (supported : host.platform ≠ py "Windows")
    (name dir : PyStr) {paths : List PyStr} (order : SearchOrder host dir paths) :
    FindsByName host.files paths (py "lib" ++ name) (findLib host name dir) ↔
      LibrariesComeFirst host.files paths (py "lib" ++ name) := by
  rw [findLib, if_neg supported, searchPaths_eq order, ← firstMatchIsLibrary_iff]
  exact lookUp_findsByName_iff

def readme : FileName := ⟨py "README", by decide⟩

def library : FileName := ⟨py "libdasi.so", by decide⟩

/-- A host with one directory to search, named by DASI_DIR. -/
def hostWith (top : PyStr) (content : Directory FileName) : Host where
  platform := py "Linux"
  getenv env_var := if env_var = py "DASI_DIR" then some top else none
  files := {
    directory := fun path => if path = top then some content else none
    pathExists := fun path => path ≠ []
    empty_path := rfl }

/-- The search order on such a host, for a package directory `/pkg`. -/
def hostPaths (top : PyStr) : List PyStr :=
  [py "/pkg/libs/Linux", top, py "/usr/local/lib64", py "/usr/local/lib"]

theorem searchOrder_hostWith {top : PyStr} (nonempty : top ≠ []) (free : colon ∉ top)
    (content : Directory FileName) :
    SearchOrder (hostWith top content) (py "/pkg") (hostPaths top) := by
  have set : (hostWith top content).getenv (py "DASI_DIR") = some top := rfl
  refine ⟨[top], [], [], .list set nonempty ⟨?_, ?_, ?_⟩, .unset rfl, .unset rfl, rfl⟩
  · simp
  · simpa using free
  · simp

/-- A library next to another file. -/
def plainHost : Host := hostWith (py "/opt") (.file readme (.file library .nil))

theorem findLib_plain :
    FindsByName plainHost.files (hostPaths (py "/opt")) (py "lib" ++ py "dasi")
      (findLib plainHost (py "dasi") (py "/pkg")) ∧
    findLib plainHost (py "dasi") (py "/pkg") = .ok (py "/opt/libdasi.so") := by
  have order : SearchOrder plainHost (py "/pkg") (hostPaths (py "/opt")) :=
    searchOrder_hostWith (by decide) (by decide) _
  refine ⟨(findLib_findsByName_iff plainHost (by decide) (py "dasi") (py "/pkg") order).mpr ?_,
    by decide⟩
  rw [← firstMatchIsLibrary_iff]
  have listed : (hostPaths (py "/opt")).flatMap (filesBelow plainHost.files) =
      [(py "/opt", readme), (py "/opt", library)] := by decide
  intro before file after whole earlier match_
  rw [listed] at whole
  have inside : file ∈ [(py "/opt", readme), (py "/opt", library)] := by
    rw [whole]
    exact List.mem_append_right _ List.mem_cons_self
  simp only [List.mem_cons, List.not_mem_nil, or_false] at inside
  rcases inside with rfl | rfl
  · exact absurd match_ (by decide)
  · exact Or.inl ⟨by decide, by decide⟩

/-- The same two files in a directory that is called like the library. -/
def namesakeHost : Host := hostWith (py "/opt/libdasi") (.file readme (.file library .nil))

/-- The file that comes first is taken for the library. -/
theorem findLib_namesake :
    SearchOrder namesakeHost (py "/pkg") (hostPaths (py "/opt/libdasi")) ∧
    findLib namesakeHost (py "dasi") (py "/pkg") = .ok (py "/opt/libdasi/README") ∧
    ¬ FindsByName namesakeHost.files (hostPaths (py "/opt/libdasi"))
      (py "lib" ++ py "dasi") (findLib namesakeHost (py "dasi") (py "/pkg")) := by
  have result : findLib namesakeHost (py "dasi") (py "/pkg") = .ok (py "/opt/libdasi/README") := by
    decide
  refine ⟨searchOrder_hostWith (by decide) (by decide) _, result, ?_⟩
  rw [result]
  intro finds
  obtain ⟨-, top, -, -, ⟨parent, name, isLibrary, same⟩, -⟩ := finds.finds (fun ⟨_, h⟩ => nomatch h)
  have path : join (py "/opt/libdasi") readme.1 = join parent name.1 := Except.ok.inj same
  have named := isLibrary.2.2
  rw [← name_of_join_eq path] at named
  exact absurd named (by decide)

end FindLib
