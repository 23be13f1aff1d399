import DasiModel.NullPointers
import DasiModel.Library.FiniteMaps

/-!
# Keys and queries behind handles, as finite maps

The caller of the C API sees its own cells and what is behind the handles it was
given: a finite map each. Calls whose pointers are not null and whose texts end
at their NUL take one such view to the next, and a call that is refused leaves
it alone.
-/

namespace HandleMaps
open Texts Exceptions DasiKey OrderedMaps CApi NullPointers

variable {F D W A V : Type}

/-- The bytes in front of the NUL that ends a C string. -/
abbrev CText := { bytes : Bytes // (0 : Byte) ∉ bytes }

/-- A `const char*` to the text. -/
def CText.pointer (text : CText) : CStr := some text.1

/-- The text that C reads through a pointer to these bytes. -/
def CText.read (bytes : Bytes) : CText := ⟨cString bytes, zero_not_mem_cString bytes⟩

@[simp] theorem cString_text (text : CText) : cString text.1 = text.1 :=
  (cString_eq_self_iff text.1).mpr text.2

/-- How a call ends, as the caller can tell. -/
inductive Outcome where
  | returned
  /-- An error code came back. -/
  | refused
  | escaped
  | undefined
  deriving DecidableEq

def Outcome.of : Exit → Outcome
  | .returned code => if code.isError then .refused else .returned
  | .escaped _ => .escaped
  | .undefined => .undefined

/-- What the caller sees: the maps behind the handles and the cells it passed. -/
structure Caller (V : Type) where
  maps : Address → Option (Finmap fun _ : Bytes => V)
  fresh : Address
  handles : Address → Ptr
  texts : Address → CStr
  numbers : Address → Int

namespace Caller
variable (s : Caller V)

/-- A handle to a new empty map, put into a cell. -/
def new (cell : Address) : Outcome × Caller V :=
  (.returned, { s with
    maps := Function.update s.maps s.fresh (some ∅)
    fresh := s.fresh + 1
    handles := Function.update s.handles cell (some s.fresh) })

def assign (p : Address) (m : Finmap fun _ : Bytes => V) : Outcome × Caller V :=
  (.returned, { s with maps := Function.update s.maps p (some m) })

def writeText (cell : Address) (text : Bytes) : Caller V :=
  { s with texts := Function.update s.texts cell (some text) }

def writeNumber (cell : Address) (n : Int) : Caller V :=
  { s with numbers := Function.update s.numbers cell n }

/-- A call on the map behind a handle; what is not such a handle must not be used. -/
def on (p : Address) (use : (Finmap fun _ : Bytes => V) → Outcome × Caller V) :
    Outcome × Caller V :=
  match s.maps p with
  | some m => use m
  | none => (.undefined, s)

end Caller

/-- The finite map that an object wraps. -/
class Contents (A : Type) (V : outParam Type) where
  contents : A → Finmap fun _ : Bytes => V

export Contents (contents)

instance keyContents : Contents Key Bytes := ⟨fun key => key.values.contents⟩

instance queryContents : Contents Query (List Bytes) := ⟨fun query => query.values.contents⟩

theorem contents_key (key : Key) : contents key = key.values.contents := rfl

theorem contents_query (query : Query) : contents query = query.values.contents := rfl

/-- The number that the `has` functions write. -/
theorem has_number (m : OrderedMap Bytes V) (k : Bytes) :
    boolNumber (m.find k).isSome = if k ∈ m.contents then 1 else 0 := by
  simp only [boolNumber, OrderedMap.mem_contents_iff]

/-- Changing cells keeps the objects, and changing objects keeps the cells. -/
class KeptApart (F D W A : Type) [Stored F D W A] : Prop where
  objects_cells (w : World F D W) (handles : Address → Ptr) (texts : Address → CStr)
    (numbers : Address → Int) (fresh : Address) (errorString : Bytes) :
    Stored.objects (A := A) { w with handles, texts, numbers, fresh, errorString } =
      Stored.objects (A := A) w
  objects_withObjects (w : World F D W) (objects : Address → Option A) :
    Stored.objects (Stored.withObjects w objects) = objects
  cells_withObjects (w : World F D W) (objects : Address → Option A) :
    (Stored.withObjects w objects).handles = w.handles ∧
    (Stored.withObjects w objects).texts = w.texts ∧
    (Stored.withObjects w objects).numbers = w.numbers ∧
    (Stored.withObjects w objects).fresh = w.fresh

instance keysApart : KeptApart F D W Key where
  objects_cells _ _ _ _ _ _ := rfl
  objects_withObjects _ _ := rfl
  cells_withObjects _ _ := ⟨rfl, rfl, rfl, rfl⟩

instance queriesApart : KeptApart F D W Query where
  objects_cells _ _ _ _ _ _ := rfl
  objects_withObjects _ _ := rfl
  cells_withObjects _ _ := ⟨rfl, rfl, rfl, rfl⟩

section Views
variable (A) [Contents A V] [Stored F D W A]

/-- The caller's view of the objects of one type. -/
def view (w : World F D W) : Caller V where
  maps p := (Stored.objects (A := A) w p).map contents
  fresh := w.fresh
  handles := w.handles
  texts := w.texts
  numbers := w.numbers

/-- A call that ends as the caller's view says, and changes nothing when it is refused. -/
inductive Runs (w : World F D W) : Exit × World F D W → Outcome × Caller V → Prop where
  | returned {w' : World F D W} {s : Caller V} (shown : view A w' = s) :
    Runs w (.returned .success, w') (.returned, s)
  | refused {out : Exit × World F D W} (clean : FailsCleanly out w) :
    Runs w out (.refused, view A w)
  | undefined : Runs w (.undefined, w) (.undefined, view A w)

variable {A} [KeptApart F D W A]

theorem view_cells (w : World F D W) (handles : Address → Ptr) (texts : Address → CStr)
    (numbers : Address → Int) (fresh : Address) (errorString : Bytes) :
    view A { w with handles, texts, numbers, fresh, errorString } =
      { view A w with handles, texts, numbers, fresh } := by
  simp only [view, KeptApart.objects_cells]

theorem view_update (w : World F D W) (p : Address) (a : A) :
    view A (Stored.withObjects w (Function.update (Stored.objects w) p (some a))) =
      { view A w with maps := Function.update (view A w).maps p (some (contents a)) } := by
  obtain ⟨handles, texts, numbers, fresh⟩ := KeptApart.cells_withObjects w
    (Function.update (Stored.objects w) p (some a))
  simp only [view, KeptApart.objects_withObjects, handles, texts, numbers, fresh]
  congr 1
  funext q
  by_cases same : q = p
  · subst same
    simp only [Function.update_self, Option.map_some]
  · simp only [Function.update_of_ne same]

end Views

section Bodies
variable [Contents A V] [Stored F D W A] {w : World F D W}

theorem Runs.agrees [KeptApart F D W A] {out : Exit × World F D W} {answer : Outcome × Caller V}
    (runs : Runs A w out answer) : Outcome.of out.1 = answer.1 ∧ view A out.2 = answer.2 := by
  cases runs with
  | returned shown => exact ⟨rfl, shown⟩
  | refused clean =>
    obtain ⟨code, text, rfl, error⟩ := clean
    exact ⟨if_pos error, view_cells w _ _ _ _ text⟩
  | undefined => exact ⟨rfl, rfl⟩

theorem Runs.clean {out : Exit × World F D W} {answer : Outcome × Caller V}
    (runs : Runs A w out answer) (refused : Outcome.of out.1 = .refused) : FailsCleanly out w := by
  cases runs with
  | returned shown => cases refused
  | refused clean => exact clean
  | undefined => cases refused

/-- What has been computed so far changed nothing. -/
theorem void_bind {B : Type} {body : CBody F D W B} {b : B} (passes : body.run w = (.ok b, w))
    (next : B → CBody F D W Unit) :
    tryCatchVoid (body >>= next) w = tryCatchVoid (next b) w := by
  simp only [tryCatchVoid, tryCatchBody, run_bind, passes]

theorem void_readCStr (text : CText) (next : Bytes → CBody F D W Unit) :
    tryCatchVoid (readCStr text.pointer >>= next) w = tryCatchVoid (next text.1) w :=
  void_bind (congrArg (fun bytes => (Except.ok bytes, w)) (cString_text text)) next

theorem runs_deref {p : Address} {body : A → CBody F D W Unit}
    {use : (Finmap fun _ : Bytes => V) → Outcome × Caller V}
    (live : ∀ a, Runs A w (tryCatchVoid (body a) w) (use (contents a))) :
    Runs A w (tryCatchVoid (deref (some p) >>= body) w) ((view A w).on p use) := by
  have maps : (view A w).maps p = (Stored.objects (A := A) w p).map contents := rfl
  have derefs := deref_run (F := F) (D := D) (W := W) (A := A) (some p) w
  simp only [Option.bind_some] at derefs
  simp only [Caller.on, maps]
  cases found : Stored.objects (A := A) w p with
  | some a =>
    simp only [found] at derefs
    simp only [void_bind derefs, Option.map_some]
    exact live a
  | none =>
    simp only [found] at derefs
    simp only [tryCatchVoid, tryCatchBody, run_bind, derefs, Option.map_none]
    exact .undefined

/-- The arguments are checked, then the object behind the handle is used. -/
theorem runs_on {conditions : List (Bool × String)} (hold : ∀ c ∈ conditions, c.1 = true)
    {p : Address} {body : A → CBody F D W Unit}
    {use : (Finmap fun _ : Bytes => V) → Outcome × Caller V}
    (live : ∀ a, Runs A w (tryCatchVoid (body a) w) (use (contents a))) :
    Runs A w (tryCatchVoid (asserts conditions >>= fun _ => deref (some p) >>= body) w)
      ((view A w).on p use) := by
  simp only [void_bind (asserts_pass hold)]
  exact runs_deref live

variable [KeptApart F D W A]

theorem runs_new {conditions : List (Bool × String)} (hold : ∀ c ∈ conditions, c.1 = true)
    {a : A} (isNew : contents a = ∅) (cell : Address) :
    Runs A w (tryCatchVoid (asserts conditions >>= fun _ =>
      newObject a >>= fun p => writeHandle (some cell) p) w) ((view A w).new cell) := by
  simp only [void_bind (asserts_pass hold)]
  refine .returned ?_
  let counted : World F D W := { w with fresh := w.fresh + 1 }
  let stored := Stored.withObjects counted
    (Function.update (Stored.objects counted) w.fresh (some a))
  have shown : view A stored = { view A w with
      maps := Function.update (view A w).maps w.fresh (some ∅)
      fresh := w.fresh + 1 } := by
    have counts : view A counted = { view A w with fresh := w.fresh + 1 } :=
      view_cells w w.handles w.texts w.numbers (w.fresh + 1) w.errorString
    simp only [stored, view_update, counts, isNew]
  obtain ⟨handles, texts, numbers, fresh⟩ : stored.handles = w.handles ∧ stored.texts = w.texts ∧
      stored.numbers = w.numbers ∧ stored.fresh = w.fresh + 1 :=
    KeptApart.cells_withObjects counted _
  refine (view_cells stored (Function.update stored.handles cell (some w.fresh)) stored.texts
    stored.numbers stored.fresh stored.errorString).trans ?_
  simp only [shown, handles, texts, numbers, fresh]
  rfl

theorem runs_assign (p : Address) (a : A) :
    Runs A w (tryCatchVoid (assignObject (some p) (some a)) w)
      ((view A w).assign p (contents a)) :=
  .returned (view_update w p a)

theorem runs_number (cell : Address) (n : Int) :
    Runs A w (tryCatchVoid (writeNumber (some cell) n) w)
      (.returned, (view A w).writeNumber cell n) :=
  .returned (view_cells w _ _ _ _ _)

theorem runs_text (cell : Address) (text : Bytes) :
    Runs A w (tryCatchVoid (writeText (some cell) text) w)
      (.returned, (view A w).writeText cell text) :=
  .returned (view_cells w _ _ _ _ _)

end Bodies

end HandleMaps
