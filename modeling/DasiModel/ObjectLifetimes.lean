import DasiModel.NullPointers
import DasiModel.Library.Triples
import DasiModel.Library.Refinements

/-!
# What the C API creates and deletes

The caller of the C API owns the objects it was given handles to, until it frees
them. An entry point looks at the objects behind the handles it is passed and
at no others, creates at most one object and deletes one only when it is told
to. A caller that keeps books of its handles is never in undefined territory,
whatever its calls answer.
-/

namespace ObjectLifetimes
open Texts Exceptions DasiKey Generators CHandles Machines Triples CApi NullPointers

variable {F P D W A : Type}

/-- The types behind the handles. -/
inductive Kind where
  | session
  | key
  | query
  | list
  | retrieve
  | wipe
  | purge
  deriving DecidableEq

/-- Which objects exist. -/
abbrev Objects := Kind → Address → Bool

def alive (w : World F D W) : Objects
  | .session, p => (w.dasis p).isSome
  | .key, p => (w.keys p).isSome
  | .query, p => (w.queries p).isSome
  | .list, p => (w.lists p).isSome
  | .retrieve, p => (w.retrieves p).isSome
  | .wipe, p => (w.wipes p).isSome
  | .purge, p => (w.purges p).isSome

/-- The objects after one is created or deleted. -/
def Objects.put (live : Objects) (kind : Kind) (p : Address) (exist : Bool) : Objects :=
  fun k q => if k = kind ∧ q = p then exist else live k q

/-- The objects of a type are those of one kind. -/
class Kinded (F D W A : Type) [Stored F D W A] (kind : outParam Kind) : Prop where
  shows (w : World F D W) (p : Address) :
    alive w kind p = (Stored.objects (A := A) w p).isSome
  puts (w : World F D W) (objects : Address → Option A) (k : Kind) (p : Address) :
    alive (Stored.withObjects w objects) k p = if k = kind then (objects p).isSome else alive w k p
  cells (w : World F D W) (objects : Address → Option A) :
    (Stored.withObjects w objects).fresh = w.fresh ∧
      (Stored.withObjects w objects).handles = w.handles

instance : Kinded F D W F .session where
  shows _ _ := rfl
  puts _ _ k _ := by cases k <;> rfl
  cells _ _ := ⟨rfl, rfl⟩

instance : Kinded F D W Key .key where
  shows _ _ := rfl
  puts _ _ k _ := by cases k <;> rfl
  cells _ _ := ⟨rfl, rfl⟩

instance : Kinded F D W Query .query where
  shows _ _ := rfl
  puts _ _ k _ := by cases k <;> rfl
  cells _ _ := ⟨rfl, rfl⟩

instance : Kinded F D W DasiList .list where
  shows _ _ := rfl
  puts _ _ k _ := by cases k <;> rfl
  cells _ _ := ⟨rfl, rfl⟩

instance : Kinded F D W (DasiRetrieve D) .retrieve where
  shows _ _ := rfl
  puts _ _ k _ := by cases k <;> rfl
  cells _ _ := ⟨rfl, rfl⟩

instance : Kinded F D W DasiWipe .wipe where
  shows _ _ := rfl
  puts _ _ k _ := by cases k <;> rfl
  cells _ _ := ⟨rfl, rfl⟩

instance : Kinded F D W DasiPurge .purge where
  shows _ _ := rfl
  puts _ _ k _ := by cases k <;> rfl
  cells _ _ := ⟨rfl, rfl⟩

/-- These objects exist, and `fresh` is the next address. -/
def Shape (live : Objects) (fresh : Address) (w : World F D W) : Prop :=
  alive w = live ∧ w.fresh = fresh

/-- An exception, with the objects as they were. -/
def Raises (P : World F D W → Prop) (fault : Fault) (w : World F D W) : Prop :=
  (∃ x, fault = .raised x) ∧ P w

/-- A body that creates and deletes nothing, and uses only what exists. -/
abbrev Steady (live : Objects) (fresh : Address) (body : CBody F D W A) : Prop :=
  Triple (Shape live fresh) body (fun _ => Shape live fresh) (Raises (Shape live fresh))

/-- A handle argument is null or leads to an object. -/
def Owned (live : Objects) (kind : Kind) (p : Ptr) : Prop := ∀ a, p = some a → live kind a = true

section Steady
variable {live : Objects} {fresh : Address}

theorem steady_bind {B : Type} {body : CBody F D W A} {next : A → CBody F D W B}
    (first : Steady live fresh body) (later : ∀ a, Steady live fresh (next a)) :
    Steady live fresh (body >>= next) :=
  first.bind later

theorem steady_pure (a : A) : Steady live fresh (pure a : CBody F D W A) :=
  .pure fun _ shape => shape

theorem steady_throw (x : Exception) :
    Steady live fresh (throw (.raised x) : CBody F D W A) :=
  .throw fun _ shape => ⟨⟨x, rfl⟩, shape⟩

theorem steady_raising (result : Except Exception A) :
    Steady live fresh (raising result : CBody F D W A) := by
  cases result with
  | ok a => exact steady_pure a
  | error x => exact steady_throw x

/-- The conditions of some `ASSERT`s. -/
def Hold : List (Bool × String) → Prop
  | [] => True
  | condition :: rest => condition.1 = true ∧ Hold rest

theorem hold_of_forall {conditions : List (Bool × String)}
    (hold : ∀ c ∈ conditions, c.1 = true) : Hold conditions := by
  induction conditions with
  | nil => trivial
  | cons condition rest ih =>
    obtain ⟨here, later⟩ := List.forall_mem_cons.mp hold
    exact ⟨here, ih later⟩

/-- What was not raised is what the function returned. -/
theorem triple_raising {P : World F D W → Prop} (result : Except Exception A) :
    Triple P (raising result : CBody F D W A) (fun a w => result = .ok a ∧ P w) (Raises P) := by
  cases result with
  | ok a => exact .pure fun _ holds => ⟨rfl, holds⟩
  | error x => exact .throw fun _ holds => ⟨⟨x, rfl⟩, holds⟩

/-- The rest of a function runs once its `ASSERT`s have passed. -/
theorem triple_asserts {conditions : List (Bool × String)} {next : Unit → CBody F D W A}
    {Q : A → World F D W → Prop}
    (then_ : Hold conditions →
      Triple (Shape live fresh) (next ()) Q (Raises (Shape live fresh))) :
    Triple (Shape live fresh) (asserts conditions >>= next) Q (Raises (Shape live fresh)) := by
  intro w shape
  by_cases hold : ∀ c ∈ conditions, c.1 = true
  · rw [run_bind, asserts_pass hold]
    exact then_ (hold_of_forall hold) w shape
  · have broken : ∃ c ∈ conditions, c.1 = false := by simpa using hold
    obtain ⟨x, raised⟩ := asserts_raise (w := w) broken
    rw [run_bind, raised]
    exact ⟨⟨x, rfl⟩, shape⟩

/-- What changes no object. -/
theorem steady_modify {f : World F D W → World F D W} (keeps : ∀ w, alive (f w) = alive w)
    (counts : ∀ w, (f w).fresh = w.fresh) :
    Steady live fresh (modify f : CBody F D W PUnit) :=
  .modify fun w shape => ⟨(keeps w).trans shape.1, (counts w).trans shape.2⟩

theorem steady_writeText {p : Ptr} (given : p.isSome = true) (value : Bytes) :
    Steady live fresh (writeText p value : CBody F D W Unit) := by
  obtain ⟨a, rfl⟩ := Option.isSome_iff_exists.mp given
  exact steady_modify (fun _ => by funext k q; cases k <;> rfl) (fun _ => rfl)

theorem steady_writeNumber {p : Ptr} (given : p.isSome = true) (value : Int) :
    Steady live fresh (writeNumber p value : CBody F D W Unit) := by
  obtain ⟨a, rfl⟩ := Option.isSome_iff_exists.mp given
  exact steady_modify (fun _ => by funext k q; cases k <;> rfl) (fun _ => rfl)

theorem steady_writeBuffer {p : Ptr} (given : p.isSome = true) (bytes : Bytes) :
    Steady live fresh (writeBuffer p bytes : CBody F D W Unit) := by
  obtain ⟨a, rfl⟩ := Option.isSome_iff_exists.mp given
  exact steady_modify (fun _ => by funext k q; cases k <;> rfl) (fun _ => rfl)

theorem steady_readNumber {p : Ptr} (given : p.isSome = true) :
    Steady live fresh (readNumber p : CBody F D W Int) := by
  obtain ⟨a, rfl⟩ := Option.isSome_iff_exists.mp given
  exact (Triple.get fun _ shape => shape).bind fun w => steady_pure (w.numbers a)

theorem steady_readCStr {text : CStr} (given : text.isSome = true) :
    Steady live fresh (readCStr text : CBody F D W Bytes) := by
  obtain ⟨bytes, rfl⟩ := Option.isSome_iff_exists.mp given
  exact steady_pure _

theorem steady_outside (f : W → Except Exception A × W) :
    Steady live fresh (CApi.outside f : CBody F D W A) := by
  refine (Triple.get fun _ shape => shape).bind fun w => ?_
  exact steady_bind (steady_modify (fun _ => by funext k q; cases k <;> rfl) (fun _ => rfl))
    fun _ => steady_raising _

theorem steady_optionally {B : Type} (value : Option B) {write : B → CBody F D W Unit}
    (steady : ∀ b, value = some b → Steady live fresh (write b)) :
    Steady live fresh (optionally value write) := by
  cases value with
  | none => exact steady_pure ()
  | some b => exact steady b rfl

variable [Stored F D W A] {kind : Kind} [Kinded F D W A kind]

theorem steady_deref {p : Ptr} (given : p.isSome = true) (owned : Owned live kind p) :
    Steady live fresh (deref p : CBody F D W A) := by
  intro w shape
  obtain ⟨a, rfl⟩ := Option.isSome_iff_exists.mp given
  have there : (Stored.objects w a : Option A).isSome = true := by
    rw [← Kinded.shows w a, shape.1]
    exact owned a rfl
  obtain ⟨object, found⟩ := Option.isSome_iff_exists.mp there
  rw [deref_run, Option.bind_some, found]
  exact shape

theorem Objects.put_self (here : live kind p = b) : live.put kind p b = live := by
  funext k q
  simp only [put]
  split
  · rename_i same
    rw [same.1, same.2, here]
  · rfl

theorem alive_update (w : World F D W) (p : Address) (object : Option A) :
    alive (Stored.withObjects w (Function.update (Stored.objects w) p object)) =
      (alive w).put kind p object.isSome := by
  funext k q
  rw [Kinded.puts, Objects.put]
  by_cases same : k = kind
  · subst same
    rw [if_pos rfl]
    by_cases here : q = p
    · rw [here, Function.update_self, if_pos ⟨rfl, rfl⟩]
    · rw [Function.update_of_ne here, if_neg (fun both => here both.2),
        Kinded.shows (A := A) w q]
  · rw [if_neg same, if_neg (fun both => same both.1)]

theorem triple_assign (p : Address) (object : Option A) :
    Triple (Shape live fresh) (assignObject (some p) object : CBody F D W Unit)
      (fun _ => Shape (live.put kind p object.isSome) fresh) (Raises (Shape live fresh)) := by
  refine .modify fun w shape => ⟨?_, (Kinded.cells w _).1.trans shape.2⟩
  rw [alive_update, shape.1]

/-- An object is replaced by another one. -/
theorem steady_assign {p : Ptr} (given : p.isSome = true) (owned : Owned live kind p) (object : A) :
    Steady live fresh (assignObject p (some object) : CBody F D W Unit) := by
  obtain ⟨a, rfl⟩ := Option.isSome_iff_exists.mp given
  have assigned : Triple (Shape live fresh)
      (assignObject (some a) (some object) : CBody F D W Unit) _ _ := triple_assign a (some object)
  rw [Option.isSome_some, Objects.put_self (owned a rfl)] at assigned
  exact assigned

/-- A new object, with its handle in a cell. -/
def Made (live : Objects) (fresh : Address) (kind : Kind) (cell : Address) (w : World F D W) :
    Prop :=
  Shape (live.put kind fresh true) (fresh + 1) w ∧ w.handles cell = some fresh

theorem triple_make (cell : Address) (object : A) :
    Triple (Shape live fresh)
      (newObject object >>= fun p => writeHandle (some cell) p : CBody F D W Unit)
      (fun _ => Made live fresh kind cell) (Raises (Shape live fresh)) := by
  intro w shape
  let counted : World F D W := { w with fresh := w.fresh + 1 }
  let stored : World F D W := Stored.withObjects counted
    (Function.update (Stored.objects counted) w.fresh (some object))
  have run : (newObject object >>= fun p => writeHandle (some cell) p : CBody F D W Unit).run w =
      (.ok (), { stored with
        handles := Function.update stored.handles cell (some w.fresh) }) := rfl
  have counts : alive counted = alive w := by
    funext k q
    cases k <;> rfl
  rw [run]
  refine ⟨⟨?_, ?_⟩, ?_⟩
  · have shown : alive stored = live.put kind fresh true := by
      rw [alive_update, counts, shape.1, shape.2, Option.isSome_some]
    rw [← shown]
    funext k q
    cases k <;> rfl
  · exact (Kinded.cells counted _).1.trans (congrArg (· + 1) shape.2)
  · change Function.update stored.handles cell (some w.fresh) cell = some fresh
    rw [Function.update_self, shape.2]

theorem triple_delete {p : Address} (owned : live kind p = true) :
    Triple (Shape live fresh) (deleteObject A (some p) : CBody F D W Unit)
      (fun _ => Shape (live.put kind p false) fresh) (Raises (Shape live fresh)) := by
  have own : Owned live kind (some p) := by
    rintro a ⟨⟩
    exact owned
  exact (steady_deref (A := A) rfl own).bind fun _ => triple_assign p none

/-- The same with what the destructor does outside. -/
theorem triple_destroy (destructor : A → W → W) {p : Address} (owned : live kind p = true) :
    Triple (Shape live fresh) (destroyObject destructor (some p) : CBody F D W Unit)
      (fun _ => Shape (live.put kind p false) fresh) (Raises (Shape live fresh)) := by
  have own : Owned live kind (some p) := by
    rintro a ⟨⟩
    exact owned
  refine (steady_deref (A := A) rfl own).bind fun a => (triple_assign p none).bind fun _ => ?_
  refine .modify fun w shape => ⟨?_, shape.2⟩
  rw [← Option.isSome_none (α := A), ← shape.1]
  funext k q
  cases k <;> rfl

end Steady

/-- The handles that a call is passed, and looks behind. -/
def uses : Call → List (Kind × Ptr)
  | .close dasi => [(.session, dasi)]
  | .archive dasi key _ _ => [(.session, dasi), (.key, key)]
  | .flush dasi => [(.session, dasi)]
  | .list dasi query _ => [(.session, dasi), (.query, query)]
  | .freeList list => [(.list, list)]
  | .listCount list _ => [(.list, list)]
  | .listNext list => [(.list, list)]
  | .listAttrs list _ _ _ _ _ => [(.list, list)]
  | .retrieve dasi query _ => [(.session, dasi), (.query, query)]
  | .freeRetrieve retrieve => [(.retrieve, retrieve)]
  | .retrieveRead retrieve _ _ => [(.retrieve, retrieve)]
  | .retrieveCount retrieve _ => [(.retrieve, retrieve)]
  | .retrieveNext retrieve => [(.retrieve, retrieve)]
  | .retrieveAttrs retrieve _ _ _ _ => [(.retrieve, retrieve)]
  | .wipe dasi query _ _ _ => [(.session, dasi), (.query, query)]
  | .freeWipe wipe => [(.wipe, wipe)]
  | .wipeNext wipe => [(.wipe, wipe)]
  | .wipeGetValue wipe _ => [(.wipe, wipe)]
  | .purge dasi query _ _ => [(.session, dasi), (.query, query)]
  | .freePurge purge => [(.purge, purge)]
  | .purgeNext purge => [(.purge, purge)]
  | .purgeGetValue purge _ => [(.purge, purge)]
  | .freeKey key => [(.key, key)]
  | .keyCompare key other _ => [(.key, key), (.key, other)]
  | .keySet key _ _ => [(.key, key)]
  | .keyGetIndex key _ _ _ => [(.key, key)]
  | .keyGet key _ _ => [(.key, key)]
  | .keyHas key _ _ => [(.key, key)]
  | .keyCount key _ => [(.key, key)]
  | .keyErase key _ => [(.key, key)]
  | .keyClear key => [(.key, key)]
  | .freeQuery query => [(.query, query)]
  | .querySet query _ _ _ => [(.query, query)]
  | .queryAppend query _ _ => [(.query, query)]
  | .queryGet query _ _ _ => [(.query, query)]
  | .queryHas query _ _ => [(.query, query)]
  | .queryKeywordCount query _ => [(.query, query)]
  | .queryValueCount query _ _ => [(.query, query)]
  | .queryErase query _ => [(.query, query)]
  | .queryClear query => [(.query, query)]
  | _ => []

/-- The kind of object that a call creates when it succeeds, and the cell for its handle. -/
def makes : Call → Option (Kind × Address)
  | .open_ dasi _ => dasi.map (Prod.mk .session)
  | .list _ _ list => list.map (Prod.mk .list)
  | .listAttrs _ key _ _ _ _ => key.map (Prod.mk .key)
  | .retrieve _ _ retrieve => retrieve.map (Prod.mk .retrieve)
  | .retrieveAttrs _ key _ _ _ => key.map (Prod.mk .key)
  | .wipe _ _ _ _ wipe => wipe.map (Prod.mk .wipe)
  | .purge _ _ _ purge => purge.map (Prod.mk .purge)
  | .newKey key => key.map (Prod.mk .key)
  | .newKeyFromString key _ => key.map (Prod.mk .key)
  | .newQuery query => query.map (Prod.mk .query)
  | .newQueryFromString query _ => query.map (Prod.mk .query)
  | _ => none

/-- The object that a call deletes when it succeeds. -/
def frees : Call → Option (Kind × Address)
  | .close dasi => dasi.map (Prod.mk .session)
  | .freeList list => list.map (Prod.mk .list)
  | .freeRetrieve retrieve => retrieve.map (Prod.mk .retrieve)
  | .freeWipe wipe => wipe.map (Prod.mk .wipe)
  | .freePurge purge => purge.map (Prod.mk .purge)
  | .freeKey key => key.map (Prod.mk .key)
  | .freeQuery query => query.map (Prod.mk .query)
  | _ => none

/-- What a call is told to read of an array stays inside the array. -/
def Inside : Call → Prop
  | .archive _ _ (some data) length => length ≤ data.length
  | .querySet _ _ (some values) num => num ≤ values.length
  | _ => True

/-- What a call has done to the objects, by the code it returned. -/
inductive Did (live : Objects) (fresh : Address) (c : Call) : Exit × World F D W → Prop where
  | failed {code : Code} {w : World F D W} (error : code.isError = true)
      (shape : Shape live fresh w) : Did live fresh c (.returned code, w)
  | kept {code : Code} {w : World F D W} (nothing : makes c = none ∧ frees c = none)
      (shape : Shape live fresh w) : Did live fresh c (.returned code, w)
  | made {kind : Kind} {cell : Address} {w : World F D W} (creates : makes c = some (kind, cell))
      (made : Made live fresh kind cell w) : Did live fresh c (.returned .success, w)
  | freed {kind : Kind} {p : Address} {w : World F D W} (deletes : frees c = some (kind, p))
      (shape : Shape (live.put kind p false) fresh w) : Did live fresh c (.returned .success, w)

section Calls
variable {live : Objects} {fresh : Address} {c : Call} {w : World F D W}

theorem shape_errorString (shape : Shape live fresh w) (text : Bytes) :
    Shape live fresh { w with errorString := text } := by
  refine ⟨?_, shape.2⟩
  rw [← shape.1]
  funext k q
  cases k <;> rfl

/-- How a body inside `try_catch` ends. -/
theorem tryCatch_ends {body : CBody F D W Code} {Q : Code → World F D W → Prop}
    (triple : Triple (Shape live fresh) body Q (Raises (Shape live fresh)))
    (shape : Shape live fresh w) :
    (∃ code w', tryCatchBody body w = (.returned code, w') ∧ code.isError = true ∧
      Shape live fresh w') ∨
    ∃ code w', tryCatchBody body w = (.returned code, w') ∧ Q code w' := by
  cases ends : body.run w with
  | mk result w' =>
    cases result with
    | error fault =>
      obtain ⟨⟨x, rfl⟩, kept⟩ := triple.of_error shape ends
      refine Or.inl ⟨x.code, { w' with errorString := x.what }, ?_, x.code_isError,
        shape_errorString kept _⟩
      simp only [tryCatchBody, ends]
    | ok code =>
      refine Or.inr ⟨code, w', ?_, triple.of_ok shape ends⟩
      simp only [tryCatchBody, ends]

theorem did_body {body : CBody F D W Code} (nothing : makes c = none ∧ frees c = none)
    (steady : Steady live fresh body) (shape : Shape live fresh w) :
    Did live fresh c (tryCatchBody body w) := by
  rcases tryCatch_ends steady shape with ⟨code, w', out, error, kept⟩ | ⟨code, w', out, kept⟩
  · rw [out]
    exact .failed error kept
  · rw [out]
    exact .kept nothing kept

/-- A body that returns nothing succeeds with its postcondition. -/
theorem tryCatchVoid_ends {body : CBody F D W Unit} {Q : World F D W → Prop}
    (triple : Triple (Shape live fresh) body (fun _ => Q) (Raises (Shape live fresh)))
    (shape : Shape live fresh w) :
    (∃ code w', tryCatchVoid body w = (.returned code, w') ∧ code.isError = true ∧
      Shape live fresh w') ∨
    ∃ w', tryCatchVoid body w = (.returned .success, w') ∧ Q w' := by
  have whole : Triple (Shape live fresh) (do body; return .success : CBody F D W Code)
      (fun code w => code = .success ∧ Q w) (Raises (Shape live fresh)) :=
    triple.bind fun _ => .pure fun _ holds => ⟨rfl, holds⟩
  rcases tryCatch_ends whole shape with failed | ⟨code, w', out, rfl, holds⟩
  · exact Or.inl failed
  · exact Or.inr ⟨w', out, holds⟩

theorem did_void {body : CBody F D W Unit} (nothing : makes c = none ∧ frees c = none)
    (steady : Steady live fresh body) (shape : Shape live fresh w) :
    Did live fresh c (tryCatchVoid body w) := by
  rcases tryCatchVoid_ends steady shape with ⟨code, w', out, error, kept⟩ | ⟨w', out, kept⟩
  · rw [out]
    exact .failed error kept
  · rw [out]
    exact .kept nothing kept

theorem did_make {body : CBody F D W Unit} {kind : Kind} {cell : Address}
    (creates : makes c = some (kind, cell))
    (triple : Triple (Shape live fresh) body (fun _ => Made live fresh kind cell)
      (Raises (Shape live fresh))) (shape : Shape live fresh w) :
    Did live fresh c (tryCatchVoid body w) := by
  rcases tryCatchVoid_ends triple shape with ⟨code, w', out, error, kept⟩ | ⟨w', out, made⟩
  · rw [out]
    exact .failed error kept
  · rw [out]
    exact .made creates made

theorem did_free {body : CBody F D W Unit} {kind : Kind} {p : Address}
    (deletes : frees c = some (kind, p))
    (triple : Triple (Shape live fresh) body (fun _ => Shape (live.put kind p false) fresh)
      (Raises (Shape live fresh))) (shape : Shape live fresh w) :
    Did live fresh c (tryCatchVoid body w) := by
  rcases tryCatchVoid_ends triple shape with ⟨code, w', out, error, kept⟩ | ⟨w', out, freed⟩
  · rw [out]
    exact .failed error kept
  · rw [out]
    exact .freed deletes freed

/-- A function that asserts its arguments and then looks behind one handle. -/
theorem did_on [Stored F D W A] {kind : Kind} [Kinded F D W A kind]
    {conditions : List (Bool × String)} {p : Ptr} {body : A → CBody F D W Unit}
    (nothing : makes c = none ∧ frees c = none) (given : Hold conditions → p.isSome = true)
    (owned : Owned live kind p) (steady : Hold conditions → ∀ a, Steady live fresh (body a))
    (shape : Shape live fresh w) :
    Did live fresh c (tryCatchVoid (asserts conditions >>= fun _ => deref p >>= body) w) :=
  did_void nothing (triple_asserts fun hold =>
    steady_bind (steady_deref (given hold) owned) (steady hold)) shape

/-- A function that hands a new object out through one of its arguments. -/
theorem did_new {kind : Kind} {conditions : List (Bool × String)} {cell : Ptr}
    {body : Unit → CBody F D W Unit}
    (creates : makes c = cell.map (Prod.mk kind) ∧ frees c = none)
    (given : Hold conditions → cell.isSome = true)
    (triple : Hold conditions → ∀ a, cell = some a → Triple (Shape live fresh) (body ())
      (fun _ => Made live fresh kind a) (Raises (Shape live fresh))) (shape : Shape live fresh w) :
    Did live fresh c (tryCatchVoid (asserts conditions >>= body) w) := by
  cases cell with
  | none =>
    refine did_void creates (triple_asserts fun hold => ?_) shape
    cases given hold
  | some a => exact did_make creates.1 (triple_asserts fun hold => triple hold a rfl) shape

/-- The functions that free an object. -/
theorem did_delete [Stored F D W A] {kind : Kind} [Kinded F D W A kind] {text : String} {p : Ptr}
    (deletes : makes c = none ∧ frees c = p.map (Prod.mk kind)) (owned : Owned live kind p)
    (shape : Shape live fresh w) :
    Did live fresh c
      (tryCatchVoid (asserts [(p.isSome, text)] >>= fun _ => deleteObject A p) w) := by
  cases p with
  | none => exact did_void deletes (triple_asserts fun hold => nomatch hold.1) shape
  | some a =>
    exact did_free deletes.2 (triple_asserts fun _ => triple_delete (owned a rfl)) shape

theorem did_destroy [Stored F D W A] {kind : Kind} [Kinded F D W A kind] {text : String} {p : Ptr}
    {destructor : A → W → W} (deletes : makes c = none ∧ frees c = p.map (Prod.mk kind))
    (owned : Owned live kind p) (shape : Shape live fresh w) :
    Did live fresh c
      (tryCatchVoid (asserts [(p.isSome, text)] >>= fun _ => destroyObject destructor p) w) := by
  cases p with
  | none => exact did_void deletes (triple_asserts fun hold => nomatch hold.1) shape
  | some a =>
    exact did_free deletes.2 (triple_asserts fun _ => triple_destroy destructor (owned a rfl)) shape

/-- The functions that move a handle along. -/
theorem did_advance [Stored F D W A] {kind : Kind} [Kinded F D W A kind] {text : String} {p : Ptr}
    {next : A → Except Exception Code × A} (nothing : makes c = none ∧ frees c = none)
    (owned : Owned live kind p) (shape : Shape live fresh w) :
    Did live fresh c
      (tryCatchBody (asserts [(p.isSome, text)] >>= fun _ => advance next p) w) := by
  refine did_body nothing (triple_asserts ?_) shape
  rintro ⟨given, -⟩
  exact steady_bind (steady_deref given owned) fun _ =>
    steady_bind (steady_assign given owned _) fun _ => steady_raising _

/-- An array of values is read up to its end at most. -/
theorem steady_collectValues {values : List CStr} {num : Nat} (inside : num ≤ values.length) :
    Steady live fresh (collectValues values num : CBody F D W (List Bytes)) := by
  induction values generalizing num with
  | nil =>
    obtain rfl : num = 0 := Nat.le_zero.mp inside
    exact steady_pure []
  | cons value rest ih =>
    cases num with
    | zero => exact steady_pure []
    | succ num =>
      rw [collectValues]
      refine triple_asserts ?_
      rintro ⟨given, -⟩
      exact steady_bind (steady_readCStr given) fun head =>
        steady_bind (ih (Nat.le_of_succ_le_succ inside)) fun tail => steady_pure _

/-- An output that is written if it was asked for. -/
theorem triple_output {B : Type} {P : World F D W → Prop} {E : Fault → World F D W → Prop}
    {value : Option B} {p : Ptr} {write : Ptr → B → CBody F D W Unit}
    (asked : value.isSome = true → p.isSome = true)
    (keeps : ∀ a b, Triple P (write (some a) b) (fun _ => P) E) :
    Triple P (optionally value (write p)) (fun _ => P) E := by
  cases value with
  | none => exact .pure fun _ holds => holds
  | some b =>
    obtain ⟨a, rfl⟩ := Option.isSome_iff_exists.mp (asked rfl)
    exact keeps a b

/-- What an `attrs` call has for the outputs that are not null. -/
structure Fits (attrs : Attrs) (key timestamp uri offset length : Ptr) : Prop where
  key : attrs.key.isSome = key.isSome
  timestamp : attrs.timestamp.isSome = true → timestamp.isSome = true
  uri : attrs.uri.isSome = true → uri.isSome = true
  offset : attrs.offset.isSome = true → offset.isSome = true
  length : attrs.length.isSome = true → length.isSome = true

theorem fits_of (elem : ListElement) (text : Bytes) (key timestamp uri offset length : Ptr) :
    Fits (Attrs.of ⟨key.isSome, timestamp.isSome, uri.isSome, offset.isSome, length.isSome⟩ elem
      text) key timestamp uri offset length := by
  constructor <;> simp only [Attrs.of] <;> split <;> simp_all

/-- The outputs other than the key. -/
theorem triple_outputs {P : World F D W → Prop} {E : Fault → World F D W → Prop} {attrs : Attrs}
    {key timestamp uri offset length : Ptr} (fits : Fits attrs key timestamp uri offset length)
    (texts : ∀ w t, P w → P { w with texts := t })
    (numbers : ∀ w n, P w → P { w with numbers := n }) :
    Triple P (do
      optionally attrs.timestamp (writeNumber timestamp)
      optionally attrs.uri (writeText uri)
      optionally attrs.offset (writeNumber offset)
      optionally attrs.length (writeNumber length) : CBody F D W Unit) (fun _ => P) E := by
  have number : ∀ a n, Triple P (writeNumber (some a) n : CBody F D W Unit) (fun _ => P) E :=
    fun _ _ => .modify fun w holds => numbers w _ holds
  have text : ∀ a t, Triple P (writeText (some a) t : CBody F D W Unit) (fun _ => P) E :=
    fun _ _ => .modify fun w holds => texts w _ holds
  exact (triple_output fits.timestamp number).bind fun _ =>
    (triple_output fits.uri text).bind fun _ =>
    (triple_output fits.offset number).bind fun _ => triple_output fits.length number

theorem shape_texts {live : Objects} {fresh : Address} (w : World F D W) (t : Address → CStr)
    (shape : Shape live fresh w) : Shape live fresh { w with texts := t } := by
  refine ⟨?_, shape.2⟩
  rw [← shape.1]
  funext k q
  cases k <;> rfl

theorem shape_numbers {live : Objects} {fresh : Address} (w : World F D W) (n : Address → Int)
    (shape : Shape live fresh w) : Shape live fresh { w with numbers := n } := by
  refine ⟨?_, shape.2⟩
  rw [← shape.1]
  funext k q
  cases k <;> rfl

/-- Behind an `ASSERT` there is one answer. -/
theorem answer_of_assert {B : Type} {condition : Bool} {text : String} {a b : B}
    (answered : (assert condition text >>= fun _ => Except.ok a) = .ok b) : a = b := by
  cases condition with
  | true => exact Except.ok.inj answered
  | false => cases answered

theorem steady_getValue {G : Type} [APIGeneratorImpl G Bytes] {h : Handle G} {text : String}
    {value : Ptr} : Steady live fresh (raising (h.getValue text value.isSome) >>= fun answer =>
      optionally answer (writeText value) : CBody F D W Unit) := by
  refine (triple_raising _).bind fun answer => .assume fun answered => ?_
  refine steady_optionally answer fun bytes here => steady_writeText ?_ bytes
  have same := answer_of_assert answered
  by_contra hvalue
  rw [if_neg hvalue, here] at same
  cases same

/-- The two `attrs` functions: a new key, if it was asked for. -/
theorem did_attrs [Stored F D W A] {kind : Kind} [Kinded F D W A kind] {text : String}
    {p key timestamp uri offset length : Ptr} {attrsOf : A → Except Exception Attrs}
    (creates : makes c = key.map (Prod.mk .key) ∧ frees c = none) (owned : Owned live kind p)
    (fits : ∀ a attrs, attrsOf a = .ok attrs → Fits attrs key timestamp uri offset length)
    (shape : Shape live fresh w) :
    Did live fresh c (tryCatchVoid (asserts [(p.isSome, text)] >>= fun _ =>
      deref p >>= fun a => raising (attrsOf a) >>= fun attrs =>
        writeAttrs attrs key timestamp uri offset length) w) := by
  have answers : ∀ {Q : World F D W → Prop},
      (∀ attrs, Fits attrs key timestamp uri offset length →
        Triple (Shape live fresh) (writeAttrs attrs key timestamp uri offset length)
          (fun _ => Q) (Raises (Shape live fresh))) →
      Triple (Shape live fresh) (asserts [(p.isSome, text)] >>= fun _ => deref p >>= fun a =>
        raising (attrsOf a) >>= fun attrs => writeAttrs attrs key timestamp uri offset length)
        (fun _ => Q) (Raises (Shape live fresh)) := by
    intro Q writes
    refine triple_asserts ?_
    rintro ⟨given, -⟩
    exact (steady_deref (A := A) given owned).bind fun a =>
      (triple_raising (attrsOf a)).bind fun attrs =>
      .assume fun answered => writes attrs (fits a attrs answered)
  cases key with
  | none =>
    refine did_void creates (answers fun attrs fits => ?_) shape
    have nothing : attrs.key = none := by simpa using fits.key
    rw [writeAttrs, nothing]
    exact (steady_pure ()).bind fun _ => triple_outputs fits shape_texts shape_numbers
  | some cell =>
    refine did_make creates.1 (answers fun attrs fits => ?_) shape
    obtain ⟨k, something⟩ := Option.isSome_iff_exists.mp fits.key
    rw [writeAttrs, something]
    exact (triple_make cell k).bind fun _ => triple_outputs fits
      (fun w t made => ⟨shape_texts w t made.1, made.2⟩)
      (fun w n made => ⟨shape_numbers w n made.1, made.2⟩)

theorem dasiKeyGetIndex_did {key : Ptr} (owned : Owned live .key key) (n : Int)
    (keyword value : Ptr) (shape : Shape live fresh w) :
    Did live fresh (.keyGetIndex key n keyword value)
      (dasiKeyGetIndex key n keyword value w) := by
  refine did_on ⟨rfl, rfl⟩ (fun hold => hold.1) owned (fun _ k => triple_asserts ?_) shape
  rintro ⟨inside, -⟩
  have room : n.toNat < k.items.length := of_decide_eq_true inside
  have output : ∀ (p : Ptr) (t : Bytes), Steady live fresh
      (if p.isSome = true then writeText p t else pure () : CBody F D W Unit) := by
    intro p t
    split
    · rename_i given
      exact steady_writeText given t
    · exact steady_pure ()
  rw [List.getElem?_eq_getElem room]
  change Steady live fresh (if keyword.isSome = true then _ else _)
  split
  · rename_i given
    exact steady_bind (steady_writeText given _) fun _ => output value _
  · exact output value _

theorem dasiQuerySet_did {query : Ptr} (owned : Owned live .query query) (keyword : CStr)
    {values : Option (List CStr)} {num : Int} (inside : Inside (.querySet query keyword values num))
    (shape : Shape live fresh w) : Did live fresh (.querySet query keyword values num)
      (dasiQuerySet query keyword values num w) := by
  refine did_void ⟨rfl, rfl⟩ (triple_asserts ?_) shape
  rintro ⟨given, hkeyword, hvalues, nonnegative, -⟩
  obtain ⟨elements, rfl⟩ := Option.isSome_iff_exists.mp hvalues
  have room : num.toNat ≤ elements.length := by
    have bound : num ≤ elements.length := inside
    omega
  exact steady_bind (steady_collectValues room) fun vals =>
    steady_bind (steady_deref given owned) fun q =>
    steady_bind (steady_readCStr hkeyword) fun _ => steady_assign given owned _

theorem dasiQueryGet_did {query : Ptr} (owned : Owned live .query query) (keyword : CStr)
    (num : Int) (value : Ptr) (shape : Shape live fresh w) :
    Did live fresh (.queryGet query keyword num value)
      (dasiQueryGet query keyword num value w) := by
  refine did_on ⟨rfl, rfl⟩ (fun hold => hold.1) owned ?_ shape
  rintro ⟨-, hkeyword, hvalue, -⟩ q
  refine steady_bind (steady_readCStr hkeyword) fun _ => steady_bind (steady_raising _)
    fun values => triple_asserts ?_
  rintro ⟨inside, -⟩
  have room : num.toNat < values.length := of_decide_eq_true inside
  rw [List.getElem?_eq_getElem room]
  exact steady_writeText hvalue _

theorem dasiArchive_did {P : Type} (env : Environment F P D W) {dasi key : Ptr}
    (session : Owned live .session dasi) (owned : Owned live .key key) {data : CData}
    {length : Int} (inside : Inside (.archive dasi key data length))
    (shape : Shape live fresh w) : Did live fresh (.archive dasi key data length)
      (dasiArchive env dasi key data length w) := by
  refine did_void ⟨rfl, rfl⟩ (triple_asserts ?_) shape
  rintro ⟨hdasi, hkey, hdata, -⟩
  obtain ⟨bytes, rfl⟩ := Option.isSome_iff_exists.mp hdata
  have room : length.toNat ≤ bytes.length := by
    have bound : length ≤ bytes.length := inside
    omega
  refine steady_bind (steady_deref hdasi session) fun s =>
    steady_bind (steady_deref hkey owned) fun k => ?_
  simp only [readData, pure_bind, Session.dasiArchive]
  split
  · exact steady_throw _
  · simp only [Session.archive, Session.readRegion, if_pos room]
    exact steady_outside _

theorem dasiRetrieveRead_did {P : Type} (env : Environment F P D W) {retrieve : Ptr}
    (owned : Owned live .retrieve retrieve) (data length : Ptr) (shape : Shape live fresh w) :
    Did live fresh (.retrieveRead retrieve data length)
      (dasiRetrieveRead env retrieve data length w) := by
  refine did_body ⟨rfl, rfl⟩ (triple_asserts ?_) shape
  rintro ⟨given, hdata, hlength, -⟩
  refine steady_bind (steady_readNumber hlength) fun n =>
    steady_bind (steady_deref (A := CHandles.DasiRetrieve D) given owned) fun r => ?_
  refine (Triple.get fun _ shape => shape).bind fun w' => ?_
  refine steady_bind (steady_modify (fun _ => by funext k q; cases k <;> rfl) fun _ => rfl)
    fun _ => steady_bind (steady_assign given owned _) fun _ =>
    steady_bind (steady_raising _) fun read => steady_bind (steady_writeBuffer hdata _) fun _ =>
    steady_bind (steady_writeNumber hlength _) fun _ => steady_pure _

/-- What every call does to the objects, when those behind its handles exist. -/
theorem call_did {P : Type} (env : Environment F P D W) (asserted : Asserted c) (inside : Inside c)
    (owned : ∀ u ∈ uses c, Owned live u.1 u.2) (shape : Shape live fresh w) :
    Did live fresh c (runCall env c w) := by
  have first : ∀ {u v}, uses c = u :: v → Owned live u.1 u.2 := fun h =>
    owned _ (h ▸ List.mem_cons_self)
  have second : ∀ {u u' v}, uses c = u :: u' :: v → Owned live u'.1 u'.2 := fun h =>
    owned _ (h ▸ List.mem_cons_of_mem _ List.mem_cons_self)
  cases c with
  | version version =>
    cases version with
    | none => exact False.elim asserted
    | some p => exact .kept ⟨rfl, rfl⟩ (shape_texts w _ shape)
  | vcsVersion sha1 =>
    cases sha1 with
    | none => exact False.elim asserted
    | some p => exact .kept ⟨rfl, rfl⟩ (shape_texts w _ shape)
  | initialiseApi =>
    refine did_void ⟨rfl, rfl⟩ ((Triple.get fun _ shape => shape).bind fun w => ?_) shape
    split
    · exact steady_pure _
    · exact steady_bind (steady_outside _) fun _ =>
        steady_modify (fun _ => by funext k q; cases k <;> rfl) fun _ => rfl
  | open_ dasi config =>
    refine did_new ⟨rfl, rfl⟩ (fun hold => hold.1) ?_ shape
    rintro ⟨-, hconfig, -⟩ cell rfl
    exact (steady_readCStr hconfig).bind fun _ => (steady_outside _).bind fun session =>
      triple_make cell session
  | close dasi => exact did_destroy ⟨rfl, rfl⟩ (first rfl) shape
  | archive dasi key data length =>
    exact dasiArchive_did env (first rfl) (second rfl) inside shape
  | flush dasi =>
    exact did_on ⟨rfl, rfl⟩ (fun hold => hold.1) (first rfl) (fun _ _ => steady_outside _) shape
  | list dasi query list =>
    refine did_new ⟨rfl, rfl⟩ (fun hold => hold.2.2.1) ?_ shape
    rintro ⟨hdasi, hquery, -⟩ cell rfl
    exact (steady_deref (A := F) hdasi (first rfl)).bind fun f =>
      (steady_deref hquery (second rfl)).bind fun q => (steady_outside _).bind fun iter =>
      (steady_raising _).bind fun handle => triple_make cell handle
  | freeList list => exact did_delete ⟨rfl, rfl⟩ (first rfl) shape
  | listCount list count =>
    refine did_on ⟨rfl, rfl⟩ (fun hold => hold.1) (first rfl) ?_ shape
    rintro ⟨-, hcount, -⟩ l
    exact steady_bind (steady_raising _) fun _ => steady_writeNumber hcount _
  | listNext list => exact did_advance ⟨rfl, rfl⟩ (first rfl) shape
  | listAttrs list key timestamp uri offset length =>
    refine did_attrs ⟨rfl, rfl⟩ (first rfl) (fun l attrs answered => ?_) shape
    obtain rfl := answer_of_assert answered
    exact fits_of _ _ key timestamp uri offset length
  | retrieve dasi query retrieve =>
    refine did_new ⟨rfl, rfl⟩ (fun hold => hold.2.2.1) ?_ shape
    rintro ⟨hdasi, hquery, -⟩ cell rfl
    exact (steady_deref (A := F) hdasi (first rfl)).bind fun f =>
      (steady_deref hquery (second rfl)).bind fun q => (steady_outside _).bind fun iter =>
      (steady_raising _).bind fun handle => triple_make cell handle
  | freeRetrieve retrieve => exact did_destroy ⟨rfl, rfl⟩ (first rfl) shape
  | retrieveRead retrieve data length =>
    exact dasiRetrieveRead_did env (first rfl) data length shape
  | retrieveCount retrieve count =>
    refine did_on ⟨rfl, rfl⟩ (fun hold => hold.1) (first rfl) ?_ shape
    rintro ⟨-, hcount, -⟩ r
    exact steady_bind (steady_raising _) fun _ => steady_writeNumber hcount _
  | retrieveNext retrieve => exact did_advance ⟨rfl, rfl⟩ (first rfl) shape
  | retrieveAttrs retrieve key timestamp offset length =>
    have fits : ∀ (r : CHandles.DasiRetrieve D) (attrs : Attrs),
        CHandles.dasiRetrieveAttrs r
          ⟨key.isSome, timestamp.isSome, false, offset.isSome, length.isSome⟩ = .ok attrs →
        Fits attrs key timestamp none offset length := by
      intro r attrs answered
      obtain rfl := answer_of_assert answered
      exact fits_of _ _ key timestamp none offset length
    exact did_attrs ⟨rfl, rfl⟩ (first rfl) fits shape
  | wipe dasi query doit all wipe =>
    refine did_new ⟨rfl, rfl⟩ (fun hold => hold.2.2.2.2.1) ?_ shape
    rintro ⟨hdasi, hquery, hdoit, hall, -⟩ cell rfl
    exact (steady_deref (A := F) hdasi (first rfl)).bind fun f =>
      (steady_deref hquery (second rfl)).bind fun q => (steady_readNumber hdoit).bind fun _ =>
      (steady_readNumber hall).bind fun _ => (steady_outside _).bind fun iter =>
      (steady_raising _).bind fun handle => triple_make cell handle
  | freeWipe wipe => exact did_delete ⟨rfl, rfl⟩ (first rfl) shape
  | wipeNext wipe => exact did_advance ⟨rfl, rfl⟩ (first rfl) shape
  | wipeGetValue wipe value =>
    refine did_on ⟨rfl, rfl⟩ (fun hold => hold.1) (first rfl) (fun _ h => ?_) shape
    exact steady_getValue
  | purge dasi query doit purge =>
    refine did_new ⟨rfl, rfl⟩ (fun hold => hold.2.2.2.1) ?_ shape
    rintro ⟨hdasi, hquery, hdoit, -⟩ cell rfl
    exact (steady_deref (A := F) hdasi (first rfl)).bind fun f =>
      (steady_deref hquery (second rfl)).bind fun q => (steady_readNumber hdoit).bind fun _ =>
      (steady_outside _).bind fun iter => (steady_raising _).bind fun handle =>
      triple_make cell handle
  | freePurge purge => exact did_delete ⟨rfl, rfl⟩ (first rfl) shape
  | purgeNext purge => exact did_advance ⟨rfl, rfl⟩ (first rfl) shape
  | purgeGetValue purge value =>
    refine did_on ⟨rfl, rfl⟩ (fun hold => hold.1) (first rfl) (fun _ h => ?_) shape
    exact steady_getValue
  | newKey key =>
    exact did_new ⟨rfl, rfl⟩ (fun hold => hold.1) (by
      rintro - cell rfl
      exact triple_make cell Key.new) shape
  | newKeyFromString key str =>
    refine did_new ⟨rfl, rfl⟩ (fun hold => hold.1) ?_ shape
    rintro ⟨-, hstr, -⟩ cell rfl
    exact (steady_readCStr hstr).bind fun _ => (steady_raising _).bind fun k => triple_make cell k
  | freeKey key => exact did_delete ⟨rfl, rfl⟩ (first rfl) shape
  | keyCompare key other result =>
    refine did_on ⟨rfl, rfl⟩ (fun hold => hold.1) (first rfl) ?_ shape
    rintro ⟨-, hother, hresult, -⟩ a
    exact steady_bind (steady_deref hother (second rfl)) fun b => steady_writeNumber hresult _
  | keySet key keyword value =>
    refine did_on ⟨rfl, rfl⟩ (fun hold => hold.1) (first rfl) ?_ shape
    rintro ⟨given, hkeyword, hvalue, -⟩ k
    exact steady_bind (steady_readCStr hkeyword) fun _ =>
      steady_bind (steady_readCStr hvalue) fun _ => steady_assign given (first rfl) _
  | keyGetIndex key n keyword value => exact dasiKeyGetIndex_did (first rfl) n keyword value shape
  | keyGet key keyword value =>
    refine did_on ⟨rfl, rfl⟩ (fun hold => hold.1) (first rfl) ?_ shape
    rintro ⟨-, hkeyword, hvalue, -⟩ k
    exact steady_bind (steady_readCStr hkeyword) fun _ =>
      steady_bind (steady_raising _) fun _ => steady_writeText hvalue _
  | keyHas key keyword has =>
    refine did_on ⟨rfl, rfl⟩ (fun hold => hold.1) (first rfl) ?_ shape
    rintro ⟨-, hkeyword, hhas, -⟩ k
    exact steady_bind (steady_readCStr hkeyword) fun _ => steady_writeNumber hhas _
  | keyCount key count =>
    refine did_on ⟨rfl, rfl⟩ (fun hold => hold.1) (first rfl) ?_ shape
    rintro ⟨-, hcount, -⟩ k
    exact steady_writeNumber hcount _
  | keyErase key keyword =>
    refine did_on ⟨rfl, rfl⟩ (fun hold => hold.1) (first rfl) ?_ shape
    rintro ⟨given, hkeyword, -⟩ k
    exact steady_bind (steady_readCStr hkeyword) fun _ => steady_assign given (first rfl) _
  | keyClear key =>
    refine did_on ⟨rfl, rfl⟩ (fun hold => hold.1) (first rfl) ?_ shape
    rintro ⟨given, -⟩ k
    exact steady_assign given (first rfl) _
  | newQuery query =>
    exact did_new ⟨rfl, rfl⟩ (fun hold => hold.1) (by
      rintro - cell rfl
      exact triple_make cell Query.new) shape
  | newQueryFromString query str =>
    refine did_new ⟨rfl, rfl⟩ (fun hold => hold.1) ?_ shape
    rintro ⟨-, hstr, -⟩ cell rfl
    exact (steady_readCStr hstr).bind fun _ => (steady_raising _).bind fun q => triple_make cell q
  | freeQuery query => exact did_delete ⟨rfl, rfl⟩ (first rfl) shape
  | querySet query keyword values num => exact dasiQuerySet_did (first rfl) keyword inside shape
  | queryAppend query keyword value =>
    refine did_on ⟨rfl, rfl⟩ (fun hold => hold.1) (first rfl) ?_ shape
    rintro ⟨given, hkeyword, hvalue, -⟩ q
    exact steady_bind (steady_readCStr hkeyword) fun _ =>
      steady_bind (steady_readCStr hvalue) fun _ => steady_assign given (first rfl) _
  | queryGet query keyword num value => exact dasiQueryGet_did (first rfl) keyword num value shape
  | queryHas query keyword has =>
    refine did_on ⟨rfl, rfl⟩ (fun hold => hold.1) (first rfl) ?_ shape
    rintro ⟨-, hkeyword, hhas, -⟩ q
    exact steady_bind (steady_readCStr hkeyword) fun _ => steady_writeNumber hhas _
  | queryKeywordCount query count =>
    refine did_on ⟨rfl, rfl⟩ (fun hold => hold.1) (first rfl) ?_ shape
    rintro ⟨-, hcount, -⟩ q
    exact steady_writeNumber hcount _
  | queryValueCount query keyword count =>
    refine did_on ⟨rfl, rfl⟩ (fun hold => hold.1) (first rfl) ?_ shape
    rintro ⟨given, hcount, -⟩ q
    have hkeyword : keyword.isSome = true := by
      obtain ⟨a, rfl⟩ := Option.isSome_iff_exists.mp given
      obtain ⟨n, rfl⟩ := Option.isSome_iff_exists.mp hcount
      cases keyword with
      | none => exact False.elim asserted
      | some text => rfl
    exact steady_bind (steady_readCStr hkeyword) fun _ =>
      steady_bind (steady_raising _) fun _ => steady_writeNumber hcount _
  | queryErase query keyword =>
    refine did_on ⟨rfl, rfl⟩ (fun hold => hold.1) (first rfl) ?_ shape
    rintro ⟨given, hkeyword, -⟩ q
    exact steady_bind (steady_readCStr hkeyword) fun _ => steady_assign given (first rfl) _
  | queryClear query =>
    refine did_on ⟨rfl, rfl⟩ (fun hold => hold.1) (first rfl) ?_ shape
    rintro ⟨given, -⟩ q
    exact steady_assign given (first rfl) _

end Calls

/-- The books of a caller: the kinds of the objects that are its own. -/
abbrev Ledger := Address → Option Kind

/-- The books after a call, from what the caller can see: the code, and the cell
that a new handle is read from. -/
def record (ledger : Ledger) (c : Call) : Exit × World F D W → Ledger
  | (.returned .success, w) =>
    match makes c, frees c with
    | some (kind, cell), _ =>
      match w.handles cell with
      | some p => Function.update ledger p (some kind)
      | none => ledger
    | none, some (_, p) => Function.update ledger p none
    | none, none => ledger
  | _ => ledger

/-- A call that the books allow: each handle is null or an own one of its kind. -/
structure Permitted (ledger : Ledger) (c : Call) : Prop where
  asserted : Asserted c
  inside : Inside c
  owned : ∀ u ∈ uses c, ∀ p, u.2 = some p → ledger p = some u.1

/-- The books show exactly what exists. -/
structure Books (ledger : Ledger) (w : World F D W) : Prop where
  live : ∀ kind p, alive w kind p = true ↔ ledger p = some kind
  unused : ∀ p, w.fresh ≤ p → ledger p = none

/-- A caller that keeps books, and the library. -/
def keepBooks {P : Type} (env : Environment F P D W) (s : Ledger × World F D W) (c : Call) :
    Exit × (Ledger × World F D W) :=
  let out := runCall env c s.2
  (out.1, record s.1 c out, out.2)

section Books
variable {ledger : Ledger} {c : Call} {w w' : World F D W} {kind : Kind} {p : Address}

theorem frees_uses (deletes : frees c = some (kind, p)) :
    (kind, some p) ∈ uses c ∧ makes c = none := by
  cases c <;> first
    | cases deletes
    | (rename_i handle
       cases handle with
       | none => cases deletes
       | some a =>
         cases deletes
         exact ⟨List.mem_cons_self, rfl⟩)

theorem record_of_nothing (nothing : makes c = none ∧ frees c = none)
    (out : Exit × World F D W) : record ledger c out = ledger := by
  rcases out with ⟨exit, w⟩
  unfold record
  rw [nothing.1, nothing.2]
  split
  · rfl
  · rfl

theorem record_of_error {code : Code} (error : code.isError = true) (w : World F D W) :
    record ledger c (.returned code, w) = ledger := by
  cases code with
  | success => cases error
  | _ => rfl

theorem books_of_shape (books : Books ledger w) (shape : Shape (alive w) w.fresh w') :
    Books ledger w' := by
  constructor
  · intro k q
    rw [shape.1]
    exact books.live k q
  · intro q later
    exact books.unused q (shape.2 ▸ later)

theorem books_of_made (books : Books ledger w)
    (shape : Shape ((alive w).put kind w.fresh true) (w.fresh + 1) w') :
    Books (Function.update ledger w.fresh (some kind)) w' := by
  constructor
  · intro k q
    rw [shape.1, Objects.put]
    by_cases here : q = w.fresh
    · subst here
      have before : alive w k w.fresh = false := by
        by_contra exist
        have owned := (books.live k w.fresh).mp (by simpa using exist)
        cases owned.symm.trans (books.unused w.fresh (Nat.le_refl _))
      rw [Function.update_self, Option.some_inj]
      by_cases same : k = kind
      · simp only [same, and_self, if_true]
      · simp only [same, false_and, if_false, before, Bool.false_eq_true, Ne.symm same]
    · rw [Function.update_of_ne here, if_neg fun both => here both.2]
      exact books.live k q
  · intro q later
    have beyond : w.fresh < q := by
      rw [shape.2] at later
      exact later
    rw [Function.update_of_ne (Nat.ne_of_gt beyond)]
    exact books.unused q (Nat.le_of_lt beyond)

theorem books_of_freed (books : Books ledger w) (owned : ledger p = some kind)
    (shape : Shape ((alive w).put kind p false) w.fresh w') :
    Books (Function.update ledger p none) w' := by
  constructor
  · intro k q
    rw [shape.1, Objects.put]
    by_cases here : q = p
    · subst here
      rw [Function.update_self]
      by_cases same : k = kind
      · simp only [same, and_self, if_true, Bool.false_eq_true, reduceCtorEq]
      · rw [if_neg fun both => same both.1, books.live, owned, Option.some_inj]
        simp only [Ne.symm same, reduceCtorEq]
    · rw [Function.update_of_ne here, if_neg fun both => here both.2]
      exact books.live k q
  · intro q later
    rw [shape.2] at later
    by_cases here : q = p
    · rw [here, Function.update_self]
    · rw [Function.update_of_ne here]
      exact books.unused q later

/-- A permitted call returns a code, and the books stay right. -/
theorem permitted_step {P : Type} (env : Environment F P D W) {s : Ledger × World F D W}
    (books : Books s.1 s.2) (permitted : Permitted s.1 c) :
    (∃ code, (keepBooks env s c).1 = .returned code) ∧
      Books (keepBooks env s c).2.1 (keepBooks env s c).2.2 := by
  obtain ⟨ledger, w⟩ := s
  have owned : ∀ u ∈ uses c, Owned (alive w) u.1 u.2 := fun u used p here =>
    (books.live u.1 p).mpr (permitted.owned u used p here)
  have did := call_did env permitted.asserted permitted.inside owned ⟨rfl, rfl⟩
  simp only [keepBooks]
  cases out : runCall env c w with
  | mk exit w' =>
    rw [out] at did
    cases did with
    | failed error shape =>
      refine ⟨⟨_, rfl⟩, ?_⟩
      rw [record_of_error error]
      exact books_of_shape books shape
    | kept nothing shape =>
      refine ⟨⟨_, rfl⟩, ?_⟩
      rw [record_of_nothing nothing]
      exact books_of_shape books shape
    | made creates made =>
      refine ⟨⟨_, rfl⟩, ?_⟩
      simp only [record, creates, made.2]
      exact books_of_made books made.1
    | freed deletes shape =>
      obtain ⟨used, creates⟩ := frees_uses deletes
      refine ⟨⟨_, rfl⟩, ?_⟩
      simp only [record, creates, deletes]
      exact books_of_freed books (permitted.owned _ used _ rfl) shape

/-- Every call of a caller that keeps to its books returns a code, whatever the
libraries below answer, and what exists at the end is what the books show. -/
theorem booked_programs_safe {P : Type} (env : Environment F P D W) {s : Ledger × World F D W}
    {calls : List Call} (books : Books s.1 s.2)
    (permitted : Refinements.Throughout (keepBooks env) (fun s c => Permitted s.1 c) s calls) :
    (∀ entry ∈ trace (keepBooks env) s calls, ∃ code, entry.2 = .returned code) ∧
      Books (after (keepBooks env) s calls).1 (after (keepBooks env) s calls).2 := by
  induction calls generalizing s with
  | nil => exact ⟨List.forall_mem_nil _, books⟩
  | cons c rest ih =>
    obtain ⟨returned, kept⟩ := permitted_step env books permitted.1
    obtain ⟨later, ends⟩ := ih kept permitted.2
    refine ⟨?_, ends⟩
    rw [trace_cons]
    exact List.forall_mem_cons.mpr ⟨returned, later⟩

end Books

/-- A key is made, set and freed beside a query that was there, and is freed too. -/
def keyAndQuery : List Call :=
  [.newKey (some 0), .keySet (some 1) (some (ascii "k")) (some (ascii "v")),
    .queryAppend (some 0) (some (ascii "k")) (some (ascii "v")), .freeKey (some 1),
    .freeQuery (some 0), .freeList none]

def queryOwned : Ledger := fun p => if p = 0 then some .query else none

theorem booked_programs_safe_sample :
    (∀ entry ∈ trace (keepBooks idle) (queryOwned, oneQuery) keyAndQuery,
      ∃ code, entry.2 = .returned code) ∧
      Books (after (keepBooks idle) (queryOwned, oneQuery) keyAndQuery).1
        (after (keepBooks idle) (queryOwned, oneQuery) keyAndQuery).2 := by
  have books : Books queryOwned oneQuery := by
    constructor
    · intro kind p
      by_cases first : p = 0
      · subst first
        cases kind <;> decide
      · cases kind <;> simp [alive, oneQuery, queryOwned, first]
    · intro p later
      exact if_neg (Nat.ne_of_gt later)
  have own : ∀ {ledger : Ledger} {kind : Kind} {a : Address}, ledger a = some kind →
      ∀ u ∈ [(kind, some a)], ∀ p, u.2 = some p → ledger p = some u.1 := by
    rintro ledger kind a owned u hu p here
    obtain rfl := List.mem_singleton.mp hu
    cases here
    exact owned
  apply booked_programs_safe idle books
  refine ⟨⟨trivial, trivial, List.forall_mem_nil _⟩, ⟨trivial, trivial, own rfl⟩,
    ⟨trivial, trivial, own rfl⟩, ⟨trivial, trivial, own rfl⟩, ⟨trivial, trivial, own rfl⟩,
    ⟨trivial, trivial, ?_⟩, trivial⟩
  intro u hu p here
  obtain rfl := List.mem_singleton.mp hu
  cases here

end ObjectLifetimes
