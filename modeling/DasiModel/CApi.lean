import DasiModel.RetrieveReading
import DasiModel.Session
import Mathlib.Logic.Function.Basic

/-!
# The C API

Every entry point of `dasi_c.h` that returns a code, on pointers that may be
null. Objects live in stores by their type, and so do the cells that output
pointers lead to. A body ends with a code, an exception or undefined behaviour;
the state reached stays in all cases. `try_catch` turns exceptions into codes,
and what is thrown outside it leaves the function.
-/

namespace CApi
open Texts Exceptions DasiKey Generators CHandles RetrieveReading Session

abbrev Address := Nat

/-- A pointer to an object or a cell; `none` is null. -/
abbrev Ptr := Option Address

/-- A `const char*` argument, with the bytes up to the end of the array behind it. -/
abbrev CStr := Option Bytes

/-- A `const void*` argument, with the array behind it. -/
abbrev CData := Option Bytes

/-- All that a call can change. -/
structure World (F D W : Type) where
  dasis : Address → Option F
  keys : Address → Option Key
  queries : Address → Option Query
  lists : Address → Option DasiList
  retrieves : Address → Option (DasiRetrieve D)
  wipes : Address → Option DasiWipe
  purges : Address → Option DasiPurge
  /-- Cells of type `dasi_x_t*`. -/
  handles : Address → Ptr
  /-- Cells of type `const char*`. -/
  texts : Address → CStr
  /-- Cells of type `long`, `int`, `dasi_bool_t` or `dasi_time_t`. -/
  numbers : Address → Int
  buffers : Address → Bytes
  fresh : Address
  initialised : Bool
  errorString : Bytes
  outside : W

/-- The libraries below, and the texts compiled in. Destructors return: C++ ends the program
if one throws. -/
structure Environment (F P D W : Type) where
  fdb : Fdb F W
  eckit : Eckit P D W
  /-- `Main::initialise(1, argv)` -/
  initialise : W → Except Exception Unit × W
  /-- The destructor of a session. -/
  destroySession : F → W → W
  /-- What becomes of a data handle: `close()` by its `AutoClose`, if there is one, and its
  destructor. -/
  destroyHandle : D → Bool → W → W
  split : Bytes → Bytes → List Bytes
  version : Bytes
  gitSha1 : Bytes

inductive Fault where
  | raised (x : Exception)
  | undefined

/-- How a call ends. -/
inductive Exit where
  | returned (code : Code)
  | escaped (x : Exception)
  | undefined

/-- The body of an entry point. -/
abbrev CBody (F D W : Type) := ExceptT Fault (StateM (World F D W))

abbrev Entry (F D W : Type) := World F D W → Exit × World F D W

section Bodies
variable {F P D W A : Type}

def raising : Except Exception A → CBody F D W A
  | .ok a => pure a
  | .error x => throw (.raised x)

theorem run_bind {B : Type} (body : CBody F D W A) (next : A → CBody F D W B)
    (w : World F D W) : (body >>= next).run w = match body.run w with
      | (.ok a, w) => (next a).run w
      | (.error x, w) => (.error x, w) := by
  change (match body w with | (r, w') => ExceptT.bindCont next r w') =
    (match body w with | (.ok a, w) => next a w | (.error x, w) => (.error x, w))
  rcases body w with ⟨x | a, w'⟩
  · rfl
  · rfl

/-- Several `ASSERT`s in turn. -/
def asserts : List (Bool × String) → CBody F D W Unit
  | [] => pure ()
  | (condition, text) :: rest => do
    raising (assert condition text)
    asserts rest

/-- `return try_catch([..] { .. });` -/
def tryCatchBody (body : CBody F D W Code) : Entry F D W := fun w =>
  match body.run w with
  | (.ok code, w) => (.returned code, w)
  | (.error (.raised x), w) => (.returned x.code, { w with errorString := x.what })
  | (.error .undefined, w) => (.undefined, w)

/-- The same for a body that returns nothing. -/
def tryCatchVoid (body : CBody F D W Unit) : Entry F D W :=
  tryCatchBody (do body; return .success)

/-- A body outside `try_catch`. -/
def uncaught (body : CBody F D W Unit) : Entry F D W := fun w =>
  match body.run w with
  | (.ok (), w) => (.returned .success, w)
  | (.error (.raised x), w) => (.escaped x, w)
  | (.error .undefined, w) => (.undefined, w)

/-- Where the objects of a type are kept. -/
class Stored (F D W A : Type) where
  objects : World F D W → Address → Option A
  withObjects : World F D W → (Address → Option A) → World F D W

instance : Stored F D W F := ⟨World.dasis, fun w s => { w with dasis := s }⟩
instance : Stored F D W Key := ⟨World.keys, fun w s => { w with keys := s }⟩
instance : Stored F D W Query := ⟨World.queries, fun w s => { w with queries := s }⟩
instance : Stored F D W DasiList := ⟨World.lists, fun w s => { w with lists := s }⟩
instance : Stored F D W (DasiRetrieve D) :=
  ⟨World.retrieves, fun w s => { w with retrieves := s }⟩
instance : Stored F D W DasiWipe := ⟨World.wipes, fun w s => { w with wipes := s }⟩
instance : Stored F D W DasiPurge := ⟨World.purges, fun w s => { w with purges := s }⟩

/-- `*p`; undefined for null and for what has been deleted. -/
def deref [Stored F D W A] (p : Ptr) : CBody F D W A := do
  match p.bind (Stored.objects (← get)) with
  | some a => return a
  | none => throw .undefined

theorem deref_run [Stored F D W A] (p : Ptr) (w : World F D W) :
    (deref p : CBody F D W A).run w = match p.bind (Stored.objects w) with
      | some a => (.ok a, w)
      | none => (.error .undefined, w) := by
  rw [deref, run_bind]
  change (match p.bind (Stored.objects w) with
    | some a => (pure a : CBody F D W A)
    | none => throw Fault.undefined).run w = _
  rcases p.bind (Stored.objects w) with _ | a
  · rfl
  · rfl

def assignObject [Stored F D W A] (p : Ptr) (a : Option A) : CBody F D W Unit := do
  match p with
  | some p => modify fun w =>
      Stored.withObjects w (Function.update (Stored.objects w) p a)
  | none => throw .undefined

/-- `new T(a)`. -/
def newObject [Stored F D W A] (a : A) : CBody F D W Address := do
  let p := (← get).fresh
  modify fun w => { w with fresh := p + 1 }
  assignObject (some p) (some a)
  return p

/-- `delete p`, for an object of type `A` whose destructor acts on the outside. -/
def destroyObject [Stored F D W A] (destructor : A → W → W) (p : Ptr) : CBody F D W Unit := do
  let a : A ← deref p
  assignObject p (none : Option A)
  modify fun w => { w with outside := destructor a w.outside }

/-- The same, where nothing else happens. -/
def deleteObject (A : Type) [Stored F D W A] (p : Ptr) : CBody F D W Unit := do
  let _ : A ← deref p
  assignObject p (none : Option A)

def writeHandle (p : Ptr) (value : Address) : CBody F D W Unit :=
  match p with
  | some p => modify fun w => { w with handles := Function.update w.handles p (some value) }
  | none => throw .undefined

def writeText (p : Ptr) (value : Bytes) : CBody F D W Unit :=
  match p with
  | some p => modify fun w => { w with texts := Function.update w.texts p (some value) }
  | none => throw .undefined

def writeNumber (p : Ptr) (value : Int) : CBody F D W Unit :=
  match p with
  | some p => modify fun w => { w with numbers := Function.update w.numbers p value }
  | none => throw .undefined

def writeBuffer (p : Ptr) (bytes : Bytes) : CBody F D W Unit :=
  match p with
  | some p => modify fun w =>
    let written := bytes ++ (w.buffers p).drop bytes.length
    { w with buffers := Function.update w.buffers p written }
  | none => throw .undefined

def readNumber (p : Ptr) : CBody F D W Int := do
  match p with
  | some p => return (← get).numbers p
  | none => throw .undefined

def readData : CData → CBody F D W Bytes
  | some bytes => return bytes
  | none => throw .undefined

/-- A string made from a `const char*`; undefined for null. -/
def readCStr : CStr → CBody F D W Bytes
  | some bytes => return cString bytes
  | none => throw .undefined

/-- An output that the function tests before writing. -/
def optionally (value : Option A) (write : A → CBody F D W Unit) : CBody F D W Unit :=
  match value with
  | some a => write a
  | none => return ()

/-- A call of a library acting on the outside. -/
def outside (f : W → Except Exception A × W) : CBody F D W A := do
  let (result, out) := f (← get).outside
  modify fun w => { w with outside := out }
  raising result

end Bodies

section Helpers
variable {F P D W : Type}

def dasiVersion (env : Environment F P D W) (version : Ptr) : Entry F D W := uncaught do
  asserts [(version.isSome, "version")]
  writeText version env.version

def dasiVcsVersion (env : Environment F P D W) (sha1 : Ptr) : Entry F D W := uncaught do
  asserts [(sha1.isSome, "sha1")]
  writeText sha1 env.gitSha1

def dasiInitialiseApi (env : Environment F P D W) : Entry F D W := tryCatchVoid do
  if (← get).initialised then return ()
  outside env.initialise
  modify fun w => { w with initialised := true }

end Helpers

section Sessions
variable {F P D W : Type} (env : Environment F P D W)

def dasiOpen (dasi : Ptr) (config : CStr) : Entry F D W := tryCatchVoid do
  asserts [(dasi.isSome, "dasi"), (config.isSome, "config")]
  let session ← outside (env.fdb.open_ (← readCStr config))
  writeHandle dasi (← newObject session)

def dasiClose (dasi : Ptr) : Entry F D W := tryCatchVoid do
  asserts [(dasi.isSome, "dasi")]
  destroyObject env.destroySession dasi

/-- Reading beyond the array of the data is undefined. -/
def dasiArchive (dasi key : Ptr) (data : CData) (length : Int) : Entry F D W := tryCatchVoid do
  asserts [(dasi.isSome, "dasi"), (key.isSome, "key"), (data.isSome, "data")]
  let session : F ← deref dasi
  let k : Key ← deref key
  let region ← readData data
  Session.dasiArchive (fun x => throw (.raised x))
    (fun handed => match handed.data with
      | some _ => outside (env.fdb.archive session handed)
      | none => throw .undefined) k region length

def dasiFlush (dasi : Ptr) : Entry F D W := tryCatchVoid do
  asserts [(dasi.isSome, "dasi")]
  let session : F ← deref dasi
  outside (env.fdb.flush session)

def dasiWipe (dasi query doit all wipe : Ptr) : Entry F D W := tryCatchVoid do
  asserts [(dasi.isSome, "dasi"), (query.isSome, "query"), (doit.isSome, "doit"),
    (all.isSome, "all"), (wipe.isSome, "wipe")]
  let session : F ← deref dasi
  let q : Query ← deref query
  let doit ← readNumber doit
  let all ← readNumber all
  let iter ← outside (env.fdb.wipe session (queryToMarsRequest q) (doit ≠ 0) true (all ≠ 0))
  let handle ← raising (newDasiWipe iter)
  writeHandle wipe (← newObject handle)

def dasiPurge (dasi query doit purge : Ptr) : Entry F D W := tryCatchVoid do
  asserts [(dasi.isSome, "dasi"), (query.isSome, "query"), (doit.isSome, "doit"),
    (purge.isSome, "purge")]
  let session : F ← deref dasi
  let q : Query ← deref query
  let doit ← readNumber doit
  let iter ← outside (env.fdb.purge session (queryToMarsRequest q) (doit ≠ 0) true)
  let handle ← raising (newDasiPurge iter)
  writeHandle purge (← newObject handle)

def dasiList (dasi query list : Ptr) : Entry F D W := tryCatchVoid do
  asserts [(dasi.isSome, "dasi"), (query.isSome, "query"), (list.isSome, "list")]
  let session : F ← deref dasi
  let q : Query ← deref query
  let iter ← outside (env.fdb.list session (queryToMarsRequest q) true)
  let handle ← raising (newDasiList iter)
  writeHandle list (← newObject handle)

def dasiRetrieve (dasi query retrieve : Ptr) : Entry F D W := tryCatchVoid do
  asserts [(dasi.isSome, "dasi"), (query.isSome, "query"), (retrieve.isSome, "retrieve")]
  let session : F ← deref dasi
  let q : Query ← deref query
  let iter ← outside (env.fdb.inspect session (queryToMarsRequest q))
  let handle : CHandles.DasiRetrieve D ← raising (newDasiRetrieve iter)
  writeHandle retrieve (← newObject handle)

end Sessions

section Iterations
variable {F P D W : Type}

/-- Run the body of a `next` function on the handle behind a pointer. -/
def advance {H : Type} [Stored F D W H] (next : H → Except Exception Code × H) (p : Ptr) :
    CBody F D W Code := do
  let (result, h) := next (← deref p)
  assignObject p (some h)
  raising result

def dasiFreeWipe (wipe : Ptr) : Entry F D W := tryCatchVoid do
  asserts [(wipe.isSome, "wipe")]
  deleteObject DasiWipe wipe

def dasiWipeNext (wipe : Ptr) : Entry F D W := tryCatchBody do
  asserts [(wipe.isSome, "wipe")]
  advance CHandles.dasiWipeNext wipe

def dasiWipeGetValue (wipe value : Ptr) : Entry F D W := tryCatchVoid do
  asserts [(wipe.isSome, "wipe")]
  let text ← raising (CHandles.dasiWipeGetValue (← deref wipe) value.isSome)
  optionally text (writeText value)

def dasiFreePurge (purge : Ptr) : Entry F D W := tryCatchVoid do
  asserts [(purge.isSome, "purge")]
  deleteObject DasiPurge purge

def dasiPurgeNext (purge : Ptr) : Entry F D W := tryCatchBody do
  asserts [(purge.isSome, "purge")]
  advance CHandles.dasiPurgeNext purge

def dasiPurgeGetValue (purge value : Ptr) : Entry F D W := tryCatchVoid do
  asserts [(purge.isSome, "purge")]
  let text ← raising (CHandles.dasiPurgeGetValue (← deref purge) value.isSome)
  optionally text (writeText value)

def dasiFreeList (list : Ptr) : Entry F D W := tryCatchVoid do
  asserts [(list.isSome, "list")]
  deleteObject DasiList list

def dasiListNext (list : Ptr) : Entry F D W := tryCatchBody do
  asserts [(list.isSome, "list")]
  advance CHandles.dasiListNext list

/-- The outputs of an `attrs` call, written in the order of the parameters. -/
def writeAttrs (attrs : Attrs) (key timestamp uri offset length : Ptr) : CBody F D W Unit := do
  optionally attrs.key fun k => do writeHandle key (← newObject k)
  optionally attrs.timestamp (writeNumber timestamp)
  optionally attrs.uri (writeText uri)
  optionally attrs.offset (writeNumber offset)
  optionally attrs.length (writeNumber length)

def dasiListAttrs (list key timestamp uri offset length : Ptr) : Entry F D W := tryCatchVoid do
  asserts [(list.isSome, "list")]
  let wanted : Wanted :=
    ⟨key.isSome, timestamp.isSome, uri.isSome, offset.isSome, length.isSome⟩
  let attrs ← raising (CHandles.dasiListAttrs (← deref list) wanted)
  writeAttrs attrs key timestamp uri offset length

def dasiListCount (list count : Ptr) : Entry F D W := tryCatchVoid do
  asserts [(list.isSome, "list"), (count.isSome, "count")]
  writeNumber count (← raising (CHandles.dasiListCount (← deref list)))

/-- The destructor of `dasi_retrieve_t`. -/
def destroyRetrieve (env : Environment F P D W) (r : CHandles.DasiRetrieve D) (w : W) : W :=
  match r.dh with
  | some d => env.destroyHandle d r.closer w
  | none => w

def dasiFreeRetrieve (env : Environment F P D W) (retrieve : Ptr) : Entry F D W :=
  tryCatchVoid do
    asserts [(retrieve.isSome, "retrieve")]
    destroyObject (destroyRetrieve env) retrieve

def dasiRetrieveRead (env : Environment F P D W) (retrieve data length : Ptr) : Entry F D W :=
  tryCatchBody do
    asserts [(retrieve.isSome, "retrieve"), (data.isSome, "data"), (length.isSome, "length")]
    let n ← readNumber length
    let r : CHandles.DasiRetrieve D ← deref retrieve
    let (result, r, out) := RetrieveReading.dasiRetrieveRead env.eckit r (← get).outside n
    modify fun w => { w with outside := out }
    assignObject retrieve (some r)
    let (code, bytes) ← raising result
    writeBuffer data bytes
    writeNumber length bytes.length
    return code

def dasiRetrieveCount (retrieve count : Ptr) : Entry F D W := tryCatchVoid do
  asserts [(retrieve.isSome, "retrieve"), (count.isSome, "count")]
  let r : CHandles.DasiRetrieve D ← deref retrieve
  writeNumber count (← raising (CHandles.dasiRetrieveCount r))

def dasiRetrieveNext (retrieve : Ptr) : Entry F D W := tryCatchBody do
  asserts [(retrieve.isSome, "retrieve")]
  advance (H := CHandles.DasiRetrieve D) CHandles.dasiRetrieveNext retrieve

def dasiRetrieveAttrs (retrieve key timestamp offset length : Ptr) : Entry F D W :=
  tryCatchVoid do
    asserts [(retrieve.isSome, "retrieve")]
    let wanted : Wanted := ⟨key.isSome, timestamp.isSome, false, offset.isSome, length.isSome⟩
    let r : CHandles.DasiRetrieve D ← deref retrieve
    let attrs ← raising (CHandles.dasiRetrieveAttrs r wanted)
    writeAttrs attrs key timestamp none offset length

end Iterations

section Keys
variable {F P D W : Type}

def dasiNewKey (key : Ptr) : Entry F D W := tryCatchVoid do
  asserts [(key.isSome, "key")]
  writeHandle key (← newObject Key.new)

def dasiNewKeyFromString (env : Environment F P D W) (key : Ptr) (str : CStr) : Entry F D W :=
  tryCatchVoid do
    asserts [(key.isSome, "key"), (str.isSome, "str")]
    let k ← raising (Key.ofString env.split (← readCStr str))
    writeHandle key (← newObject k)

def dasiFreeKey (key : Ptr) : Entry F D W := tryCatchVoid do
  asserts [(key.isSome, "key")]
  deleteObject Key key

def dasiKeyCompare (key other result : Ptr) : Entry F D W := tryCatchVoid do
  asserts [(key.isSome, "key"), (other.isSome, "other"), (result.isSome, "result")]
  let a : Key ← deref key
  let b : Key ← deref other
  writeNumber result (if a.lt b then -1 else if b.lt a then 1 else 0)

def dasiKeySet (key : Ptr) (keyword value : CStr) : Entry F D W := tryCatchVoid do
  asserts [(key.isSome, "key"), (keyword.isSome, "keyword"), (value.isSome, "value")]
  let k : Key ← deref key
  assignObject key (some (k.set (← readCStr keyword) (← readCStr value)))

def dasiKeyGetIndex (key : Ptr) (n : Int) (keyword value : Ptr) : Entry F D W := tryCatchVoid do
  asserts [(key.isSome, "key"), (decide (0 ≤ n), "n >= 0")]
  let k : Key ← deref key
  asserts [(decide (n.toNat < k.size), "static_cast<size_t>(n) < key->size()")]
  match k.items[n.toNat]? with
  | some binding =>
    if keyword.isSome then writeText keyword binding.1
    if value.isSome then writeText value binding.2
  | none => throw .undefined

def dasiKeyGet (key : Ptr) (keyword : CStr) (value : Ptr) : Entry F D W := tryCatchVoid do
  asserts [(key.isSome, "key"), (keyword.isSome, "keyword"), (value.isSome, "value")]
  let k : Key ← deref key
  writeText value (← raising (k.get (← readCStr keyword)))

/-- A `bool` written to a `dasi_bool_t`. -/
def boolNumber (b : Bool) : Int := if b then 1 else 0

def dasiKeyHas (key : Ptr) (keyword : CStr) (has : Ptr) : Entry F D W := tryCatchVoid do
  asserts [(key.isSome, "key"), (keyword.isSome, "keyword"), (has.isSome, "has")]
  let k : Key ← deref key
  writeNumber has (boolNumber (k.has (← readCStr keyword)))

def dasiKeyCount (key count : Ptr) : Entry F D W := tryCatchVoid do
  asserts [(key.isSome, "key"), (count.isSome, "count")]
  let k : Key ← deref key
  writeNumber count k.size

def dasiKeyErase (key : Ptr) (keyword : CStr) : Entry F D W := tryCatchVoid do
  asserts [(key.isSome, "key != nullptr"), (keyword.isSome, "keyword != nullptr")]
  let k : Key ← deref key
  assignObject key (some (k.erase (← readCStr keyword)))

def dasiKeyClear (key : Ptr) : Entry F D W := tryCatchVoid do
  asserts [(key.isSome, "key != nullptr")]
  let k : Key ← deref key
  assignObject key (some k.clear)

end Keys

section Queries
variable {F P D W : Type}

def dasiNewQuery (query : Ptr) : Entry F D W := tryCatchVoid do
  asserts [(query.isSome, "query")]
  writeHandle query (← newObject Query.new)

def dasiNewQueryFromString (env : Environment F P D W) (query : Ptr) (str : CStr) :
    Entry F D W := tryCatchVoid do
  asserts [(query.isSome, "query"), (str.isSome, "str")]
  let q ← raising (Query.ofString env.split (← readCStr str))
  writeHandle query (← newObject q)

def dasiFreeQuery (query : Ptr) : Entry F D W := tryCatchVoid do
  asserts [(query.isSome, "query")]
  deleteObject Query query

/-- The loop over `values[0]` to `values[num - 1]`; reading past the array is undefined. -/
def collectValues : List CStr → Nat → CBody F D W (List Bytes)
  | _, 0 => return []
  | [], _ + 1 => throw .undefined
  | value :: rest, num + 1 => do
    asserts [(value.isSome, "values[i]")]
    let head ← readCStr value
    let tail ← collectValues rest num
    return head :: tail

def dasiQuerySet (query : Ptr) (keyword : CStr) (values : Option (List CStr)) (num : Int) :
    Entry F D W := tryCatchVoid do
  asserts [(query.isSome, "query"), (keyword.isSome, "keyword"), (values.isSome, "values"),
    (decide (0 ≤ num), "num >= 0")]
  let vals ← collectValues (values.getD []) num.toNat
  let q : Query ← deref query
  assignObject query (some (q.set (← readCStr keyword) vals))

def dasiQueryAppend (query : Ptr) (keyword value : CStr) : Entry F D W := tryCatchVoid do
  asserts [(query.isSome, "query"), (keyword.isSome, "keyword"), (value.isSome, "value")]
  let q : Query ← deref query
  assignObject query (some (q.append (← readCStr keyword) (← readCStr value)))

def dasiQueryGet (query : Ptr) (keyword : CStr) (num : Int) (value : Ptr) : Entry F D W :=
  tryCatchVoid do
    asserts [(query.isSome, "query"), (keyword.isSome, "keyword"), (value.isSome, "value"),
      (decide (0 ≤ num), "num >= 0")]
    let q : Query ← deref query
    let values ← raising (q.get (← readCStr keyword))
    asserts [(decide (num.toNat < values.length), "num < values.size()")]
    match values[num.toNat]? with
    | some text => writeText value text
    | none => throw .undefined

def dasiQueryHas (query : Ptr) (keyword : CStr) (has : Ptr) : Entry F D W := tryCatchVoid do
  asserts [(query.isSome, "query"), (keyword.isSome, "keyword"), (has.isSome, "has")]
  let q : Query ← deref query
  writeNumber has (boolNumber (q.has (← readCStr keyword)))

def dasiQueryKeywordCount (query count : Ptr) : Entry F D W := tryCatchVoid do
  asserts [(query.isSome, "query"), (count.isSome, "count")]
  let q : Query ← deref query
  writeNumber count q.size

/-- The keyword is not asserted here. -/
def dasiQueryValueCount (query : Ptr) (keyword : CStr) (count : Ptr) : Entry F D W :=
  tryCatchVoid do
    asserts [(query.isSome, "query"), (count.isSome, "count")]
    let q : Query ← deref query
    let values ← raising (q.get (← readCStr keyword))
    writeNumber count values.length

def dasiQueryErase (query : Ptr) (keyword : CStr) : Entry F D W := tryCatchVoid do
  asserts [(query.isSome, "query != nullptr"), (keyword.isSome, "keyword != nullptr")]
  let q : Query ← deref query
  assignObject query (some (q.erase (← readCStr keyword)))

def dasiQueryClear (query : Ptr) : Entry F D W := tryCatchVoid do
  asserts [(query.isSome, "query != nullptr")]
  let q : Query ← deref query
  assignObject query (some q.clear)

end Queries

/-- A call of an entry point that returns a code, with its arguments. -/
inductive Call where
  | version (version : Ptr)
  | vcsVersion (sha1 : Ptr)
  | initialiseApi
  | open_ (dasi : Ptr) (config : CStr)
  | close (dasi : Ptr)
  | archive (dasi key : Ptr) (data : CData) (length : Int)
  | flush (dasi : Ptr)
  | list (dasi query list : Ptr)
  | freeList (list : Ptr)
  | listCount (list count : Ptr)
  | listNext (list : Ptr)
  | listAttrs (list key timestamp uri offset length : Ptr)
  | retrieve (dasi query retrieve : Ptr)
  | freeRetrieve (retrieve : Ptr)
  | retrieveRead (retrieve data length : Ptr)
  | retrieveCount (retrieve count : Ptr)
  | retrieveNext (retrieve : Ptr)
  | retrieveAttrs (retrieve key timestamp offset length : Ptr)
  | wipe (dasi query doit all wipe : Ptr)
  | freeWipe (wipe : Ptr)
  | wipeNext (wipe : Ptr)
  | wipeGetValue (wipe value : Ptr)
  | purge (dasi query doit purge : Ptr)
  | freePurge (purge : Ptr)
  | purgeNext (purge : Ptr)
  | purgeGetValue (purge value : Ptr)
  | newKey (key : Ptr)
  | newKeyFromString (key : Ptr) (str : CStr)
  | freeKey (key : Ptr)
  | keyCompare (key other result : Ptr)
  | keySet (key : Ptr) (keyword value : CStr)
  | keyGetIndex (key : Ptr) (n : Int) (keyword value : Ptr)
  | keyGet (key : Ptr) (keyword : CStr) (value : Ptr)
  | keyHas (key : Ptr) (keyword : CStr) (has : Ptr)
  | keyCount (key count : Ptr)
  | keyErase (key : Ptr) (keyword : CStr)
  | keyClear (key : Ptr)
  | newQuery (query : Ptr)
  | newQueryFromString (query : Ptr) (str : CStr)
  | freeQuery (query : Ptr)
  | querySet (query : Ptr) (keyword : CStr) (values : Option (List CStr)) (num : Int)
  | queryAppend (query : Ptr) (keyword value : CStr)
  | queryGet (query : Ptr) (keyword : CStr) (num : Int) (value : Ptr)
  | queryHas (query : Ptr) (keyword : CStr) (has : Ptr)
  | queryKeywordCount (query count : Ptr)
  | queryValueCount (query : Ptr) (keyword : CStr) (count : Ptr)
  | queryErase (query : Ptr) (keyword : CStr)
  | queryClear (query : Ptr)

def runCall {F P D W : Type} (env : Environment F P D W) : Call → Entry F D W
  | .version version => dasiVersion env version
  | .vcsVersion sha1 => dasiVcsVersion env sha1
  | .initialiseApi => dasiInitialiseApi env
  | .open_ dasi config => dasiOpen env dasi config
  | .close dasi => dasiClose env dasi
  | .archive dasi key data length => dasiArchive env dasi key data length
  | .flush dasi => dasiFlush env dasi
  | .list dasi query list => dasiList env dasi query list
  | .freeList list => dasiFreeList list
  | .listCount list count => dasiListCount list count
  | .listNext list => dasiListNext list
  | .listAttrs list key timestamp uri offset length =>
    dasiListAttrs list key timestamp uri offset length
  | .retrieve dasi query retrieve => dasiRetrieve env dasi query retrieve
  | .freeRetrieve retrieve => dasiFreeRetrieve env retrieve
  | .retrieveRead retrieve data length => dasiRetrieveRead env retrieve data length
  | .retrieveCount retrieve count => dasiRetrieveCount retrieve count
  | .retrieveNext retrieve => dasiRetrieveNext retrieve
  | .retrieveAttrs retrieve key timestamp offset length =>
    dasiRetrieveAttrs retrieve key timestamp offset length
  | .wipe dasi query doit all wipe => dasiWipe env dasi query doit all wipe
  | .freeWipe wipe => dasiFreeWipe wipe
  | .wipeNext wipe => dasiWipeNext wipe
  | .wipeGetValue wipe value => dasiWipeGetValue wipe value
  | .purge dasi query doit purge => dasiPurge env dasi query doit purge
  | .freePurge purge => dasiFreePurge purge
  | .purgeNext purge => dasiPurgeNext purge
  | .purgeGetValue purge value => dasiPurgeGetValue purge value
  | .newKey key => dasiNewKey key
  | .newKeyFromString key str => dasiNewKeyFromString env key str
  | .freeKey key => dasiFreeKey key
  | .keyCompare key other result => dasiKeyCompare key other result
  | .keySet key keyword value => dasiKeySet key keyword value
  | .keyGetIndex key n keyword value => dasiKeyGetIndex key n keyword value
  | .keyGet key keyword value => dasiKeyGet key keyword value
  | .keyHas key keyword has => dasiKeyHas key keyword has
  | .keyCount key count => dasiKeyCount key count
  | .keyErase key keyword => dasiKeyErase key keyword
  | .keyClear key => dasiKeyClear key
  | .newQuery query => dasiNewQuery query
  | .newQueryFromString query str => dasiNewQueryFromString env query str
  | .freeQuery query => dasiFreeQuery query
  | .querySet query keyword values num => dasiQuerySet query keyword values num
  | .queryAppend query keyword value => dasiQueryAppend query keyword value
  | .queryGet query keyword num value => dasiQueryGet query keyword num value
  | .queryHas query keyword has => dasiQueryHas query keyword has
  | .queryKeywordCount query count => dasiQueryKeywordCount query count
  | .queryValueCount query keyword count => dasiQueryValueCount query keyword count
  | .queryErase query keyword => dasiQueryErase query keyword
  | .queryClear query => dasiQueryClear query

end CApi
