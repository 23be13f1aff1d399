import DasiModel.RangeLoops
import DasiModel.Session

/-!
# The command line tools

`dasi-put`, `dasi-get`, `dasi-list` and `dasi-wipe` use the C++ interface. A tool opens
its session when it first needs one. Files are not part of this repository, and neither
is the reading of options.
-/

namespace Tools
open Texts Exceptions DasiKey Generators RetrieveReading Session Cursors Loops RangeLoops

variable {F P D W A : Type}

/-- What the tools are given: the libraries, and `--config`. -/
structure Environment (F P D W : Type) where
  fdb : Fdb F W
  eckit : Eckit P D W
  split : Bytes → Bytes → List Bytes
  /-- `path.fileHandle()` copied to a `MemoryHandle` -/
  readFile : Bytes → W → Except Exception Bytes × W
  /-- `dh->saveInto(*out_dh)`, with `out_dh` the file of the path -/
  saveInto : D → Bytes → W → Except Exception Unit × W
  configPath : Bytes

/-- What goes to the log. -/
inductive Line where
  | element (elem : ListElement) (withLocation : Bool)
  | entry (text : Bytes)
  /-- The error that no data was found for the query. -/
  | noData (query : Query)

/-- A tool at work. -/
structure State (F W : Type) where
  dasi_ : Option F
  printed : List Line
  outside : W

abbrev Tool (F W A : Type) := ExceptT Exception (StateM (State F W)) A

/-- A call of a library acting on the outside. -/
def outside (f : W → Except Exception A × W) : Tool F W A := do
  let (result, w) := f (← get).outside
  modify fun s => { s with outside := w }
  MonadExcept.ofExcept result

section Model
variable (env : Environment F P D W)

/-- `DASITool::dasi`. -/
def dasi : Tool F W F := do
  match (← get).dasi_ with
  | some session => return session
  | none =>
    let session ← outside (env.fdb.open_ env.configPath)
    modify fun s => { s with dasi_ := some session }
    return session

/-- One round of the loop of `DASIPut::execute`. -/
def putObject (key path : Bytes) : Tool F W Unit := do
  let k ← MonadExcept.ofExcept (Key.ofString env.split key)
  let bytes ← outside (env.readFile path)
  let session ← dasi env
  outside (Session.archive (fun handed => env.fdb.archive session handed) k bytes bytes.length)

/-- `DASIPut::execute`. -/
def put (args : List Bytes) : Tool F W Unit := do
  if args.length % 2 ≠ 0 then
    throw (.userError
      (ascii "Invalid arguments supplied. Key and data required for all objects"))
  (List.range (args.length / 2)).forM fun i =>
    putObject env (args.getD (2 * i) []) (args.getD (2 * i + 1) [])

/-- `DASIGet::execute`. -/
def get (query path : Bytes) : Tool F W Unit := do
  let q ← MonadExcept.ofExcept (Query.ofString env.split query)
  let session ← dasi env
  let iter ← outside (env.fdb.inspect session (queryToMarsRequest q))
  let result ← MonadExcept.ofExcept (RetrieveResultImpl.create iter)
  let dh ← outside (dataHandle env.eckit result)
  outside (env.saveInto dh path)

/-- A range-based `for` whose body prints and counts; the fuel is more than its rounds. The
count is an `int`: C++ leaves open what `count++` does at 2^31 - 1, here it wraps. -/
def printAll {G T : Type} [APIGeneratorImpl G T] (line : T → Line) (fuel : Nat)
    (generator : G) : Tool F W (BitVec 32) := do
  let body : List Line × BitVec 32 → T → Option Empty × (List Line × BitVec 32) :=
    fun (printed, count) t => (none, printed ++ [line t], count + 1)
  match forEach body fuel generator ((← MonadState.get).printed, 0) with
  | some (ending, (printed, count), _) => do
    modify fun s => { s with printed := printed }
    match ending with
    | .failed x => throw x
    | _ => return count
  | none => return 0

/-- `DASIList::execute`. -/
def list (location : Bool) (args : List Bytes) : Tool F W Unit :=
  args.forM fun arg => do
    let q ← MonadExcept.ofExcept (Query.ofString env.split arg)
    let session ← dasi env
    let iter ← outside (env.fdb.list session (queryToMarsRequest q) true)
    let generator : ListGeneratorImpl ← MonadExcept.ofExcept (LazyGenerator.create iter)
    let _ ← printAll (fun elem => .element elem location) (iter.length + 1) generator

/-- The text of `DASIToolException`; `shown` is the printed query. -/
def noData (shown : Query → Bytes) (q : Query) : Exception :=
  .eckit (ascii "No data found for query: " ++ shown q)

/-- `DASIWipe::execute`. -/
def wipe (shown : Query → Bytes) (doit all porcelain throw_ : Bool) (args : List Bytes) :
    Tool F W Unit :=
  args.forM fun arg => do
    let q ← MonadExcept.ofExcept (Query.ofString env.split arg)
    let session ← dasi env
    let iter ← outside (env.fdb.wipe session (queryToMarsRequest q) doit porcelain all)
    let generator : WipeGeneratorImpl ← MonadExcept.ofExcept (LazyGenerator.create iter)
    let count ← printAll Line.entry (iter.length + 1) generator
    if count = 0 then
      if doit && throw_ then throw (noData shown q)
      modify fun s => { s with printed := s.printed ++ [.noData q] }

end Model

end Tools
