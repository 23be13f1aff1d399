import DasiModel.Paths

/-!
# Retrieving with the Rucio backend

A `RucioRetrieve` asks for the matching DIDs when `iter` is called on it and
downloads them one by one in `next`. The clients of Rucio are not part of this
repository: their answers are parameters. A download fills a temporary
directory, in which the file of the DID is looked for under its name first, and
then with `os.walk`.
-/

namespace RucioRetrieval
open Texts DirectoryTrees Paths

universe u v
variable {F : Type u} {V : Type v}

inductive RetrieveException where
  | stopIteration
  | noFilesDownloaded
  | fileNotFound
  /-- `RuntimeError`: the download of a DID did not complete, with its state. -/
  | incomplete (did state : PyStr)
  | other (text : PyStr)
  deriving DecidableEq

/-- What is looked at in a dictionary of `list_dids`. -/
structure DidEntry where
  name : Option PyStr
  did : Option PyStr
  deriving DecidableEq

/-- `entry.get("name", entry.get("did", ""))`. -/
def DidEntry.ownName (entry : DidEntry) : PyStr := entry.name.getD (entry.did.getD [])

structure ItemSpec where
  did : PyStr
  baseDir : PyStr
  noSubdir : Bool
  rse : PyStr
  forceScheme : PyStr
  deriving DecidableEq

/-- The exceptions of reading a file that was there. -/
inductive ReadException where
  | fileNotFound
  | other (text : PyStr)
  deriving DecidableEq

def ReadException.raised : ReadException → RetrieveException
  | .fileNotFound => .fileNotFound
  | .other text => .other text

/-- What is at a path: nothing, or something with the result of reading it. -/
abbrev AtPath := Option (Except ReadException Bytes)

/-- What a download returned, and what it left behind: `clientState` of each result, the
content of the base directory and what is at any path. Where the client wrote the file of
the DID, if it did, is not looked at. -/
structure Downloaded where
  clientStates : List (Option PyStr)
  content : Directory FileName
  fileAt : PyStr → AtPath
  ownPath : Option PyStr

structure RetrieveClients (F : Type u) (V : Type v) where
  listDids : (scope : PyStr) → (filters : F) → Except RetrieveException (List DidEntry)
  /-- `tempfile.TemporaryDirectory()` for the download of a DID. -/
  temporaryDirectory : (name : PyStr) → Except RetrieveException PyStr
  downloadDids : ItemSpec → Except RetrieveException Downloaded
  getMetadata : (scope name : PyStr) → Except RetrieveException (List (PyStr × V))

structure RucioRetrieveItem (V : Type v) where
  scope : PyStr
  name : PyStr
  data : Bytes
  metadata : List (PyStr × V)

/-- The arguments of the constructor. -/
structure Settings (F : Type u) (V : Type v) where
  clients : RetrieveClients F V
  scope : PyStr
  rse : PyStr
  protocol : PyStr
  filters : F

structure RucioRetrieve (F : Type u) (V : Type v) where
  settings : Settings F V
  didList : List DidEntry
  index : Nat
  current : Option (RucioRetrieveItem V)

/-- `RucioRetrieve.__init__`. -/
def RucioRetrieve.new (settings : Settings F V) : RucioRetrieve F V := ⟨settings, [], 0, none⟩

/-- The first file that `os.walk` comes to. -/
def firstFile : List (PyStr × List FileName) → Option PyStr
  | [] => none
  | (_, []) :: levels => firstFile levels
  | (root, file :: _) :: _ => some (join root file.1)

/-- `dest` in `_download`. -/
def Downloaded.dest (downloaded : Downloaded) (tmpdir name : PyStr) : PyStr :=
  let dest := join tmpdir name
  if (downloaded.fileAt dest).isSome then dest
  else
    let levels := walk (fun path (name : FileName) => join path name.1) tmpdir downloaded.content
    (firstFile levels).getD dest

/-- `f"{self._scope}:{name}"`. -/
def Settings.did (settings : Settings F V) (name : PyStr) : PyStr :=
  settings.scope ++ py ":" ++ name

/-- The states after which a download counts as complete. -/
def isComplete (state : PyStr) : Bool := state = py "DONE" || state = py "ALREADY_DONE"

/-- `RucioRetrieve._download`. -/
def Settings.download (settings : Settings F V) (name : PyStr) :
    Except RetrieveException Bytes :=
  match settings.clients.temporaryDirectory name with
  | .error exc => .error exc
  | .ok tmpdir =>
    match settings.clients.downloadDids
        ⟨settings.did name, tmpdir, true, settings.rse, settings.protocol⟩ with
    | .error exc => .error exc
    | .ok downloaded =>
      let dest := downloaded.dest tmpdir name
      match downloaded.clientStates.head?.join.filter (fun state => !isComplete state) with
      | some state => .error (.incomplete (settings.did name) state)
      | none =>
        match downloaded.fileAt dest with
        | none => .error .fileNotFound
        | some contents => contents.mapError ReadException.raised

/-- `NoFilesDownloaded` and `FileNotFoundError`, which `__next__` skips. -/
def RetrieveException.isSkipped : RetrieveException → Bool
  | .noFilesDownloaded => true
  | .fileNotFound => true
  | _ => false

/-- The item of a downloaded DID; its metadata are empty if they cannot be had. -/
def Settings.item (settings : Settings F V) (name : PyStr) (data : Bytes) :
    RucioRetrieveItem V where
  scope := settings.scope
  name := name
  data := data
  metadata := (settings.clients.getMetadata settings.scope name).toOption.getD []

namespace RucioRetrieve

/-- `RucioRetrieve.__iter__`. -/
def iter (retrieve : RucioRetrieve F V) :
    Except RetrieveException Unit × RucioRetrieve F V :=
  match retrieve.settings.clients.listDids retrieve.settings.scope retrieve.settings.filters with
  | .error exc => (.error exc, retrieve)
  | .ok entries => (.ok (), { retrieve with didList := entries, index := 0 })

/-- The loop of `RucioRetrieve.__next__`, with the entries from `self._index` on. -/
def nextFrom (retrieve : RucioRetrieve F V) :
    List DidEntry → Except RetrieveException (RucioRetrieveItem V) × RucioRetrieve F V
  | [] => (.error .stopIteration, retrieve)
  | entry :: rest =>
    let retrieve := { retrieve with index := retrieve.index + 1 }
    match retrieve.settings.download entry.ownName with
    | .error exc => if exc.isSkipped then nextFrom retrieve rest else (.error exc, retrieve)
    | .ok data =>
      let item := retrieve.settings.item entry.ownName data
      (.ok item, { retrieve with current := some item })

/-- `RucioRetrieve.__next__`. -/
def next (retrieve : RucioRetrieve F V) :
    Except RetrieveException (RucioRetrieveItem V) × RucioRetrieve F V :=
  retrieve.nextFrom (retrieve.didList.drop retrieve.index)

/-- `RucioRetrieve.__len__`. -/
def len (retrieve : RucioRetrieve F V) : Int := retrieve.didList.length

def key (retrieve : RucioRetrieve F V) : List (PyStr × V) :=
  match retrieve.current with
  | some item => item.metadata
  | none => []

def data (retrieve : RucioRetrieve F V) : Bytes :=
  match retrieve.current with
  | some item => item.data
  | none => []

/-- `None` without a current item, and if its metadata have no `created_at`. -/
def timestamp (retrieve : RucioRetrieve F V) : Option V :=
  retrieve.current.bind (fun item => item.metadata.lookup (py "created_at"))

def offset (_ : RucioRetrieve F V) : Int := 0

def length (retrieve : RucioRetrieve F V) : Int :=
  match retrieve.current with
  | some item => item.data.length
  | none => 0

section Calls
variable (retrieve : RucioRetrieve F V)

theorem iter_listed {entries : List DidEntry} (listed : retrieve.settings.clients.listDids
    retrieve.settings.scope retrieve.settings.filters = .ok entries) :
    retrieve.iter = (.ok (), { retrieve with didList := entries, index := 0 }) := by
  rw [iter, listed]

variable {retrieve}

theorem next_over (past : retrieve.didList.length ≤ retrieve.index) :
    retrieve.next = (.error .stopIteration, retrieve) := by
  rw [next, List.drop_eq_nil_of_le past, nextFrom]

/-- A DID that can be downloaded is yielded, and the index passes it. -/
theorem next_downloaded {entry : DidEntry} (own : retrieve.didList[retrieve.index]? = some entry)
    {data : Bytes} (downloaded : retrieve.settings.download entry.ownName = .ok data) :
    retrieve.next = (.ok (retrieve.settings.item entry.ownName data),
      { retrieve with
        index := retrieve.index + 1
        current := some (retrieve.settings.item entry.ownName data) }) := by
  obtain ⟨inside, rfl⟩ := List.getElem?_eq_some_iff.mp own
  rw [next, List.drop_eq_getElem_cons inside, nextFrom]
  simp only [downloaded]

end Calls

end RucioRetrieve

end RucioRetrieval
