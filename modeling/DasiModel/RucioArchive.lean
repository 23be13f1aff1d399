import DasiModel.RucioNames
import DasiModel.Library.Machines
import Mathlib.Logic.Function.Basic

/-!
# Archiving with the Rucio backend

An archive call writes a temporary file, uploads it under the name of its key,
and attaches the items of the key one by one. The clients of Rucio are not part
of this repository: `Clients` are the two calls made, acting on a catalogue of
DIDs, and `Follows` ties them to the outcomes that one archive call meets.
-/

namespace RucioArchive
open Texts RucioNames Machines

/-- What a `dict.get` of an upload result finds: its truth and its `str()`. -/
structure PyValue where
  truthy : Bool
  text : PyStr
  deriving DecidableEq

/-- The entries of a dictionary that are looked at. -/
structure ResultDict where
  error : Option PyValue
  exception : Option PyValue
  deriving DecidableEq

inductive UploadResult where
  | none
  | bool (success : Bool)
  | dict (result : ResultDict)
  /-- A sequence that is no string; items that are no dictionaries are `none`. -/
  | sequence (items : List (Option ResultDict))
  | other
  deriving DecidableEq

inductive RucioException where
  /-- An exception of Rucio, with its own text. -/
  | noFilesUploaded (text : PyStr)
  | valueError (message : PyStr)
  | runtimeError (message : PyStr)
  | other (text : PyStr)
  deriving DecidableEq

/-- `str(exc)`. -/
def RucioException.str : RucioException → PyStr
  | .noFilesUploaded text => text
  | .valueError message => message
  | .runtimeError message => message
  | .other text => text

def RucioException.isNoFilesUploaded : RucioException → Bool
  | .noFilesUploaded _ => true
  | _ => false

/-- `result.get("error") or result.get("exception")`, if it is true. -/
def ResultDict.failure (result : ResultDict) : Option PyValue :=
  match result.error with
  | some value => if value.truthy then some value else result.exception.filter PyValue.truthy
  | none => result.exception.filter PyValue.truthy

structure Did where
  content : Bytes
  metadata : List (PyStr × PyStr)
  deriving DecidableEq

/-- The DIDs of one scope by name. -/
abbrev Catalogue := PyStr → Option Did

/-- The configuration of the backend. -/
structure Rucio where
  scope : PyStr
  rse : PyStr
  /-- `repr` of a text. -/
  repr : PyStr → PyStr

/-- `FileToUploadDict`; the local path is represented by the file's bytes. -/
structure FileToUpload where
  content : Bytes
  rse : PyStr
  didScope : PyStr
  didName : PyStr
  noRegister : Bool
  deriving DecidableEq

structure Clients where
  upload : FileToUpload → Catalogue → Except RucioException UploadResult × Catalogue
  setMetadata : (scope name key value : PyStr) → Catalogue →
    Except RucioException Unit × Catalogue

/-- `Rucio._validate_upload_result`. -/
def validateUploadResult (rucio : Rucio) (result : UploadResult) (filename : PyStr) :
    Except RucioException Unit :=
  let failed (text : PyStr) : Except RucioException Unit := .error (.runtimeError text)
  match result with
  | .none => .ok ()
  | .bool success =>
    if success then .ok ()
    else failed (py "Upload returned unsuccessful status for DID name " ++ rucio.repr filename)
  | .dict result =>
    match result.failure with
    | some error =>
      failed (py "Upload returned an error for DID name " ++ rucio.repr filename ++ py ": " ++
        error.text)
    | none => .ok ()
  | .sequence items =>
    if items = [] then
      failed (py "Upload returned an empty result for DID name " ++ rucio.repr filename)
    else
      let errors := items.filterMap (fun item => item.bind ResultDict.failure)
      if errors = [] then .ok ()
      else failed (py "Upload reported errors for DID name " ++ rucio.repr filename ++ py ": " ++
        (py "; ").intercalate (errors.map PyValue.text))
  | .other => .ok ()

/-- The loop over the metadata, and the errors it collects. -/
def setMetadata (rucio : Rucio) (clients : Clients) (filename : PyStr) :
    List (PyStr × PyStr) → Catalogue → List PyStr × Catalogue
  | [], cat => ([], cat)
  | (k, v) :: rest, cat =>
    match clients.setMetadata rucio.scope filename k v cat with
    | (.ok (), cat) => setMetadata rucio clients filename rest cat
    | (.error exc, cat) =>
      let (errors, cat) := setMetadata rucio clients filename rest cat
      ((rucio.repr k ++ py "=" ++ rucio.repr v ++ py ": " ++ exc.str) :: errors, cat)

/-- The `try` statement of `Rucio.archive`: whether the file was uploaded now. -/
def upload (rucio : Rucio) (clients : Clients) (filename : PyStr) (data : Bytes)
    (cat : Catalogue) : Except RucioException Bool × Catalogue :=
  let item : FileToUpload := ⟨data, rucio.rse, rucio.scope, filename, false⟩
  match clients.upload item cat with
  | (.ok result, cat) =>
    match validateUploadResult rucio result filename with
    | .ok () => (.ok true, cat)
    | .error exc => (.error exc, cat)
  -- "already present": only logged
  | (.error (.noFilesUploaded _), cat) => (.ok false, cat)
  | (.error exc, cat) => (.error exc, cat)

/-- `Rucio.archive`; `written` is how writing the temporary file ends. -/
def archive (rucio : Rucio) (clients : Clients) (key : KeyDict) (data : Bytes)
    (written : Except RucioException Unit) (cat : Catalogue) :
    Except RucioException Unit × Catalogue :=
  let filename := filename key
  if staysInside filename = false then
    (.error (.valueError (py "Unsafe filename generated from key: " ++ rucio.repr filename)), cat)
  else
    match written with
    | .error exc => (.error exc, cat)
    | .ok () =>
      match upload rucio clients filename data cat with
      | (.error exc, cat) => (.error exc, cat)
      | (.ok false, cat) => (.ok (), cat)
      | (.ok true, cat) =>
        match setMetadata rucio clients filename key.items cat with
        | ([], cat) => (.ok (), cat)
        | (errors, cat) =>
          (.error (.runtimeError (py "Upload succeeded but metadata update failed for " ++
            rucio.scope ++ py ":" ++ filename ++ py ": " ++ (py "; ").intercalate errors)), cat)

/-- What Rucio is relied on for: an upload under a new name ends as `uploaded` says
and stores the file unless it raises; under a name in use it raises `refused`, which is
`NoFilesUploaded` or another exception, and stores nothing; setting a keyword of a DID ends
as `accepted` says. -/
structure Follows (clients : Clients) (uploaded : Except RucioException UploadResult)
    (refused : RucioException) (accepted : PyStr → Except RucioException Unit) : Prop where
  absent (item : FileToUpload) (cat : Catalogue) : cat item.didName = none →
    clients.upload item cat = match uploaded with
      | .ok result =>
        (.ok result, Function.update cat item.didName (some ⟨item.content, []⟩))
      | .error exc => (.error exc, cat)
  present (item : FileToUpload) (cat : Catalogue) (did : Did) : cat item.didName = some did →
    clients.upload item cat = (.error refused, cat)
  metadata (scope name k v : PyStr) (cat : Catalogue) (did : Did) : cat name = some did →
    clients.setMetadata scope name k v cat = match accepted k with
      | .ok () =>
        (.ok (), Function.update cat name (some ⟨did.content, setEntry k v did.metadata⟩))
      | .error exc => (.error exc, cat)
  /-- `NoFilesUploaded` is raised for a name in use only. -/
  other : ∀ exc, uploaded = .error exc → exc.isNoFilesUploaded = false

/-- The surroundings of one archive call. -/
structure Attempt where
  clients : Clients
  written : Except RucioException Unit
  uploaded : Except RucioException UploadResult
  refused : RucioException
  accepted : PyStr → Except RucioException Unit
  follows : Follows clients uploaded refused accepted

/-- How an attempt ends that finds its name in use: `NoFilesUploaded` counts as stored. -/
def Attempt.whenPresent (attempt : Attempt) : Except RucioException Unit :=
  match attempt.written with
  | .error exc => .error exc
  | .ok () => if attempt.refused.isNoFilesUploaded then .ok () else .error attempt.refused

/-- Clients with given outcomes. -/
def Clients.answering (uploaded : Except RucioException UploadResult) (refused : RucioException)
    (accepted : PyStr → Except RucioException Unit) : Clients where
  upload item cat :=
    match cat item.didName with
    | some _ => (.error refused, cat)
    | none =>
      match uploaded with
      | .ok result => (.ok result, Function.update cat item.didName (some ⟨item.content, []⟩))
      | .error exc => (.error exc, cat)
  setMetadata _ name k v cat :=
    match cat name with
    | none => (.error (.other (py "Data identifier not found.")), cat)
    | some did =>
      match accepted k with
      | .ok () =>
        (.ok (), Function.update cat name (some ⟨did.content, setEntry k v did.metadata⟩))
      | .error exc => (.error exc, cat)

theorem Clients.answering_follows {uploaded : Except RucioException UploadResult}
    (refused : RucioException) (accepted : PyStr → Except RucioException Unit)
    (other : ∀ exc, uploaded = .error exc → exc.isNoFilesUploaded = false) :
    Follows (.answering uploaded refused accepted) uploaded refused accepted where
  absent item cat absent := by
    simp only [answering, absent]
  present item cat did present := by
    simp only [answering, present]
  metadata scope name k v cat did present := by
    simp only [answering, present]
  other := other

/-- The upload result passes `_validate_upload_result`. -/
def UploadResult.successful : UploadResult → Bool
  | .none => true
  | .bool success => success
  | .dict result => result.failure.isNone
  | .sequence items => items ≠ [] && (items.filterMap (fun i => i.bind ResultDict.failure)) = []
  | .other => true

theorem validateUploadResult_ok_iff (rucio : Rucio) (result : UploadResult) (filename : PyStr) :
    validateUploadResult rucio result filename = .ok () ↔ result.successful = true := by
  cases result with
  | none => simp [validateUploadResult, UploadResult.successful]
  | bool success => cases success <;> simp [validateUploadResult, UploadResult.successful]
  | dict result =>
    cases h : result.failure <;> simp [validateUploadResult, UploadResult.successful, h]
  | sequence items =>
    simp only [validateUploadResult, UploadResult.successful]
    by_cases empty : items = []
    · simp [empty]
    · by_cases clean : items.filterMap (fun item => item.bind ResultDict.failure) = []
      · simp only [if_neg empty, if_pos clean]
        simp [empty, clean]
      · simp only [if_neg empty, if_neg clean]
        simp [clean]
  | other => simp [validateUploadResult, UploadResult.successful]

section Calls
variable (rucio : Rucio) (attempt : Attempt)

/-- The items of a key that Rucio accepts. -/
def Attempt.attached (key : KeyDict) : List (PyStr × PyStr) :=
  key.items.filter (fun item => attempt.accepted item.1 = .ok ())

/-- The metadata loop appends the accepted items and reports the others. -/
theorem setMetadata_spec (name : PyStr) {items : List (PyStr × PyStr)} {did : Did}
    (distinct : ((did.metadata ++ items).map Prod.fst).Nodup) {cat : Catalogue}
    (present : cat name = some did) :
    (setMetadata rucio attempt.clients name items cat).2 = Function.update cat name
      (some ⟨did.content, did.metadata ++
        items.filter (fun item => attempt.accepted item.1 = .ok ())⟩) ∧
    ((setMetadata rucio attempt.clients name items cat).1 = [] ↔
      ∀ item ∈ items, attempt.accepted item.1 = .ok ()) := by
  induction items generalizing did cat with
  | nil =>
    refine ⟨?_, by simp [setMetadata]⟩
    have same : cat = Function.update cat name (some did) := by
      rw [← present, Function.update_eq_self]
    simpa only [setMetadata, List.filter_nil, List.append_nil] using same
  | cons item rest ih =>
    obtain ⟨k, v⟩ := item
    have call := attempt.follows.metadata rucio.scope name k v cat did present
    have fresh : k ∉ did.metadata.map Prod.fst := by
      rw [List.map_append, List.nodup_append] at distinct
      intro old
      exact distinct.2.2 k old k List.mem_cons_self rfl
    cases haccepted : attempt.accepted k with
    | ok _ =>
      rw [haccepted, setEntry_of_not_mem fresh] at call
      have distinct' : (((did.metadata ++ [(k, v)]) ++ rest).map Prod.fst).Nodup := by
        rwa [List.append_assoc, List.singleton_append]
      have later := @ih ⟨did.content, did.metadata ++ [(k, v)]⟩ distinct' _
        (Function.update_self name _ cat)
      rw [setMetadata, call]
      refine ⟨?_, ?_⟩
      · rw [later.1, Function.update_idem]
        simp [haccepted]
      · rw [later.2]
        simp [haccepted]
    | error exc =>
      rw [haccepted] at call
      have distinct' : ((did.metadata ++ rest).map Prod.fst).Nodup := by
        rw [List.map_append] at distinct ⊢
        exact distinct.sublist (List.Sublist.append_left (List.sublist_cons_self k _) _)
      have later := ih distinct' present
      simp only [setMetadata, call]
      refine ⟨?_, ?_⟩
      · rw [later.1]
        simp [haccepted]
      · simp [haccepted]

/-- A call whose temporary file cannot be written does nothing. -/
theorem archive_unwritten {key : KeyDict} {data : Bytes} {exc : RucioException}
    (unwritten : attempt.written = .error exc) (cat : Catalogue) :
    archive rucio attempt.clients key data attempt.written cat = (.error exc, cat) := by
  simp [archive, filename_staysInside, unwritten]

/-- A name in use is taken for the same object, stored already, unless the upload raises
something else. -/
theorem archive_present {key : KeyDict} {data : Bytes} {cat : Catalogue} {did : Did}
    (present : cat (filename key) = some did) :
    archive rucio attempt.clients key data attempt.written cat = (attempt.whenPresent, cat) := by
  have call := attempt.follows.present ⟨data, rucio.rse, rucio.scope, filename key, false⟩ cat did
    present
  rw [Attempt.whenPresent]
  cases written : attempt.written with
  | error exc => simp [archive, filename_staysInside]
  | ok _ =>
    simp only [archive, filename_staysInside, upload, call]
    cases attempt.refused <;> rfl

theorem archive_failed {key : KeyDict} {data : Bytes} (written : attempt.written = .ok ())
    {cat : Catalogue} (absent : cat (filename key) = none) {exc : RucioException}
    (failed : attempt.uploaded = .error exc) :
    archive rucio attempt.clients key data attempt.written cat = (.error exc, cat) := by
  have call := attempt.follows.absent ⟨data, rucio.rse, rucio.scope, filename key, false⟩ cat
    absent
  have other := attempt.follows.other exc failed
  rw [failed] at call
  simp only [archive, filename_staysInside, written, upload, call]
  cases exc with
  | noFilesUploaded text => cases other
  | valueError message => rfl
  | runtimeError message => rfl
  | other text => rfl

/-- The DID that a successful upload leaves behind. -/
def Attempt.stored (result : UploadResult) (key : KeyDict) (data : Bytes) : Did :=
  ⟨data, if result.successful then attempt.attached key else []⟩

/-- An upload under a new name stores the file; the call returns normally if the
result is a success and all the items are accepted. -/
theorem archive_stored {key : KeyDict} {data : Bytes} (written : attempt.written = .ok ())
    {cat : Catalogue} (absent : cat (filename key) = none) {result : UploadResult}
    (uploaded : attempt.uploaded = .ok result) :
    (archive rucio attempt.clients key data attempt.written cat).2 =
      Function.update cat (filename key) (some (attempt.stored result key data)) ∧
    ((archive rucio attempt.clients key data attempt.written cat).1 = .ok () ↔
      result.successful = true ∧ ∀ item ∈ key.items, attempt.accepted item.1 = .ok ()) := by
  have call := attempt.follows.absent ⟨data, rucio.rse, rucio.scope, filename key, false⟩ cat
    absent
  rw [uploaded] at call
  cases checked : validateUploadResult rucio result (filename key) with
  | error exc =>
    have failure : result.successful = false := by
      by_contra success
      have valid := (validateUploadResult_ok_iff rucio result (filename key)).mpr
        (by simpa using success)
      rw [checked] at valid
      cases valid
    simp [archive, filename_staysInside, written, upload, call, checked, Attempt.stored, failure]
  | ok _ =>
    have success := (validateUploadResult_ok_iff rucio result (filename key)).mp checked
    have present : Function.update cat (filename key) (some ⟨data, []⟩) (filename key) =
        some ⟨data, []⟩ := Function.update_self _ _ _
    obtain ⟨hcat, herrors⟩ :=
      @setMetadata_spec rucio attempt (filename key) key.items ⟨data, []⟩ key.distinct _ present
    rw [Function.update_idem] at hcat
    cases hset : setMetadata rucio attempt.clients (filename key) key.items
        (Function.update cat (filename key) (some ⟨data, []⟩)) with
    | mk errors cat' =>
      rw [hset] at hcat herrors
      have stored : cat' = Function.update cat (filename key)
          (some (attempt.stored result key data)) := by
        rw [Attempt.stored, if_pos success]
        exact hcat
      simp only [success, true_and]
      rw [← herrors, ← stored]
      cases errors with
      | nil => simp [archive, filename_staysInside, written, upload, call, checked, hset]
      | cons first rest =>
        simp [archive, filename_staysInside, written, upload, call, checked, hset]

end Calls

end RucioArchive
