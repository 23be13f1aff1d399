import DasiModel.S3Transfers
import DasiModel.Library.Refinements

/-!
# An S3 bucket as a store of objects

Below the root, a bucket holds objects by their relative paths. `Allowed` is
what may happen to such a store when requests fail on the way or their answers
get lost; the transfers keep to it, first on keys and then on the names that
stand for them. What is never lost or hidden follows for all runs.
-/

namespace S3Store
open Texts RucioNames S3Protocol S3Transfers Machines Refinements

universe u v
variable {W : Type u}

section Specification

/-- A transfer of objects with names. -/
inductive Request (N : Type u) where
  | connect
  | put (name : N) (source : Option Bytes)
  | get (name : N)
  | existing (name : Option N)
  | stat (name : N)
  | rename (name newName : N)
  | delete (name : N)

inductive Answer where
  | done
  | content (data : Bytes)
  | truth (answer : Bool)
  | measured (size : Nat) (adler32 : PyStr)
  | failed (exc : TransferException)
  deriving DecidableEq

/-- The store after an object has been moved. -/
def moved (s : Objects) (name newName : PyStr) (data : Bytes) : Objects :=
  Function.update (Function.update s newName (some data)) name none

/-- What a store of named objects allows: a request that fails may have had its effect,
half of it in a rename, but an object is reported missing only if it is. -/
inductive Allowed (adler32 : Bytes → PyStr) (s : Objects) :
    Request PyStr → Answer → Objects → Prop where
  | connected : Allowed adler32 s .connect .done s
  | refused {request : Request PyStr} {exc : TransferException} (other : exc ≠ .sourceNotFound) :
    Allowed adler32 s request (.failed exc) s
  | unsourced {name : PyStr} : Allowed adler32 s (.put name none) (.failed .sourceNotFound) s
  | stored {name : PyStr} {data : Bytes} :
    Allowed adler32 s (.put name (some data)) .done (Function.update s name (some data))
  | storedUnheard {name text : PyStr} {data : Bytes} :
    Allowed adler32 s (.put name (some data)) (.failed (.other text))
      (Function.update s name (some data))
  | read {name : PyStr} {data : Bytes} (held : s name = some data) :
    Allowed adler32 s (.get name) (.content data) s
  | notRead {name : PyStr} (absent : s name = none) :
    Allowed adler32 s (.get name) (.failed .sourceNotFound) s
  | seen {name : PyStr} : Allowed adler32 s (.existing (some name)) (.truth (s name).isSome) s
  | nowhere : Allowed adler32 s (.existing none) (.truth false) s
  | measured {name : PyStr} {data : Bytes} (held : s name = some data) :
    Allowed adler32 s (.stat name) (.measured data.length (adler32 data)) s
  | notMeasured {name : PyStr} (absent : s name = none) :
    Allowed adler32 s (.stat name) (.failed .sourceNotFound) s
  | renamed {name newName : PyStr} {data : Bytes} (apart : name ≠ newName)
    (held : s name = some data) :
    Allowed adler32 s (.rename name newName) .done (moved s name newName data)
  | renamedUnheard {name newName text : PyStr} {data : Bytes} (apart : name ≠ newName)
    (held : s name = some data) :
    Allowed adler32 s (.rename name newName) (.failed (.other text)) (moved s name newName data)
  | copied {name newName : PyStr} {data : Bytes} {exc : TransferException}
    (apart : name ≠ newName) (held : s name = some data) (other : exc ≠ .sourceNotFound) :
    Allowed adler32 s (.rename name newName) (.failed exc)
      (Function.update s newName (some data))
  | deleted {name : PyStr} : Allowed adler32 s (.delete name) .done (Function.update s name none)
  | deletedUnheard {name text : PyStr} :
    Allowed adler32 s (.delete name) (.failed (.other text)) (Function.update s name none)

/-- The names that a request may write to. -/
def Request.writes {N : Type u} : Request N → List N
  | .put name _ => [name]
  | .rename name newName => [name, newName]
  | .delete name => [name]
  | .connect | .get _ | .existing _ | .stat _ => []

def Request.map {N : Type u} {M : Type v} (f : N → M) : Request N → Request M
  | .connect => .connect
  | .put name source => .put (f name) source
  | .get name => .get (f name)
  | .existing name => .existing (name.map f)
  | .stat name => .stat (f name)
  | .rename name newName => .rename (f name) (f newName)
  | .delete name => .delete (f name)

/-- All the names of a request. -/
def Request.All {N : Type u} (P : N → Prop) : Request N → Prop
  | .connect => True
  | .put name _ => P name
  | .get name => P name
  | .existing name => ∀ n ∈ name, P n
  | .stat name => P name
  | .rename name newName => P name ∧ P newName
  | .delete name => P name

variable {adler32 : Bytes → PyStr} {s s' : Objects}

/-- Other objects stay as they are. -/
theorem Allowed.frame {request : Request PyStr} {answer : Answer}
    (allowed : Allowed adler32 s request answer s') {name : PyStr}
    (other : name ∉ request.writes) : s' name = s name := by
  cases allowed with
  | stored | storedUnheard | deleted | deletedUnheard =>
    exact Function.update_of_ne (fun same => other (List.mem_singleton.mpr same)) _ _
  | renamed | renamedUnheard =>
    obtain ⟨apart, apart'⟩ := not_or.mp (fun same => other (List.mem_pair.mpr same))
    rw [moved, Function.update_of_ne apart, Function.update_of_ne apart']
  | copied =>
    obtain ⟨-, apart'⟩ := not_or.mp (fun same => other (List.mem_pair.mpr same))
    exact Function.update_of_ne apart' _ _
  | _ => rfl

theorem update_comp {f : PyStr → PyStr} (inj : Function.Injective f) (s : Objects) (name : PyStr)
    (held : Option Bytes) : Function.update s (f name) held ∘ f =
      Function.update (s ∘ f) name held := by
  funext other
  by_cases same : other = name
  · subst same
    simp only [Function.comp_apply, Function.update_self]
  · have apart : f other ≠ f name := fun h => same (inj h)
    simp only [Function.comp_apply, Function.update_of_ne apart, Function.update_of_ne same]

/-- What is allowed on keys is allowed on the names that stand for them. -/
theorem Allowed.comp {f : PyStr → PyStr} (inj : Function.Injective f) {request : Request PyStr}
    {answer : Answer} (allowed : Allowed adler32 s (request.map f) answer s') :
    Allowed adler32 (s ∘ f) request answer (s' ∘ f) := by
  cases request with
  | connect =>
    cases allowed with
    | connected => exact .connected
    | refused other => exact .refused other
  | put name source =>
    cases allowed with
    | refused other => exact .refused other
    | unsourced => exact .unsourced
    | stored => exact update_comp inj s name _ ▸ .stored
    | storedUnheard => exact update_comp inj s name _ ▸ .storedUnheard
  | get name =>
    cases allowed with
    | refused other => exact .refused other
    | read held => exact .read held
    | notRead absent => exact .notRead absent
  | existing name =>
    cases name with
    | none =>
      cases allowed with
      | refused other => exact .refused other
      | nowhere => exact .nowhere
    | some name =>
      cases allowed with
      | refused other => exact .refused other
      | seen => exact .seen
  | stat name =>
    cases allowed with
    | refused other => exact .refused other
    | measured held => exact .measured held
    | notMeasured absent => exact .notMeasured absent
  | rename name newName =>
    cases allowed with
    | refused other => exact .refused other
    | renamed apart held =>
      rw [moved, update_comp inj, update_comp inj]
      exact .renamed (fun same => apart (congrArg f same)) held
    | renamedUnheard apart held =>
      rw [moved, update_comp inj, update_comp inj]
      exact .renamedUnheard (fun same => apart (congrArg f same)) held
    | copied apart held other =>
      rw [update_comp inj]
      exact .copied (fun same => apart (congrArg f same)) held other
  | delete name =>
    cases allowed with
    | refused other => exact .refused other
    | deleted => exact update_comp inj s name _ ▸ .deleted
    | deletedUnheard => exact update_comp inj s name _ ▸ .deletedUnheard

end Specification

section Steps

def Answer.of {A : Type} (wrap : A → Answer) : Except TransferException A → Answer
  | .ok a => wrap a
  | .error exc => .failed exc

/-- A transfer of LFNs, each by its PFN. -/
def step (getPath : PyStr → PyStr → PyStr) (t : Transfers W) (w : W) :
    Request Lfn → Answer × W
  | .connect => ((Answer.of (fun _ => .done) (t.connect w).1), (t.connect w).2)
  | .put lfn source =>
    let (result, w) := t.put source (t.protocol.pfn getPath lfn) w
    (.of (fun _ => .done) result, w)
  | .get lfn =>
    let (result, w) := t.get (t.protocol.pfn getPath lfn) w
    (.of .content result, w)
  | .existing lfn =>
    let (result, w) := t.existing (lfn.map (t.protocol.pfn getPath)) w
    (.of .truth result, w)
  | .stat lfn =>
    let (result, w) := t.stat (t.protocol.pfn getPath lfn) w
    (.of (fun stats => .measured stats.1 stats.2) result, w)
  | .rename lfn newLfn =>
    let (result, w) :=
      t.rename (t.protocol.pfn getPath lfn) (t.protocol.pfn getPath newLfn) w
    (.of (fun _ => .done) result, w)
  | .delete lfn =>
    let (result, w) := t.delete (t.protocol.pfn getPath lfn) w
    (.of (fun _ => .done) result, w)

variable {adler32 : Bytes → PyStr} {before target after s : Objects} {request : Request PyStr}

/-- A request that writes answers as is allowed, whether it got through or not. -/
theorem allowed_of_writes {result : Except S3Error Unit}
    (writes : Writes before target result after)
    (fails : ∀ exc, exc ≠ TransferException.sourceNotFound →
      Allowed adler32 s request (.failed exc) before)
    (done : Allowed adler32 s request .done target)
    (unheard : ∀ text, Allowed adler32 s request (.failed (.other text)) target) :
    Allowed adler32 s request
      (.of (fun _ => .done) (result.mapError S3Error.whenWriting)) after := by
  rcases result with (code | text) | _
  · obtain rfl : after = before := writes
    exact fails .serviceUnavailable (by decide)
  · rcases writes with rfl | rfl
    · exact fails (.other text) (by simp)
    · exact unheard text
  · obtain rfl : after = target := writes
    exact done

/-- A request that reads fails as a missing object only if there is none. -/
theorem failed_of_reads {A : Type} {name : PyStr} {shown : Bytes → A} {error : S3Error}
    (reads : Reads (s name) shown (.error error))
    (absent : s name = none → Allowed adler32 s request (.failed .sourceNotFound) s) :
    Allowed adler32 s request (.failed error.whenReading) s := by
  by_cases missing : error.whenReading = .sourceNotFound
  · rw [missing]
    exact absent (reads (isMissing_of_whenReading missing))
  · exact .refused missing

section Methods
variable {t : Transfers W} {objects : W → Objects} {path key : PyStr} {w : W}

variable (reliable : t.Reliable objects)
include reliable

theorem connect_allowed : Allowed t.adler32 (objects w) .connect
    (.of (fun _ => .done) (t.connect w).1) (objects (t.connect w).2) := by
  cases installed : t.s3 with
  | none =>
    simp only [Transfers.connect, installed]
    exact .refused nofun
  | some s3 =>
    obtain ⟨result, w', answered⟩ :
      ∃ result w', s3.headBucket t.protocol.bucket w = (result, w') := ⟨_, _, rfl⟩
    have head : objects w' = objects w := by
      simpa only [answered] using (reliable s3 installed).headBucket w
    simp only [Transfers.connect, installed, answered, ← head]
    rcases result with (code | text) | ⟨⟩
    · have create := (reliable s3 installed).createBucket w'
      dsimp only
      split
      · split
        · rename_i created
          rw [created] at create
          exact create ▸ .connected
        · rename_i created
          rw [created] at create
          exact create ▸ .refused nofun
      · exact .refused nofun
    · exact .refused nofun
    · exact .connected

theorem get_allowed (own : t.protocol.pfnToKey t.parsePfns path = some key) :
    Allowed t.adler32 (objects w) (.get key) (.of .content (t.get path w).1)
      (objects (t.get path w).2) := by
  rw [Transfers.get]
  rcases withKey_of_key own _ with ⟨-, out⟩ | ⟨s3, installed, out⟩
  · rw [out]
    exact .refused nofun
  · rw [out]
    have keeps := (reliable s3 installed).downloadKeeps key w
    have reads := (reliable s3 installed).download key w
    dsimp only
    rw [keeps]
    cases result : (s3.downloadFile t.protocol.bucket key w).1 with
    | ok data =>
      rw [result] at reads
      obtain ⟨_, held, rfl⟩ := reads
      exact .read held
    | error error =>
      rw [result] at reads
      exact failed_of_reads reads .notRead

theorem put_allowed (own : t.protocol.pfnToKey t.parsePfns path = some key)
    (source : Option Bytes) : Allowed t.adler32 (objects w) (.put key source)
      (.of (fun _ => .done) (t.put source path w).1) (objects (t.put source path w).2) := by
  cases source with
  | none => exact .unsourced
  | some content =>
    rw [Transfers.put]
    rcases withKey_of_key own _ with ⟨-, out⟩ | ⟨s3, installed, out⟩
    · rw [out]
      exact .refused nofun
    · rw [out]
      exact allowed_of_writes ((reliable s3 installed).upload content key w)
        (fun _ other => .refused other) .stored (fun _ => .storedUnheard)

theorem delete_allowed (own : t.protocol.pfnToKey t.parsePfns path = some key) :
    Allowed t.adler32 (objects w) (.delete key) (.of (fun _ => .done) (t.delete path w).1)
      (objects (t.delete path w).2) := by
  rw [Transfers.delete]
  rcases withKey_of_key own _ with ⟨-, out⟩ | ⟨s3, installed, out⟩
  · rw [out]
    exact .refused nofun
  · rw [out]
    exact allowed_of_writes ((reliable s3 installed).delete key w) (fun _ other => .refused other)
      .deleted (fun _ => .deletedUnheard)

theorem existing_allowed (own : t.protocol.pfnToKey t.parsePfns path = some key) :
    Allowed t.adler32 (objects w) (.existing (some key))
      (.of .truth (t.existing (some path) w).1) (objects (t.existing (some path) w).2) := by
  rw [Transfers.existing]
  rcases withKey_of_key own _ with ⟨-, out⟩ | ⟨s3, installed, out⟩
  · rw [out]
    exact .refused nofun
  · rw [out]
    obtain ⟨result, w', answered⟩ :
      ∃ result w', s3.headObject t.protocol.bucket key w = (result, w') := ⟨_, _, rfl⟩
    have keeps : objects w' = objects w := by
      simpa only [answered] using (reliable s3 installed).headKeeps key w
    have reads := (reliable s3 installed).head key w
    have seen : Allowed t.adler32 (objects w) (.existing (some key))
        (.truth (objects w key).isSome) (objects w) := .seen
    simp only [answered] at reads ⊢
    cases result with
    | ok size =>
      obtain ⟨data, held, -⟩ := reads
      rw [held] at seen
      exact keeps ▸ seen
    | error error =>
      cases missing : error.isMissing with
      | true =>
        rw [reads missing] at seen
        simp only [missing, if_true]
        exact keeps ▸ seen
      | false =>
        simp only [missing, Bool.false_eq_true, if_false]
        exact keeps ▸ .refused (whenWriting_ne error)

theorem stat_allowed (own : t.protocol.pfnToKey t.parsePfns path = some key) :
    Allowed t.adler32 (objects w) (.stat key)
      (.of (fun stats => .measured stats.1 stats.2) (t.stat path w).1)
      (objects (t.stat path w).2) := by
  rw [Transfers.stat]
  rcases withKey_of_key own _ with ⟨-, out⟩ | ⟨s3, installed, out⟩
  · rw [out]
    exact .refused nofun
  · rw [out]
    obtain ⟨result, w', answered⟩ :
      ∃ result w', s3.headObject t.protocol.bucket key w = (result, w') := ⟨_, _, rfl⟩
    have keeps : objects w' = objects w := by
      simpa only [answered] using (reliable s3 installed).headKeeps key w
    have reads := (reliable s3 installed).head key w
    simp only [answered] at reads ⊢
    rw [← keeps] at reads ⊢
    cases result with
    | error error => exact failed_of_reads reads .notMeasured
    | ok size =>
      obtain ⟨data, held, rfl⟩ := reads
      obtain ⟨content, w'', downloaded⟩ :
        ∃ content w'', s3.downloadFile t.protocol.bucket key w' = (content, w'') := ⟨_, _, rfl⟩
      have keeps' : objects w'' = objects w' := by
        simpa only [downloaded] using (reliable s3 installed).downloadKeeps key w'
      have reads' := (reliable s3 installed).download key w'
      simp only [downloaded] at reads' ⊢
      cases content with
      | error error =>
        rw [← keeps'] at reads' ⊢
        exact failed_of_reads reads' .notMeasured
      | ok content =>
        obtain ⟨_, held', rfl⟩ := reads'
        rw [held] at held'
        cases held'
        rw [← keeps'] at held ⊢
        exact .measured held

omit reliable in
/-- A copy that did not get through leaves things as they were; after one that did, the
deletion of the old key is what may still fail. -/
theorem moveObject_allowed {s3 : S3Client W} (stores : Stores s3 t.protocol.bucket objects)
    (oldKey newKey : PyStr) : Allowed t.adler32 (objects w) (.rename oldKey newKey)
      (.of (fun _ => .done) (t.moveObject s3 oldKey newKey w).1)
      (objects (t.moveObject s3 oldKey newKey w).2) := by
  obtain ⟨result, w', copied⟩ :
    ∃ result w', s3.copyObject t.protocol.bucket oldKey newKey w = (result, w') := ⟨_, _, rfl⟩
  by_cases refused : oldKey = newKey ∨ objects w oldKey = none
  · obtain ⟨⟨error, raised⟩, keeps⟩ := stores.copyRefused oldKey newKey w refused
    simp only [copied] at raised keeps
    subst raised
    simp only [Transfers.moveObject, copied]
    exact keeps ▸ .refused (whenWriting_ne error)
  · obtain ⟨apart, present⟩ := not_or.mp refused
    obtain ⟨data, held⟩ := Option.ne_none_iff_exists'.mp present
    have writes := stores.copy oldKey newKey w data apart held
    simp only [copied] at writes
    simp only [Transfers.moveObject, copied]
    rcases result with (code | text) | ⟨⟩
    · have same : objects w' = objects w := writes
      exact same ▸ .refused nofun
    · rcases writes with same | same
      · exact same ▸ .refused nofun
      · exact same ▸ .copied apart held nofun
    · have same : objects w' = Function.update (objects w) newKey (some data) := writes
      have deletes := stores.delete oldKey w'
      rw [same] at deletes
      exact allowed_of_writes deletes (fun _ other => .copied apart held other)
        (.renamed apart held) (fun _ => .renamedUnheard apart held)

theorem rename_allowed {newPath newKey : PyStr}
    (own : t.protocol.pfnToKey t.parsePfns path = some key)
    (new : t.protocol.pfnToKey t.parsePfns newPath = some newKey) :
    Allowed t.adler32 (objects w) (.rename key newKey)
      (.of (fun _ => .done) (t.rename path newPath w).1) (objects (t.rename path newPath w).2) := by
  simp only [Transfers.rename, own, new]
  cases installed : t.s3 with
  | none => exact .refused nofun
  | some s3 => exact moveObject_allowed (reliable s3 installed) key newKey

end Methods

end Steps

section Runs
variable {t : Transfers W} {objects : W → Objects} {getPath : PyStr → PyStr → PyStr}

/-- The key of an LFN. -/
def keyOf (getPath : PyStr → PyStr → PyStr) (t : Transfers W) (lfn : Lfn) : PyStr :=
  t.protocol.root ++ lfn.rel getPath

/-- The PFN of an LFN is read back as its key. -/
def ReadBack (getPath : PyStr → PyStr → PyStr) (t : Transfers W) (lfn : Lfn) : Prop :=
  t.protocol.pfnToKey t.parsePfns (t.protocol.pfn getPath lfn) = some (keyOf getPath t lfn)

/-- A transfer of LFNs is allowed as one of their keys. -/
theorem step_allowed (reliable : t.Reliable objects) (w : W) {request : Request Lfn}
    (readBack : request.All (ReadBack getPath t)) :
    Allowed t.adler32 (objects w) (request.map (keyOf getPath t)) (step getPath t w request).1
      (objects (step getPath t w request).2) := by
  cases request with
  | connect => exact connect_allowed reliable
  | put lfn source => exact put_allowed reliable readBack source
  | get lfn => exact get_allowed reliable readBack
  | existing lfn =>
    cases lfn with
    | none => exact .nowhere
    | some lfn => exact existing_allowed reliable (readBack lfn rfl)
  | stat lfn => exact stat_allowed reliable readBack
  | rename lfn newLfn => exact rename_allowed reliable readBack.1 readBack.2
  | delete lfn => exact delete_allowed reliable readBack

/-- The part of the bucket below the root, by relative path. -/
def view (objects : W → Objects) (t : Transfers W) (w : W) : Objects :=
  objects w ∘ fun rel => t.protocol.root ++ rel

theorem step_allowed_view (reliable : t.Reliable objects) (w : W) {request : Request Lfn}
    (readBack : request.All (ReadBack getPath t)) :
    Allowed t.adler32 (view objects t w) (request.map (Lfn.rel getPath))
      (step getPath t w request).1 (view objects t (step getPath t w request).2) := by
  refine Allowed.comp (List.append_right_injective t.protocol.root) ?_
  have allowed := step_allowed reliable w readBack
  have named : (request.map (Lfn.rel getPath)).map (fun rel => t.protocol.root ++ rel) =
      request.map (keyOf getPath t) := by
    cases request with
    | existing name => exact congrArg Request.existing (Option.map_map _ _ _)
    | _ => rfl
  rwa [named]

theorem Request.All.imp {N : Type u} {P Q : N → Prop} (h : ∀ n, P n → Q n) {request : Request N}
    (all : request.All P) : request.All Q := by
  cases request with
  | connect => trivial
  | put name _ | get name | stat name | delete name => exact h _ all
  | existing name => exact fun n inside => h n (all n inside)
  | rename name newName => exact ⟨h _ all.1, h _ all.2⟩

theorem mem_writes_map {N : Type u} {f : N → PyStr} {request : Request N} {P : N → Prop}
    (all : request.All P) {key : PyStr} (inside : key ∈ (request.map f).writes) :
    ∃ n, P n ∧ f n = key := by
  cases request with
  | put name _ | delete name => exact ⟨name, all, (List.mem_singleton.mp inside).symm⟩
  | rename name newName =>
    rcases List.mem_pair.mp inside with rfl | rfl
    · exact ⟨name, all.1, rfl⟩
    · exact ⟨newName, all.2, rfl⟩
  | connect | get _ | existing _ | stat _ => cases inside

/-- In a configuration in which PFNs are read back, the transfers through PFNs are those of a
store of objects by relative path, whatever fails on the way, and leave all other objects of
the bucket alone. -/
theorem transfers_refine_store {takes : PyStr → Bool} {attributes : Attributes}
    {minioBucket : Option PyStr}
    (accepted : Default.init attributes minioBucket = .ok t.protocol)
    (parses : ParsesPfns takes attributes t.parsePfns)
    (agree : SidesAgree takes attributes minioBucket)
    (reliable : t.Reliable objects) (w : W) {requests : List (Request Lfn)}
    (legal : ∀ request ∈ requests, request.All (fun lfn => IsRelativePath (lfn.rel getPath))) :
    Runs (Allowed t.adler32) (view objects t w)
      ((trace (step getPath t) w requests).map
        (fun entry => (entry.1.map (Lfn.rel getPath), entry.2)))
      (view objects t (after (step getPath t) w requests)) ∧
    ∀ key, (∀ rel, IsRelativePath rel → key ≠ t.protocol.root ++ rel) →
      objects (after (step getPath t) w requests) key = objects w key := by
  have readBack : ∀ lfn : Lfn, IsRelativePath (lfn.rel getPath) → ReadBack getPath t lfn :=
    fun _ legal => pfn2path_of_sidesAgree accepted parses agree legal
  constructor
  · refine runs_of_view (fun w request legal => ?_) w legal
    exact step_allowed_view reliable w (legal.imp readBack)
  · intro key foreign
    induction requests generalizing w with
    | nil => rfl
    | cons request rest ih =>
      obtain ⟨here, later⟩ := List.forall_mem_cons.mp legal
      rw [after_cons, ih _ later]
      refine (step_allowed reliable w (here.imp readBack)).frame ?_
      intro inside
      obtain ⟨lfn, own, rfl⟩ := mem_writes_map here inside
      exact foreign _ own rfl

/-- A request that is not meant to replace or delete what holds the data. -/
def Spares (data : Bytes) (s : Objects) : Request PyStr → Prop
  | .put name source => ∀ new ∈ source, s name = some data → new = data
  | .rename name newName => s newName = some data → name = newName ∨ s name = some data
  | .delete name => s name ≠ some data
  | .connect | .get _ | .existing _ | .stat _ => True

theorem Allowed.keeps_contents {adler32 : Bytes → PyStr} {s s' : Objects}
    {request : Request PyStr} {answer : Answer} (allowed : Allowed adler32 s request answer s')
    {data : Bytes} (spares : Spares data s request) (held : ∃ name, s name = some data) :
    ∃ name, s' name = some data := by
  obtain ⟨name, held⟩ := held
  cases allowed with
  | @stored name' new | @storedUnheard name' text new =>
    refine ⟨name, ?_⟩
    by_cases same : name = name'
    · subst same
      rw [Function.update_self, spares new rfl held]
    · rwa [Function.update_of_ne same]
  | @renamed old new found apart held' | @renamedUnheard old new text found apart held' =>
    by_cases same : name = old
    · subst same
      rw [held] at held'
      cases held'
      exact ⟨new, by rw [moved, Function.update_of_ne apart.symm, Function.update_self]⟩
    · by_cases target : name = new
      · subst target
        have own := (spares held).resolve_left apart
        rw [held'] at own
        exact ⟨name, by rw [moved, Function.update_of_ne same, Function.update_self, own]⟩
      · exact ⟨name, by rw [moved, Function.update_of_ne same, Function.update_of_ne target, held]⟩
  | @copied old new found exc apart held' other =>
    by_cases target : name = new
    · subst target
      have own := (spares held).resolve_left apart
      rw [held'] at own
      exact ⟨name, by rw [Function.update_self, own]⟩
    · exact ⟨name, by rw [Function.update_of_ne target, held]⟩
  | @deleted name' | @deletedUnheard name' text =>
    have other : name ≠ name' := by
      rintro rfl
      exact spares held
    exact ⟨name, by rw [Function.update_of_ne other, held]⟩
  | _ => exact ⟨name, held⟩

/-- Whatever fails in a run of transfers, also between the two requests of a rename, what an
object held is held by some object in the end, unless a request was meant to replace or delete
an object that held it at the time. -/
theorem contents_survive {takes : PyStr → Bool} {attributes : Attributes}
    {minioBucket : Option PyStr} (accepted : Default.init attributes minioBucket = .ok t.protocol)
    (parses : ParsesPfns takes attributes t.parsePfns)
    (agree : SidesAgree takes attributes minioBucket) (reliable : t.Reliable objects) {w : W}
    {data : Bytes} {requests : List (Request Lfn)}
    (legal : Throughout (step getPath t) (fun w request =>
      request.All (fun lfn => IsRelativePath (lfn.rel getPath)) ∧
        Spares data (view objects t w) (request.map (Lfn.rel getPath))) w requests)
    (held : ∃ rel, view objects t w rel = some data) :
    ∃ rel, view objects t (after (step getPath t) w requests) rel = some data := by
  refine after_keeps_of_throughout (P := fun w => ∃ rel, view objects t w rel = some data) ?_
    legal held
  rintro w request ⟨legal, spares⟩ held
  have readBack := legal.imp (Q := ReadBack getPath t)
    (fun _ legal => pfn2path_of_sidesAgree accepted parses agree legal)
  exact (step_allowed_view reliable w readBack).keeps_contents spares held

/-- The requests that read an object. -/
def Request.AsksAbout {N : Type u} (name : N) (request : Request N) : Prop :=
  request = .get name ∨ request = .existing (some name) ∨ request = .stat name

/-- What they may answer about an object that is there. -/
def Tells (adler32 : Bytes → PyStr) (data : Bytes) (answer : Answer) : Prop :=
  answer = .content data ∨ answer = .truth true ∨
    answer = .measured data.length (adler32 data) ∨
    ∃ exc, exc ≠ .sourceNotFound ∧ answer = .failed exc

theorem Allowed.tells {adler32 : Bytes → PyStr} {s s' : Objects} {name : PyStr} {data : Bytes}
    (held : s name = some data) {request : Request PyStr} {answer : Answer}
    (allowed : Allowed adler32 s request answer s')
    (asks : request.AsksAbout name) : Tells adler32 data answer := by
  rcases asks with rfl | rfl | rfl
  · cases allowed with
    | refused other => exact Or.inr (Or.inr (Or.inr ⟨_, other, rfl⟩))
    | read own =>
      cases held.symm.trans own
      exact Or.inl rfl
    | notRead absent => cases held.symm.trans absent
  · cases allowed with
    | refused other => exact Or.inr (Or.inr (Or.inr ⟨_, other, rfl⟩))
    | seen => exact Or.inr (Or.inl (by rw [held]; rfl))
  · cases allowed with
    | refused other => exact Or.inr (Or.inr (Or.inr ⟨_, other, rfl⟩))
    | measured own =>
      cases held.symm.trans own
      exact Or.inr (Or.inr (Or.inl rfl))
    | notMeasured absent => cases held.symm.trans absent

/-- After a `put` that returned normally, and until a request that writes to the object,
everything that is asked about it is answered with its content, or fails; it is never
reported missing. -/
theorem reads_own_writes {takes : PyStr → Bool} {attributes : Attributes}
    {minioBucket : Option PyStr}
    (accepted : Default.init attributes minioBucket = .ok t.protocol)
    (parses : ParsesPfns takes attributes t.parsePfns)
    (agree : SidesAgree takes attributes minioBucket)
    (reliable : t.Reliable objects) {lfn : Lfn} (own : IsRelativePath (lfn.rel getPath))
    {data : Bytes} {w : W} (stored : (step getPath t w (.put lfn (some data))).1 = .done)
    {requests : List (Request Lfn)}
    (legal : ∀ request ∈ requests, request.All (fun lfn => IsRelativePath (lfn.rel getPath)))
    (others : ∀ request ∈ requests, lfn.rel getPath ∉ (request.map (Lfn.rel getPath)).writes) :
    let later := after (step getPath t) (step getPath t w (.put lfn (some data))).2 requests
    ∀ request : Request Lfn, request.AsksAbout lfn →
      Tells t.adler32 data (step getPath t later request).1 := by
  have readBack : ∀ lfn : Lfn, IsRelativePath (lfn.rel getPath) → ReadBack getPath t lfn :=
    fun _ legal => pfn2path_of_sidesAgree accepted parses agree legal
  intro later request asked
  have written : view objects t (step getPath t w (.put lfn (some data))).2 (lfn.rel getPath) =
      some data := by
    have put := @step_allowed_view _ t objects getPath reliable w (.put lfn (some data))
      (readBack lfn own)
    rw [stored] at put
    generalize view objects t (step getPath t w (.put lfn (some data))).2 = s' at put
    cases put with
    | stored => exact Function.update_self _ _ _
  have held : view objects t later (lfn.rel getPath) = some data := by
    refine after_keeps_of_throughout (P := fun w => view objects t w (lfn.rel getPath) = some data)
      ?_ (throughout_of_forall _ (fun request inside =>
        (⟨legal request inside, others request inside⟩ : _ ∧ _))) written
    rintro w request ⟨legal, other⟩ held
    exact ((step_allowed_view reliable w (legal.imp readBack)).frame other).trans held
  obtain ⟨known, asks⟩ : request.All (ReadBack getPath t) ∧
      (request.map (Lfn.rel getPath)).AsksAbout (lfn.rel getPath) := by
    rcases asked with rfl | rfl | rfl
    · exact ⟨readBack lfn own, Or.inl rfl⟩
    · refine ⟨?_, Or.inr (Or.inl rfl)⟩
      rintro _ ⟨⟩
      exact readBack lfn own
    · exact ⟨readBack lfn own, Or.inr (Or.inr rfl)⟩
  exact (step_allowed_view reliable later known).tells held asks

end Runs

section Samples

def namedLfn (name : PyStr) : Lfn := ⟨py "user.root", name, some name⟩

theorem legal_namedLfn {name : PyStr} (legal : name ≠ [] ∧ name.all isSafe = true) :
    IsRelativePath ((namedLfn name).rel fun _ name => name) := by
  have pieces : ArePieces [name] :=
    ⟨List.cons_ne_nil _ _, by simpa using legal.1, by simpa using legal.2⟩
  refine ⟨[name], pieces, ?_⟩
  obtain ⟨c, rest, rfl⟩ := List.exists_cons_of_ne_nil legal.1
  have safe : isSafe c = true := List.all_eq_true.mp legal.2 c List.mem_cons_self
  have other : (c == slash) = false := by
    refine beq_eq_false_iff_ne.mpr ?_
    rintro rfl
    exact absurd safe (by decide)
  simp [namedLfn, Lfn.rel, other]

/-- An object is put and renamed; the deletion of the old name gets lost. -/
def sampleRequests : List (Request Lfn) :=
  [.put (namedLfn (py "a")) (some (ascii "abc")),
    .rename (namedLfn (py "a")) (namedLfn (py "b")), .stat (namedLfn (py "b"))]

theorem legal_sampleRequests : ∀ request ∈ sampleRequests,
    request.All (fun lfn => IsRelativePath (lfn.rel fun _ name => name)) := by
  have a := @legal_namedLfn (py "a") (by decide)
  have b := @legal_namedLfn (py "b") (by decide)
  intro request inside
  simp only [sampleRequests, List.mem_cons, List.not_mem_nil, or_false] at inside
  rcases inside with rfl | rfl | rfl
  · exact a
  · exact ⟨a, b⟩
  · exact b

theorem transfers_refine_store_sample :
    Runs (Allowed adler32Text) (view id (memoryTransfers true) (fun _ => none))
      ((trace (step (fun _ name => name) (memoryTransfers true)) (fun _ => none)
        sampleRequests).map (fun entry => (entry.1.map (Lfn.rel fun _ name => name), entry.2)))
      (view id (memoryTransfers true) (after (step (fun _ name => name) (memoryTransfers true))
        (fun _ => none) sampleRequests)) ∧
    ∀ key, (∀ rel, IsRelativePath rel → key ≠ py "data/" ++ rel) →
      after (step (fun _ name => name) (memoryTransfers true)) (fun _ => none) sampleRequests key =
        none :=
  transfers_refine_store rfl (parsesPfns_parseOwn _) sidesAgree_memory
    (memoryTransfers_reliable true) _ legal_sampleRequests

/-- The object keeps both names, and its content; what was under the new name is replaced, and
another object is deleted. -/
theorem contents_survive_sample :
    let s : Objects := fun key => if key = py "data/a" then some (ascii "abc") else
      if key = py "data/b" then some (ascii "xyz") else none
    ∃ rel, view id (memoryTransfers true)
      (after (step (fun _ name => name) (memoryTransfers true)) s
        [.rename (namedLfn (py "a")) (namedLfn (py "b")), .delete (namedLfn (py "c"))]) rel =
        some (ascii "abc") := by
  intro s
  have a := @legal_namedLfn (py "a") (by decide)
  have b := @legal_namedLfn (py "b") (by decide)
  have c := @legal_namedLfn (py "c") (by decide)
  have held : view id (memoryTransfers true) s (py "a") = some (ascii "abc") := by decide
  have replaced : view id (memoryTransfers true) s (py "b") ≠ some (ascii "abc") := by decide
  have apart : view id (memoryTransfers true)
      (step (fun _ name => name) (memoryTransfers true) s
        (.rename (namedLfn (py "a")) (namedLfn (py "b")))).2 (py "c") ≠ some (ascii "abc") := by
    decide
  exact @contents_survive Objects (memoryTransfers true) id (fun _ name => name) _ _ none rfl
    (parsesPfns_parseOwn _) sidesAgree_memory (memoryTransfers_reliable true) s (ascii "abc")
    [.rename (namedLfn (py "a")) (namedLfn (py "b")), .delete (namedLfn (py "c"))]
    ⟨⟨⟨a, b⟩, fun same => absurd same replaced⟩, ⟨c, apart⟩, trivial⟩ ⟨py "a", held⟩

theorem reads_own_writes_sample :
    let stored := (step (fun _ name => name) (memoryTransfers true) (fun _ => none)
      (.put (namedLfn (py "a")) (some (ascii "abc")))).2
    let later := after (step (fun _ name => name) (memoryTransfers true)) stored
      [.rename (namedLfn (py "b")) (namedLfn (py "c")), .delete (namedLfn (py "c"))]
    ∀ request : Request Lfn, request.AsksAbout (namedLfn (py "a")) →
      Tells adler32Text (ascii "abc")
        (step (fun _ name => name) (memoryTransfers true) later request).1 := by
  have a := @legal_namedLfn (py "a") (by decide)
  have b := @legal_namedLfn (py "b") (by decide)
  have c := @legal_namedLfn (py "c") (by decide)
  refine reads_own_writes rfl (parsesPfns_parseOwn _) sidesAgree_memory
    (memoryTransfers_reliable true) a (by decide) ?_ (by decide)
  intro request inside
  rcases List.mem_pair.mp inside with rfl | rfl
  · exact ⟨b, c⟩
  · exact c

end Samples

end S3Store
