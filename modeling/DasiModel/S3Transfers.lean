import DasiModel.S3Protocol
import Mathlib.Logic.Function.Basic

/-!
# Transfers with the S3 protocol

The transfer methods turn a PFN into a key and call S3. The client of S3 is not
part of this repository: `S3Client` are the calls made, and `Stores` says what
they do to the objects of the bucket. A call may fail; if it fails with anything
but an answer of S3, the request may have been carried out or not.
-/

namespace S3Transfers
open Texts S3Protocol

universe u
variable {W : Type u}

inductive S3Error where
  /-- `botocore.exceptions.ClientError`: an answer of S3 with its code. -/
  | clientError (code : PyStr)
  | other (text : PyStr)
  deriving DecidableEq

/-- `exc.response["Error"]["Code"] in ("404", "NoSuchKey")`. -/
def S3Error.isMissing : S3Error → Bool
  | .clientError code => code = py "404" || code = py "NoSuchKey"
  | .other _ => false

structure S3Client (W : Type u) where
  headBucket : (bucket : PyStr) → W → Except S3Error Unit × W
  createBucket : (bucket : PyStr) → W → Except S3Error Unit × W
  /-- The `ContentLength` of an object. -/
  headObject : (bucket key : PyStr) → W → Except S3Error Nat × W
  /-- The bytes written to the destination. -/
  downloadFile : (bucket key : PyStr) → W → Except S3Error Bytes × W
  uploadFile : (content : Bytes) → (bucket key : PyStr) → W → Except S3Error Unit × W
  copyObject : (bucket source key : PyStr) → W → Except S3Error Unit × W
  deleteObject : (bucket key : PyStr) → W → Except S3Error Unit × W

inductive TransferException where
  /-- Raised by `parse_pfns`. -/
  | badPfn
  | accessDenied
  | sourceNotFound
  | serviceUnavailable
  | other (text : PyStr)
  deriving DecidableEq

/-- The handlers that know of a missing object. -/
def S3Error.whenReading : S3Error → TransferException
  | .clientError code =>
    if (S3Error.clientError code).isMissing then .sourceNotFound else .serviceUnavailable
  | .other text => .other text

/-- The handlers that do not. -/
def S3Error.whenWriting : S3Error → TransferException
  | .clientError _ => .serviceUnavailable
  | .other text => .other text

/-- A protocol object with what its methods use: the client is `none` if boto3 is missing. -/
structure Transfers (W : Type u) where
  protocol : Default
  parsePfns : PyStr → Option ParsedPfn
  s3 : Option (S3Client W)
  adler32 : Bytes → PyStr

namespace Transfers
variable (t : Transfers W)

/-- `key = self._pfn_to_key(path)`, and `self._s3` for a call with this key. -/
def withKey {A : Type} (path : PyStr)
    (body : S3Client W → PyStr → W → Except TransferException A × W) (w : W) :
    Except TransferException A × W :=
  match t.protocol.pfnToKey t.parsePfns path with
  | none => (.error .badPfn, w)
  | some key =>
    match t.s3 with
    | none => (.error .accessDenied, w)
    | some s3 => body s3 key w

/-- `Default.connect`. -/
def connect (w : W) : Except TransferException Unit × W :=
  match t.s3 with
  | none => (.error .accessDenied, w)
  | some s3 =>
    match s3.headBucket t.protocol.bucket w with
    | (.ok (), w) => (.ok (), w)
    | (.error (.other text), w) => (.error (.other text), w)
    | (.error (.clientError code), w) =>
      if code = py "404" || code = py "NoSuchBucket" then
        match s3.createBucket t.protocol.bucket w with
        | (.ok (), w) => (.ok (), w)
        | (.error _, w) => (.error .accessDenied, w)
      else (.error .accessDenied, w)

/-- `Default.exists`. -/
def existing (path : Option PyStr) (w : W) : Except TransferException Bool × W :=
  match path with
  | none => (.ok false, w)
  | some path => t.withKey path (fun s3 key w =>
    match s3.headObject t.protocol.bucket key w with
    | (.ok _, w) => (.ok true, w)
    | (.error error, w) =>
      if error.isMissing then (.ok false, w) else (.error error.whenWriting, w)) w

/-- `Default.get`. -/
def get (path : PyStr) (w : W) : Except TransferException Bytes × W :=
  t.withKey path (fun s3 key w =>
    let (result, w) := s3.downloadFile t.protocol.bucket key w
    (result.mapError S3Error.whenReading, w)) w

/-- `Default.put`; the source is the local file, if it is there. -/
def put (source : Option Bytes) (target : PyStr) (w : W) : Except TransferException Unit × W :=
  match source with
  | none => (.error .sourceNotFound, w)
  | some content => t.withKey target (fun s3 key w =>
    let (result, w) := s3.uploadFile content t.protocol.bucket key w
    (result.mapError S3Error.whenWriting, w)) w

/-- The two requests of `Default.rename`: a copy under the new key, then the old key is
deleted. -/
def moveObject (s3 : S3Client W) (oldKey newKey : PyStr) (w : W) :
    Except TransferException Unit × W :=
  match s3.copyObject t.protocol.bucket oldKey newKey w with
  | (.error error, w) => (.error error.whenWriting, w)
  | (.ok (), w) =>
    let (result, w) := s3.deleteObject t.protocol.bucket oldKey w
    (result.mapError S3Error.whenWriting, w)

/-- `Default.rename`. -/
def rename (path newPath : PyStr) (w : W) : Except TransferException Unit × W :=
  match t.protocol.pfnToKey t.parsePfns path, t.protocol.pfnToKey t.parsePfns newPath with
  | some oldKey, some newKey =>
    match t.s3 with
    | none => (.error .accessDenied, w)
    | some s3 => t.moveObject s3 oldKey newKey w
  | _, _ => (.error .badPfn, w)

/-- `Default.delete`. -/
def delete (path : PyStr) (w : W) : Except TransferException Unit × W :=
  t.withKey path (fun s3 key w =>
    let (result, w) := s3.deleteObject t.protocol.bucket key w
    (result.mapError S3Error.whenWriting, w)) w

/-- `Default.stat`: the size from one request, the checksum from a download. -/
def stat (path : PyStr) (w : W) : Except TransferException (Nat × PyStr) × W :=
  t.withKey path (fun s3 key w =>
    match s3.headObject t.protocol.bucket key w with
    | (.error error, w) => (.error error.whenReading, w)
    | (.ok size, w) =>
      match s3.downloadFile t.protocol.bucket key w with
      | (.error error, w) => (.error error.whenReading, w)
      | (.ok data, w) => (.ok (size, t.adler32 data), w)) w

end Transfers

/-- Objects by name: of the bucket by key, of the store by relative path. -/
abbrev Objects := PyStr → Option Bytes

/-- How a request that writes leaves the objects. -/
def Writes (before target : Objects) (result : Except S3Error Unit) (after : Objects) : Prop :=
  match result with
  | .ok () => after = target
  | .error (.clientError _) => after = before
  | .error (.other _) => after = before ∨ after = target

/-- How a request that reads ends. -/
def Reads {A : Type} (held : Option Bytes) (shown : Bytes → A) (result : Except S3Error A) :
    Prop :=
  match result with
  | .ok a => ∃ data, held = some data ∧ a = shown data
  | .error error => error.isMissing = true → held = none

/-- What S3 is relied on for. It refuses to copy an object onto itself. -/
structure Stores (s3 : S3Client W) (bucket : PyStr) (objects : W → Objects) : Prop where
  headBucket (w : W) : objects (s3.headBucket bucket w).2 = objects w
  createBucket (w : W) : objects (s3.createBucket bucket w).2 = objects w
  headKeeps (key : PyStr) (w : W) : objects (s3.headObject bucket key w).2 = objects w
  head (key : PyStr) (w : W) :
    Reads (objects w key) List.length (s3.headObject bucket key w).1
  downloadKeeps (key : PyStr) (w : W) : objects (s3.downloadFile bucket key w).2 = objects w
  download (key : PyStr) (w : W) : Reads (objects w key) id (s3.downloadFile bucket key w).1
  upload (content : Bytes) (key : PyStr) (w : W) :
    Writes (objects w) (Function.update (objects w) key (some content))
      (s3.uploadFile content bucket key w).1 (objects (s3.uploadFile content bucket key w).2)
  copy (source key : PyStr) (w : W) (data : Bytes) : source ≠ key → objects w source = some data →
    Writes (objects w) (Function.update (objects w) key (some data))
      (s3.copyObject bucket source key w).1 (objects (s3.copyObject bucket source key w).2)
  copyRefused (source key : PyStr) (w : W) : source = key ∨ objects w source = none →
    (∃ error, (s3.copyObject bucket source key w).1 = .error error) ∧
      objects (s3.copyObject bucket source key w).2 = objects w
  delete (key : PyStr) (w : W) : Writes (objects w) (Function.update (objects w) key none)
    (s3.deleteObject bucket key w).1 (objects (s3.deleteObject bucket key w).2)

theorem whenWriting_ne (error : S3Error) : error.whenWriting ≠ .sourceNotFound := by
  cases error <;> simp [S3Error.whenWriting]

theorem isMissing_of_whenReading {error : S3Error} (missing : error.whenReading = .sourceNotFound) :
    error.isMissing = true := by
  cases error with
  | clientError code =>
    rw [S3Error.whenReading] at missing
    split at missing
    · assumption
    · cases missing
  | other text => cases missing

section Keys
variable {t : Transfers W} {path key : PyStr} {w : W}

/-- S3 is as it should be, if it can be used at all. -/
def Transfers.Reliable (t : Transfers W) (objects : W → Objects) : Prop :=
  ∀ s3, t.s3 = some s3 → Stores s3 t.protocol.bucket objects

/-- A method that has its key: it is refused, or it does what it does with the client. -/
theorem withKey_of_key (own : t.protocol.pfnToKey t.parsePfns path = some key) {A : Type}
    (body : S3Client W → PyStr → W → Except TransferException A × W) :
    (t.s3 = none ∧ t.withKey path body w = (.error .accessDenied, w)) ∨
      ∃ s3, t.s3 = some s3 ∧ t.withKey path body w = body s3 key w := by
  simp only [Transfers.withKey, own]
  cases t.s3 with
  | none => exact Or.inl ⟨rfl, rfl⟩
  | some s3 => exact Or.inr ⟨s3, rfl, rfl⟩

end Keys

section Samples

/-- Adler-32, as eight hexadecimal digits. -/
def adler32Text (data : Bytes) : PyStr :=
  let sums := data.foldl (fun sums byte =>
    let a := (sums.1 + byte.val) % 65521
    (a, (sums.2 + a) % 65521)) (1, 0)
  let digits := Nat.toDigits 16 (sums.2 * 65536 + sums.1)
  py (String.ofList (List.replicate (8 - digits.length) '0' ++ digits))

example : adler32Text (ascii "abc") = py "024d0127" := by decide

/-- A bucket in memory; when deletions are lost, no answer to them arrives. -/
def memoryClient (lost : Bool) : S3Client Objects where
  headBucket _ s := (.ok (), s)
  createBucket _ s := (.error (.clientError (py "BucketAlreadyOwnedByYou")), s)
  headObject _ key s :=
    match s key with
    | none => (.error (.clientError (py "404")), s)
    | some data => (.ok data.length, s)
  downloadFile _ key s :=
    match s key with
    | none => (.error (.clientError (py "404")), s)
    | some data => (.ok data, s)
  uploadFile content _ key s := (.ok (), Function.update s key (some content))
  copyObject _ source key s :=
    if source = key then (.error (.clientError (py "InvalidRequest")), s)
    else match s source with
    | none => (.error (.clientError (py "NoSuchKey")), s)
    | some data => (.ok (), Function.update s key (some data))
  deleteObject _ key s :=
    if lost then (.error (.other (py "Connection was closed")), s)
    else (.ok (), Function.update s key none)

theorem memoryClient_stores (lost : Bool) (bucket : PyStr) :
    Stores (memoryClient lost) bucket id where
  headBucket _ := rfl
  createBucket _ := rfl
  headKeeps key s := by
    simp only [memoryClient, id]
    cases s key <;> rfl
  head key s := by
    simp only [memoryClient, id]
    cases s key with
    | none => exact fun _ => rfl
    | some data => exact ⟨data, rfl, rfl⟩
  downloadKeeps key s := by
    simp only [memoryClient, id]
    cases s key <;> rfl
  download key s := by
    simp only [memoryClient, id]
    cases s key with
    | none => exact fun _ => rfl
    | some data => exact ⟨data, rfl, rfl⟩
  upload _ _ _ := rfl
  copy source key s data apart held := by
    have present : s source = some data := held
    simp only [memoryClient, if_neg apart, present]
    rfl
  copyRefused source key s refused := by
    simp only [memoryClient]
    by_cases same : source = key
    · exact ⟨⟨_, by rw [if_pos same]⟩, by rw [if_pos same]⟩
    · have absent : s source = none := refused.resolve_left same
      simp only [if_neg same, absent]
      exact ⟨⟨_, rfl⟩, trivial⟩
  delete key s := by
    cases lost with
    | true => exact Or.inl rfl
    | false => rfl

def memoryTransfers (lost : Bool) : Transfers Objects where
  protocol := ⟨sampleAttributes (py "/dasi/data"), py "dasi", py "data/"⟩
  parsePfns := parseOwn (sampleAttributes (py "/dasi/data"))
  s3 := some (memoryClient lost)
  adler32 := adler32Text

theorem memoryTransfers_reliable (lost : Bool) : (memoryTransfers lost).Reliable id := by
  rintro s3 ⟨⟩
  exact memoryClient_stores lost _

theorem sidesAgree_memory :
    SidesAgree takesAscii (sampleAttributes (py "/dasi/data")) none := by
  have safe : (py "minio").all (fun c => c != colon && c != RucioNames.slash && !isDropped c &&
      !isCut c) = true := by decide
  have host : PlainHost takesAscii (py "minio") 9000 := by
    refine ⟨fun c inside => ?_, by decide⟩
    simpa [and_assoc] using List.all_eq_true.mp safe c inside
  refine ⟨⟨9000, rfl, host⟩, _, rfl, ?_⟩
  rw [if_neg (by decide)]
  have plain : (py "/dasi/data").all (fun c => !isDropped c && !isCut c) = true := by decide
  simpa using plain

end Samples

end S3Transfers
