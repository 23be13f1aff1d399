import DasiModel.RucioArchive

/-!
# Sequences of archive calls

Over whole sequences two questions are asked: whether every object whose call
returned normally is there in the end, and whether retrying one object until a
call returns normally leaves it complete. Both depend on what a call does with
a name in use, which it takes for its own object.
-/

namespace RucioRuns
open Texts RucioNames RucioArchive Machines

structure ArchiveCall extends Attempt where
  key : KeyDict
  data : Bytes

/-- One call of `Rucio.archive` on the catalogue. -/
def step (rucio : Rucio) (cat : Catalogue) (c : ArchiveCall) :
    Except RucioException Unit × Catalogue :=
  archive rucio c.clients c.key c.data c.written cat

/-- An empty scope. -/
def noDids : Catalogue := fun _ => none

section Steps
variable (rucio : Rucio) (cat : Catalogue) (c : ArchiveCall)

/-- All that a call can do. -/
theorem step_cases :
    (∃ exc, c.written = .error exc ∧ step rucio cat c = (.error exc, cat)) ∨
    (∃ did, c.written = .ok () ∧ cat (filename c.key) = some did ∧
      step rucio cat c = (c.whenPresent, cat)) ∨
    (∃ exc, c.written = .ok () ∧ cat (filename c.key) = none ∧ c.uploaded = .error exc ∧
      step rucio cat c = (.error exc, cat)) ∨
    (∃ result, c.written = .ok () ∧ cat (filename c.key) = none ∧ c.uploaded = .ok result ∧
      (step rucio cat c).2 =
        Function.update cat (filename c.key) (some (c.stored result c.key c.data)) ∧
      ((step rucio cat c).1 = .ok () ↔
        result.successful = true ∧ ∀ item ∈ c.key.items, c.accepted item.1 = .ok ())) := by
  cases written : c.written with
  | error exc => exact Or.inl ⟨exc, rfl, archive_unwritten rucio c.toAttempt written cat⟩
  | ok _ =>
    refine Or.inr ?_
    cases own : cat (filename c.key) with
    | some did =>
      have out : step rucio cat c = (c.whenPresent, cat) :=
        archive_present rucio c.toAttempt own
      exact Or.inl ⟨did, rfl, rfl, out⟩
    | none =>
      refine Or.inr ?_
      cases uploaded : c.uploaded with
      | error exc =>
        exact Or.inl ⟨exc, rfl, rfl, rfl, archive_failed rucio c.toAttempt written own uploaded⟩
      | ok result =>
        exact Or.inr ⟨result, rfl, rfl, rfl, archive_stored rucio c.toAttempt written own uploaded⟩

variable {cat} {c}

theorem step_present {did : Did} (written : c.written = .ok ())
    (refused : c.refused.isNoFilesUploaded = true)
    (present : cat (filename c.key) = some did) : step rucio cat c = (.ok (), cat) := by
  have returns : c.whenPresent = .ok () := by
    rw [Attempt.whenPresent, written]
    exact if_pos refused
  rw [step, archive_present rucio c.toAttempt present, returns]

/-- No call changes or removes a DID. -/
theorem step_keeps {name : PyStr} {did : Did} (present : cat name = some did) :
    (step rucio cat c).2 name = some did := by
  rcases step_cases rucio cat c with ⟨_, -, out⟩ | ⟨_, -, -, out⟩ | ⟨_, -, -, -, out⟩ |
    ⟨result, -, own, -, out, -⟩
  · rwa [out]
  · rwa [out]
  · rwa [out]
  · have apart : name ≠ filename c.key := by
      rintro rfl
      rw [own] at present
      cases present
    rw [out, Function.update_of_ne apart, present]

/-- A DID that a call adds is its own. -/
theorem step_adds {name : PyStr} {did : Did} (absent : cat name = none)
    (added : (step rucio cat c).2 name = some did) :
    name = filename c.key ∧ c.written = .ok () ∧
      ∃ result, c.uploaded = .ok result ∧ did = c.stored result c.key c.data := by
  have unchanged : (step rucio cat c).2 ≠ cat := by
    intro same
    rw [same, absent] at added
    cases added
  rcases step_cases rucio cat c with ⟨_, -, out⟩ | ⟨_, -, -, out⟩ | ⟨_, -, -, -, out⟩ |
    ⟨result, written, -, uploaded, out, -⟩
  · exact absurd (congrArg Prod.snd out) unchanged
  · exact absurd (congrArg Prod.snd out) unchanged
  · exact absurd (congrArg Prod.snd out) unchanged
  · rw [out] at added
    by_cases same : name = filename c.key
    · subst same
      rw [Function.update_self] at added
      exact ⟨rfl, written, result, uploaded, (Option.some.inj added).symm⟩
    · rw [Function.update_of_ne same, absent] at added
      cases added

theorem after_keeps {name : PyStr} {did : Did} (present : cat name = some did)
    (calls : List ArchiveCall) : after (step rucio) cat calls name = some did :=
  after_invariant (P := fun cat : Catalogue => cat name = some did)
    (fun _ _ present => step_keeps rucio present) present calls

end Steps

section Loss
variable {rucio : Rucio} {calls : List ArchiveCall}

/-- Uploads under new names store the file, those under names in use raise
`NoFilesUploaded`, and metadata are always accepted. -/
structure Reliable (c : ArchiveCall) : Prop where
  stores : ∃ result, c.uploaded = .ok result
  refuses : c.refused.isNoFilesUploaded = true
  accepts : ∀ k, c.accepted k = .ok ()

/-- The keys are different as maps. -/
def DistinctKeys (calls : List ArchiveCall) : Prop :=
  calls.Pairwise (fun a b => ¬ a.key.items.Perm b.key.items)

/-- Every object whose call returned normally is in the catalogue, complete. -/
def Kept (rucio : Rucio) (calls : List ArchiveCall) : Prop :=
  ∀ (i : Nat) (c : ArchiveCall), (trace (step rucio) noDids calls)[i]? = some (c, .ok ()) →
    ∃ name did, after (step rucio) noDids calls name = some did ∧ did.content = c.data ∧
      did.metadata.Perm c.key.items

/-- Two calls that get as far as the upload, with keys that are cut alike. -/
def Collide (a b : ArchiveCall) : Prop :=
  a.written = .ok () ∧ b.written = .ok () ∧ CutAlike a.key b.key

theorem attached_of_reliable {c : ArchiveCall} (reliable : Reliable c) :
    c.attached c.key = c.key.items := by
  rw [Attempt.attached, List.filter_eq_self]
  intro item _
  simp [reliable.accepts item.1]

/-- A DID comes from a call that found its name unused. -/
theorem origin (reliable : ∀ c ∈ calls, Reliable c) {name : PyStr} {did : Did}
    (present : after (step rucio) noDids calls name = some did) :
    ∃ i c, calls[i]? = some c ∧ after (step rucio) noDids (calls.take i) name = none ∧
      filename c.key = name ∧ c.written = .ok () ∧
      (did.metadata = c.key.items ∨ did.metadata = []) := by
  induction calls using List.reverseRecOn with
  | nil => cases present
  | append_singleton calls c ih =>
    rw [after_concat] at present
    cases before : after (step rucio) noDids calls name with
    | some old =>
      rw [step_keeps rucio before] at present
      cases present
      obtain ⟨i, c', hc', rest⟩ :=
        ih (fun c hc => reliable c (List.mem_append_left _ hc)) before
      have inside := (List.getElem?_eq_some_iff.mp hc').1
      refine ⟨i, c', ?_, ?_⟩
      · rw [List.getElem?_append_left inside, hc']
      · rwa [List.take_append_of_le_length (Nat.le_of_lt inside)]
    | none =>
      obtain ⟨rfl, written, result, uploaded, rfl⟩ := step_adds rucio before present
      refine ⟨calls.length, c, by simp, ?_, rfl, written, ?_⟩
      · rwa [List.take_left]
      · have own := attached_of_reliable (reliable c (List.mem_append_right _ List.mem_cons_self))
        cases success : result.successful with
        | true => exact Or.inl (by simp [Attempt.stored, success, own])
        | false => exact Or.inr (by simp [Attempt.stored, success])

/-- After a call that gets as far as the upload, its name is in use. -/
theorem name_in_use (reliable : ∀ c ∈ calls, Reliable c) {i : Nat} {c : ArchiveCall}
    (hc : calls[i]? = some c) (written : c.written = .ok ()) {n : Nat} (later : i < n) :
    ∃ did, after (step rucio) noDids (calls.take n) (filename c.key) = some did := by
  have here : ∃ did, after (step rucio) noDids (calls.take (i + 1)) (filename c.key) =
      some did := by
    rw [List.take_add_one, hc, Option.toList_some, after_concat]
    rcases step_cases rucio (after (step rucio) noDids (calls.take i)) c with
      ⟨exc, unwritten, -⟩ | ⟨did, -, own, out⟩ | ⟨exc, -, -, failed, -⟩ | ⟨result, -, -, -, out, -⟩
    · rw [written] at unwritten
      cases unwritten
    · exact ⟨did, by rwa [out]⟩
    · obtain ⟨result, uploaded⟩ := (reliable c (List.mem_of_getElem? hc)).stores
      rw [uploaded] at failed
      cases failed
    · exact ⟨_, by rw [out, Function.update_self]⟩
  obtain ⟨did, present⟩ := here
  refine ⟨did, ?_⟩
  have split := (List.take_append_drop (i + 1) (calls.take n)).symm
  rw [List.take_take, Nat.min_eq_left later] at split
  rw [split, after_append]
  exact after_keeps rucio present _

/-- Silent loss is exactly a collision of keys between two calls that get as far as
the upload. -/
theorem kept_iff_no_collision (reliable : ∀ c ∈ calls, Reliable c)
    (distinct : DistinctKeys calls) :
    Kept rucio calls ↔ calls.Pairwise (fun a b => ¬ Collide a b) := by
  rw [List.pairwise_iff_getElem]
  rw [DistinctKeys, List.pairwise_iff_getElem] at distinct
  constructor
  · intro kept i j hi hj hij collide
    obtain ⟨written, written', alike⟩ := collide
    have same := (filename_eq_iff _ _).mpr alike
    -- the second call finds the name in use and returns normally
    obtain ⟨did, present⟩ :=
      @name_in_use rucio _ reliable _ _ (List.getElem?_eq_getElem hi) written _ hij
    rw [same] at present
    have returned : (trace (step rucio) noDids calls)[j]? = some (calls[j], .ok ()) := by
      rw [trace_getElem?, List.getElem?_eq_getElem hj, Option.map_some,
        step_present rucio written' (reliable _ (List.getElem_mem hj)).refuses present]
    obtain ⟨name, found, hfound, -, metadata⟩ := kept j _ returned
    -- but the DID with its metadata would come from another call
    obtain ⟨m, c, hc, absent, named, -, items⟩ := origin reliable hfound
    obtain ⟨hm, rfl⟩ := List.getElem?_eq_some_iff.mp hc
    rcases items with own | none
    · rw [own] at metadata
      rcases Nat.lt_trichotomy m j with before | rfl | behind
      · exact distinct m j hm hj before metadata
      · rw [named] at present
        rw [absent] at present
        cases present
      · exact distinct j m hj hm behind metadata.symm
    · rw [none] at metadata
      have empty' := List.perm_nil.mp metadata.symm
      have empty := items_eq_nil_of_cutAlike alike empty'
      exact distinct i j hi hj hij (by rw [empty, empty'])
  · intro apart i c returned
    rw [trace_getElem?] at returned
    obtain ⟨c', hc, answered⟩ := Option.map_eq_some_iff.mp returned
    obtain ⟨hi, rfl⟩ := List.getElem?_eq_some_iff.mp hc
    obtain ⟨rfl, normally⟩ := Prod.mk.inj answered
    rcases step_cases rucio (after (step rucio) noDids (calls.take i)) calls[i] with
      ⟨exc, -, out⟩ | ⟨did, written, own, -⟩ | ⟨exc, -, -, -, out⟩ |
      ⟨result, written, own, -, out, returns⟩
    · rw [out] at normally
      cases normally
    · obtain ⟨m, c, hc, -, named, written', -⟩ :=
        origin (fun c hc => reliable c (List.mem_of_mem_take hc)) own
      obtain ⟨hm, rfl⟩ := List.getElem?_eq_some_iff.mp hc
      rw [List.length_take] at hm
      rw [List.getElem_take] at named written'
      exact absurd ⟨written', written, (filename_eq_iff _ _).mp named⟩
        (apart m i (by omega) hi (by omega))
    · rw [out] at normally
      cases normally
    · obtain ⟨success, -⟩ := returns.mp normally
      have stored : after (step rucio) noDids (calls.take (i + 1)) (filename calls[i].key) =
          some (calls[i].stored result calls[i].key calls[i].data) := by
        rw [List.take_add_one, List.getElem?_eq_getElem hi, Option.toList_some, after_concat, out,
          Function.update_self]
      refine ⟨filename calls[i].key, calls[i].stored result calls[i].key calls[i].data, ?_, rfl, ?_⟩
      · have kept := after_keeps rucio stored (calls.drop (i + 1))
        rwa [← after_append, List.take_append_drop] at kept
      · have own := attached_of_reliable (reliable _ (List.getElem_mem hi))
        simp [Attempt.stored, success, own]

/-- Whether objects can get lost, and whether names can coincide. -/
theorem no_silent_loss_iff (reliable : ∀ c ∈ calls, Reliable c) (distinct : DistinctKeys calls) :
    (Kept rucio calls ↔ calls.Pairwise (fun a b => ¬ Collide a b)) ∧
    (calls.Pairwise (fun a b => filename a.key ≠ filename b.key) ↔
      calls.Pairwise (fun a b => ¬ CutAlike a.key b.key)) := by
  refine ⟨kept_iff_no_collision reliable distinct, ?_⟩
  simp only [ne_eq, filename_eq_iff]

end Loss

section Retries
variable (rucio : Rucio) (key : KeyDict) (data : Bytes)

/-- The calls that try one object again and again. -/
def retries (attempts : List Attempt) : List ArchiveCall :=
  attempts.map (fun attempt => { attempt with key := key, data := data })

/-- The last attempt returns normally. -/
def EndsNormally (attempts : List Attempt) : Prop :=
  ((trace (step rucio) noDids (retries key data attempts)).getLast?.map Prod.snd) = some (.ok ())

/-- The DID is there, with the content and all the items. -/
def Complete (attempts : List Attempt) : Prop :=
  ∃ did, after (step rucio) noDids (retries key data attempts) (filename key) = some did ∧
    did.content = data ∧ ∀ item ∈ key.items, item ∈ did.metadata

/-- In the last attempt the temporary file is written, and an upload of a DID that is there
raises `NoFilesUploaded`. -/
def LastFindsPresent (attempts : List Attempt) : Prop :=
  ∃ last, attempts.getLast? = some last ∧ last.written = .ok () ∧
    last.refused.isNoFilesUploaded = true

/-- The first attempt that uploads the file attaches all the items, unless no later
attempt can end the sequence normally. -/
def RetrySafe : List Attempt → Prop
  | [] => True
  | attempt :: later =>
    match attempt.written, attempt.uploaded with
    | .ok (), .ok result =>
      (∀ item ∈ key.items, result.successful = true ∧ attempt.accepted item.1 = .ok ()) ∨
        ¬ LastFindsPresent later
    | _, _ => RetrySafe later

variable {rucio} {key} {data}

theorem retries_cons (attempt : Attempt) (later : List Attempt) :
    retries key data (attempt :: later) =
      { attempt with key := key, data := data } :: retries key data later := rfl

theorem mem_stored_iff {attempt : Attempt} {result : UploadResult} {item : PyStr × PyStr}
    (own : item ∈ key.items) : item ∈ (attempt.stored result key data).metadata ↔
      result.successful = true ∧ attempt.accepted item.1 = .ok () := by
  rw [Attempt.stored]
  cases success : result.successful with
  | true => simp [Attempt.attached, own]
  | false => simp

theorem whenPresent_ok_iff (attempt : Attempt) : attempt.whenPresent = .ok () ↔
    attempt.written = .ok () ∧ attempt.refused.isNoFilesUploaded = true := by
  rw [Attempt.whenPresent]
  cases attempt.written with
  | error exc => simp
  | ok _ => cases attempt.refused.isNoFilesUploaded <;> simp

/-- Once the DID is there, attempts end as they do on a name in use. -/
theorem trace_present {cat : Catalogue} {did : Did} (present : cat (filename key) = some did)
    (attempts : List Attempt) :
    (trace (step rucio) cat (retries key data attempts)).map Prod.snd =
      attempts.map Attempt.whenPresent := by
  induction attempts with
  | nil => rfl
  | cons attempt later ih =>
    have same : step rucio cat { attempt with key := key, data := data } =
        (attempt.whenPresent, cat) := archive_present rucio attempt present
    rw [retries_cons, trace_cons, same, List.map_cons, List.map_cons, ih]

/-- An attempt that stores nothing raises, and leaves the question to the later ones. -/
theorem question_left {attempt : Attempt} {later : List Attempt} {exc : RucioException}
    (failed : step rucio noDids { attempt with key := key, data := data } =
      (.error exc, noDids)) :
    (EndsNormally rucio key data (attempt :: later) ↔ EndsNormally rucio key data later) ∧
    (Complete rucio key data (attempt :: later) ↔ Complete rucio key data later) := by
  constructor
  · rw [EndsNormally, EndsNormally, retries_cons, trace_cons, failed, List.getLast?_cons]
    cases (trace (step rucio) noDids (retries key data later)).getLast? with
    | none => simp
    | some entry => simp
  · rw [Complete, Complete, retries_cons, after_cons, failed]

section Stored
variable {attempt : Attempt} {result : UploadResult} (written : attempt.written = .ok ())
  (uploaded : attempt.uploaded = .ok result) (later : List Attempt)
include written uploaded

/-- The first upload stores its own DID. -/
theorem step_stores :
    (step rucio noDids { attempt with key := key, data := data }).2 (filename key) =
      some (attempt.stored result key data) := by
  have stored := (@archive_stored rucio attempt key data written noDids rfl result uploaded).1
  rw [step, stored, Function.update_self]

/-- From the first upload on the DID does not change. -/
theorem complete_iff_attached : Complete rucio key data (attempt :: later) ↔
    ∀ item ∈ key.items, result.successful = true ∧ attempt.accepted item.1 = .ok () := by
  have present : after (step rucio) noDids (retries key data (attempt :: later)) (filename key) =
      some (attempt.stored result key data) :=
    after_keeps rucio (step_stores written uploaded) (retries key data later)
  constructor
  · rintro ⟨did, found, -, complete⟩ item own
    rw [present] at found
    cases found
    exact (mem_stored_iff own).mp (complete item own)
  · intro attached
    exact ⟨_, present, rfl, fun item own => (mem_stored_iff own).mpr (attached item own)⟩

theorem endsNormally_iff_of_stored : EndsNormally rucio key data (attempt :: later) ↔
    if later = [] then
      result.successful = true ∧ ∀ item ∈ key.items, attempt.accepted item.1 = .ok ()
    else LastFindsPresent later := by
  have returns := (@archive_stored rucio attempt key data written noDids rfl result uploaded).2
  have answers := @trace_present rucio key data _ _
    (@step_stores rucio key data attempt result written uploaded) later
  rw [EndsNormally, retries_cons, trace_cons, ← List.getLast?_map, List.map_cons, answers,
    List.getLast?_cons, List.getLast?_map, Option.some.injEq, LastFindsPresent]
  cases last : later.getLast? with
  | none =>
    rw [if_pos (List.getLast?_eq_none_iff.mp last)]
    exact returns
  | some attempt' =>
    have some : later ≠ [] := by
      rintro rfl
      cases last
    rw [if_neg some, Option.map_some, Option.getD_some, whenPresent_ok_iff]
    constructor
    · intro finds
      exact ⟨attempt', rfl, finds⟩
    · rintro ⟨_, ⟨⟩, finds⟩
      exact finds

end Stored

/-- Retrying is safe exactly if the first upload is followed through. -/
theorem retry_safe_iff (attempts : List Attempt) :
    (EndsNormally rucio key data attempts → Complete rucio key data attempts) ↔
      RetrySafe key attempts := by
  induction attempts with
  | nil =>
    refine iff_of_true ?_ trivial
    intro normally
    cases normally
  | cons attempt later ih =>
    cases written : attempt.written with
    | error exc =>
      obtain ⟨normally, complete⟩ := @question_left rucio key data attempt later exc
        (archive_unwritten rucio attempt written noDids)
      rw [normally, complete, ih, RetrySafe, written]
    | ok _ =>
      cases uploaded : attempt.uploaded with
      | error exc =>
        obtain ⟨normally, complete⟩ := @question_left rucio key data attempt later exc
          (archive_failed rucio attempt written rfl uploaded)
        rw [normally, complete, ih, RetrySafe, written, uploaded]
      | ok result =>
        rw [complete_iff_attached written uploaded, endsNormally_iff_of_stored written uploaded,
          RetrySafe, written, uploaded]
        by_cases none : later = []
        · subst none
          simp only [if_true]
          refine iff_of_true ?_ (Or.inr (by simp [LastFindsPresent]))
          rintro ⟨success, accepted⟩ item own
          exact ⟨success, accepted item own⟩
        · rw [if_neg none]
          tauto

end Retries

section Samples

def sampleRucio : Rucio := ⟨py "user.root", py "MINIORSE", id⟩

/-- Everything succeeds. -/
def faultless : Attempt where
  clients := .answering (.ok .other) (.noFilesUploaded []) (fun _ => .ok ())
  written := .ok ()
  uploaded := .ok .other
  refused := .noFilesUploaded []
  accepted := fun _ => .ok ()
  follows := Clients.answering_follows _ _ nofun

/-- A call for a key with one item. -/
def sampleCall (k v : PyStr) (data : Bytes) : ArchiveCall :=
  { faultless with
    key := ⟨[(k, v)], List.nodup_singleton k⟩
    data := data }

theorem reliable_sampleCalls (k v k' v' : PyStr) (data data' : Bytes) :
    ∀ c ∈ [sampleCall k v data, sampleCall k' v' data'], Reliable c := by
  intro c hc
  rcases List.mem_pair.mp hc with rfl | rfl
  · exact ⟨⟨.other, rfl⟩, rfl, fun _ => rfl⟩
  · exact ⟨⟨.other, rfl⟩, rfl, fun _ => rfl⟩

theorem distinctKeys_sampleCalls {k v k' v' : PyStr} (apart : (k, v) ≠ (k', v'))
    (data data' : Bytes) : DistinctKeys [sampleCall k v data, sampleCall k' v' data'] := by
  refine List.pairwise_pair.mpr ?_
  intro same
  exact apart (List.singleton_perm_singleton.mp same)

theorem no_silent_loss_iff_sample :
    (Kept sampleRucio [sampleCall (py "a") (py "b") [1], sampleCall (py "a") (py "c") [2]] ↔
      [sampleCall (py "a") (py "b") [1], sampleCall (py "a") (py "c") [2]].Pairwise
        (fun a b => ¬ Collide a b)) ∧
    ([sampleCall (py "a") (py "b") [1], sampleCall (py "a") (py "c") [2]].Pairwise
        (fun a b => filename a.key ≠ filename b.key) ↔
      [sampleCall (py "a") (py "b") [1], sampleCall (py "a") (py "c") [2]].Pairwise
        (fun a b => ¬ CutAlike a.key b.key)) :=
  no_silent_loss_iff (reliable_sampleCalls _ _ _ _ _ _) (distinctKeys_sampleCalls (by decide) _ _)

/-- The calls for `{"a-b": "c"}` and `{"a": "b-c"}`: both names are `a-b-c.data`. -/
def collidingCalls : List ArchiveCall :=
  [sampleCall (py "a-b") (py "c") [1], sampleCall (py "a") (py "b-c") [2]]

theorem object_lost_silently :
    (∀ c ∈ collidingCalls, Reliable c) ∧ DistinctKeys collidingCalls ∧
      (∀ entry ∈ trace (step sampleRucio) noDids collidingCalls, entry.2 = .ok ()) ∧
      ¬ Kept sampleRucio collidingCalls ∧
      ¬ collidingCalls.Pairwise (fun a b => filename a.key ≠ filename b.key) := by
  have reliable : ∀ c ∈ collidingCalls, Reliable c := reliable_sampleCalls _ _ _ _ _ _
  have distinct : DistinctKeys collidingCalls := distinctKeys_sampleCalls (by decide) _ _
  have same : filename (sampleCall (py "a-b") (py "c") [1]).key =
      filename (sampleCall (py "a") (py "b-c") [2]).key := by decide
  refine ⟨reliable, distinct, ?_, ?_, ?_⟩
  · decide
  · intro kept
    have apart := (kept_iff_no_collision reliable distinct).mp kept
    exact List.pairwise_pair.mp apart ⟨rfl, rfl, (filename_eq_iff _ _).mp same⟩
  · intro apart
    exact List.pairwise_pair.mp apart same

/-- The upload succeeds, and no item is accepted. -/
def rejecting : Attempt where
  clients := .answering (.ok .other) (.noFilesUploaded [])
    (fun _ => .error (.other (py "Invalid metadata.")))
  written := .ok ()
  uploaded := .ok .other
  refused := .noFilesUploaded []
  accepted := fun _ => .error (.other (py "Invalid metadata."))
  follows := Clients.answering_follows _ _ nofun

/-- The second of two attempts returns normally and attaches nothing. -/
theorem retry_loses_metadata :
    EndsNormally sampleRucio (sampleCall (py "a") (py "b") [1]).key [1] [rejecting, faultless] ∧
      ¬ Complete sampleRucio (sampleCall (py "a") (py "b") [1]).key [1]
        [rejecting, faultless] := by
  refine ⟨rfl, ?_⟩
  intro complete
  have attached := (@complete_iff_attached sampleRucio (sampleCall (py "a") (py "b") [1]).key [1]
    rejecting .other rfl rfl [faultless]).mp complete (py "a", py "b") List.mem_cons_self
  exact absurd attached.2 (by decide)

end Samples

end RucioRuns
