import DasiModel.RucioReaders
import DasiModel.RucioIteration

/-!
# The Rucio backend as a store

What a sequence of archive calls put into a scope is what a retrieval gets out
of it: the objects whose call returned normally and whose keys match, each once
and with its own bytes. This needs that no two keys share a name and that the
server finds and delivers what it has.
-/

namespace RucioStore
open Texts RucioNames RucioArchive RucioRuns RucioRetrieval RucioIteration RucioReaders Machines
open Iterators ResultCursors

universe u
variable {F : Type u} {rucio : Rucio} {calls : List ArchiveCall}

/-- The objects of a run whose calls returned normally, with the DIDs they should have. -/
def Archived (rucio : Rucio) (calls : List ArchiveCall) (name : PyStr) (did : Did) : Prop :=
  ∃ (i : Nat) (c : ArchiveCall), (trace (step rucio) noDids calls)[i]? = some (c, .ok ()) ∧
    filename c.key = name ∧ did = ⟨c.data, c.key.items⟩

/-- A DID was stored by a call that found its name unused. -/
theorem stored_by {name : PyStr} {did : Did}
    (present : after (step rucio) noDids calls name = some did) :
    ∃ i c result, calls[i]? = some c ∧ c.written = .ok () ∧ c.uploaded = .ok result ∧
      filename c.key = name ∧ after (step rucio) noDids (calls.take i) name = none ∧
      did = c.stored result c.key c.data := by
  induction calls using List.reverseRecOn with
  | nil => cases present
  | append_singleton calls c ih =>
    rw [after_concat] at present
    cases before : after (step rucio) noDids calls name with
    | some old =>
      rw [step_keeps rucio before] at present
      cases present
      obtain ⟨i, c', result, hc', written, uploaded, named, absent, own⟩ := ih before
      have inside := (List.getElem?_eq_some_iff.mp hc').1
      refine ⟨i, c', result, ?_, written, uploaded, named, ?_, own⟩
      · rw [List.getElem?_append_left inside, hc']
      · rwa [List.take_append_of_le_length (Nat.le_of_lt inside)]
    | none =>
      obtain ⟨rfl, written, result, uploaded, own⟩ := step_adds rucio before present
      refine ⟨calls.length, c, result, by simp, written, uploaded, rfl, ?_, own⟩
      rwa [List.take_left]

theorem after_take_succ {i : Nat} {c : ArchiveCall} (hc : calls[i]? = some c) (cat : Catalogue) :
    after (step rucio) cat (calls.take (i + 1)) =
      (step rucio (after (step rucio) cat (calls.take i)) c).2 := by
  rw [List.take_add_one, hc, Option.toList_some, after_concat]

theorem answer_at {i : Nat} {c : ArchiveCall} {result : Except RucioException Unit}
    (answered : (trace (step rucio) noDids calls)[i]? = some (c, result)) :
    calls[i]? = some c ∧ (step rucio (after (step rucio) noDids (calls.take i)) c).1 = result := by
  rw [trace_getElem?] at answered
  obtain ⟨c', hc, same⟩ := Option.map_eq_some_iff.mp answered
  obtain ⟨rfl, rfl⟩ := Prod.mk.inj same
  exact ⟨hc, rfl⟩

/-- Every DID with metadata is a whole object whose call returned normally. -/
theorem archived_of_stored (reliable : ∀ c ∈ calls, Reliable c) {name : PyStr} {did : Did}
    (present : after (step rucio) noDids calls name = some did) (some : did.metadata ≠ []) :
    Archived rucio calls name did := by
  obtain ⟨i, c, result, hc, written, uploaded, rfl, absent, rfl⟩ := stored_by present
  have attached := attached_of_reliable (reliable c (List.mem_of_getElem? hc))
  have success : result.successful = true := by
    by_contra failure
    exact some (by simp [Attempt.stored, failure])
  refine ⟨i, c, ?_, rfl, by simp [Attempt.stored, success, attached]⟩
  have returns := (@archive_stored rucio c.toAttempt c.key c.data written _ absent result
    uploaded).2
  have normally := returns.mpr
    ⟨success, fun item _ => (reliable c (List.mem_of_getElem? hc)).accepts item.1⟩
  rw [trace_getElem?, hc, Option.map_some, step, normally]

/-- If no keys collide, an object whose call returned normally is there as a whole. -/
theorem stored_of_archived (reliable : ∀ c ∈ calls, Reliable c)
    (apart : calls.Pairwise (fun a b => ¬ Collide a b)) {name : PyStr} {did : Did}
    (archived : Archived rucio calls name did) :
    after (step rucio) noDids calls name = some did := by
  obtain ⟨i, c, answered, rfl, rfl⟩ := archived
  obtain ⟨hc, normally⟩ := answer_at answered
  obtain ⟨hi, rfl⟩ := List.getElem?_eq_some_iff.mp hc
  rcases step_cases rucio (after (step rucio) noDids (calls.take i)) calls[i] with
    ⟨exc, -, out⟩ | ⟨did, written, present, -⟩ | ⟨exc, -, -, -, out⟩ |
    ⟨result, -, -, -, out, returns⟩
  · rw [out] at normally
    cases normally
  · -- the name was in use: an earlier call has a key that collides
    obtain ⟨m, earlier, -, hm, written', -, named, -⟩ := stored_by present
    obtain ⟨inside, rfl⟩ := List.getElem?_eq_some_iff.mp hm
    rw [List.getElem_take] at written' named
    rw [List.length_take] at inside
    rw [List.pairwise_iff_getElem] at apart
    exact absurd ⟨written', written, (filename_eq_iff _ _).mp named⟩
      (apart m i (by omega) hi (by omega))
  · rw [out] at normally
    cases normally
  · have success := (returns.mp normally).1
    have own := attached_of_reliable (reliable _ (List.getElem_mem hi))
    have stored : after (step rucio) noDids (calls.take (i + 1)) (filename calls[i].key) =
        some ⟨calls[i].data, calls[i].key.items⟩ := by
      rw [after_take_succ hc, out, Function.update_self, Attempt.stored, if_pos success, own]
    have kept := after_keeps rucio stored (calls.drop (i + 1))
    rwa [← after_append, List.take_append_drop] at kept

section Retrieving
variable {server : Server F} {filters : F} {cat : Catalogue} {entries : List DidEntry}
  {found : Did → Prop}

/-- On a catalogue, a query finds the matching DIDs once each, and downloads complete and
leave the content of the DID where it is found. -/
structure Serves (scope : PyStr) (server : Server F) (filters : F) (cat : Catalogue)
    (found : Did → Prop) (entries : List DidEntry) : Prop where
  listed : server.listDids scope filters cat = .ok entries
  names : (entries.map DidEntry.ownName).Nodup
  exactly : ∀ name, name ∈ entries.map DidEntry.ownName ↔ ∃ did, cat name = some did ∧ found did
  temporary : ∀ name, ∃ tmpdir, server.temporaryDirectory name = .ok tmpdir
  delivers : ∀ name did (item : ItemSpec), cat name = some did →
    item.did = scope ++ py ":" ++ name →
    ∃ downloaded, server.downloadDids item cat = .ok downloaded ∧ Complete downloaded ∧
      Holds downloaded item.baseDir name did.content

/-- A download of a DID that is there yields its content. -/
def contentOutcome (cat : Catalogue) (name : PyStr) : Outcome :=
  match cat name with
  | some did => .bytes did.content
  | none => .notDownloadable

theorem Serves.ends {backend : Backend}
    (serves : Serves backend.scope server filters cat found entries) {entry : DidEntry}
    (inside : entry ∈ entries) : (contentOutcome cat entry.ownName).Ends
      ((backend.settings server cat filters).download entry.ownName) := by
  obtain ⟨did, present, -⟩ := (serves.exactly _).mp (List.mem_map_of_mem inside)
  obtain ⟨tmpdir, temporary⟩ := serves.temporary entry.ownName
  obtain ⟨downloaded, returned, complete, holds⟩ := serves.delivers entry.ownName did
    ⟨backend.scope ++ py ":" ++ entry.ownName, tmpdir, true, backend.rse, backend.protocol⟩
    present rfl
  have whole : downloadDid (backend.settings server cat filters) entry.ownName =
      .ok (tmpdir, downloaded) := by
    simp only [downloadDid, Backend.settings, Server.clients, temporary, Settings.did, returned]
    rfl
  rw [contentOutcome, present]
  exact download_of_holds whole complete holds

/-- The item that a DID is retrieved as. -/
def retrievedItem (backend : Backend) (server : Server F) (filters : F) (cat : Catalogue)
    (entry : DidEntry) : Option (RucioRetrieveItem PyStr) :=
  (cat entry.ownName).map (fun did =>
    (backend.settings server cat filters).item entry.ownName did.content)

theorem answerFor_eq_retrieved {backend : Backend}
    (serves : Serves backend.scope server filters cat found entries) {entry : DidEntry}
    (inside : entry ∈ entries) :
    answerFor (backend.settings server cat filters) (contentOutcome cat) entry =
      (retrievedItem backend server filters cat entry).map Except.ok := by
  obtain ⟨did, present, -⟩ := (serves.exactly _).mp (List.mem_map_of_mem inside)
  simp only [answerFor, contentOutcome, retrievedItem, present, Option.map_some, item_eq]

/-- A retrieval yields the DIDs that a query finds, once each, and stops. -/
theorem retrieval_serves {backend : Backend}
    (serves : Serves backend.scope server filters cat found entries) (history : List Op) :
    let retrieve := history.foldl perform
      (RucioRetrieve.new (backend.settings server cat filters))
    retrieve.iter.1 = .ok () ∧ ∃ items : List (RucioRetrieveItem PyStr),
      (∀ i, call RucioRetrieve.next retrieve.iter.2 i =
        (items.map Except.ok)[i]?.getD (.error .stopIteration)) ∧
      (items.map RucioRetrieveItem.name).Nodup ∧
      ∀ name data, (∃ item ∈ items, item.name = name ∧ item.data = data) ↔
        ∃ did, cat name = some did ∧ found did ∧ did.content = data := by
  intro retrieve
  have own : retrieve.settings = backend.settings server cat filters := history_settings _ history
  obtain ⟨opened, answers⟩ :=
    call_of_listed own serves.listed (fun entry inside => serves.ends inside)
  let items := entries.filterMap (retrievedItem backend server filters cat)
  have answered : entries.filterMap (answerFor (backend.settings server cat filters)
      (contentOutcome cat)) = items.map Except.ok := by
    rw [List.map_filterMap]
    exact List.filterMap_congr (fun entry inside => answerFor_eq_retrieved serves inside)
  have there : ∀ entry ∈ entries, ∃ did, cat entry.ownName = some did ∧ found did :=
    fun entry inside => (serves.exactly _).mp (List.mem_map_of_mem inside)
  have names : items.map RucioRetrieveItem.name = entries.map DidEntry.ownName := by
    rw [List.map_filterMap, ← List.filterMap_eq_map]
    refine List.filterMap_congr (fun entry inside => ?_)
    obtain ⟨did, present, -⟩ := there entry inside
    simp only [retrievedItem, present, Option.map_some, Function.comp_apply]
    rfl
  refine ⟨opened, items, fun i => by rw [answers i, answered], names ▸ serves.names, ?_⟩
  intro name data
  constructor
  · rintro ⟨item, inside, rfl, rfl⟩
    obtain ⟨entry, member, same⟩ := List.mem_filterMap.mp inside
    obtain ⟨did, present, matching⟩ := there entry member
    rw [retrievedItem, present] at same
    obtain rfl := Option.some.inj same
    exact ⟨did, present, matching, rfl⟩
  · rintro ⟨did, present, matching, rfl⟩
    have listed := (serves.exactly name).mpr ⟨did, present, matching⟩
    obtain ⟨entry, member, rfl⟩ := List.mem_map.mp listed
    have yields : retrievedItem backend server filters cat entry =
        some ((backend.settings server cat filters).item entry.ownName did.content) := by
      rw [retrievedItem, present, Option.map_some]
    exact ⟨_, List.mem_filterMap.mpr ⟨entry, member, yields⟩, rfl, rfl⟩

end Retrieving

/-- After any sequence of archive calls whose keys do not collide, retrieving yields exactly
the objects whose call returned normally and that the query finds: each once, under its own
name and with its own bytes. -/
theorem retrieves_exactly_archived {backend : Backend} {calls : List ArchiveCall}
    (reliable : ∀ c ∈ calls, Reliable c) (apart : calls.Pairwise (fun a b => ¬ Collide a b))
    {server : Server F} {filters : F} {found : Did → Prop} {entries : List DidEntry}
    (serves : Serves backend.scope server filters (after (step backend.toRucio) noDids calls)
      found entries)
    (bare : ∀ did : Did, did.metadata = [] → ¬ found did) (history : List Op) :
    let retrieve := history.foldl perform (RucioRetrieve.new
      (backend.settings server (after (step backend.toRucio) noDids calls) filters))
    retrieve.iter.1 = .ok () ∧ ∃ items : List (RucioRetrieveItem PyStr),
      (∀ i, call RucioRetrieve.next retrieve.iter.2 i =
        (items.map Except.ok)[i]?.getD (.error .stopIteration)) ∧
      (items.map RucioRetrieveItem.name).Nodup ∧
      ∀ name data, (∃ item ∈ items, item.name = name ∧ item.data = data) ↔
        ∃ did, Archived backend.toRucio calls name did ∧ found did ∧ did.content = data := by
  intro retrieve
  obtain ⟨opened, items, answers, names, contents⟩ := retrieval_serves serves history
  refine ⟨opened, items, answers, names, fun name data => (contents name data).trans ?_⟩
  constructor
  · rintro ⟨did, present, matching, same⟩
    have some : did.metadata ≠ [] := fun none => bare did none matching
    exact ⟨did, archived_of_stored reliable present some, matching, same⟩
  · rintro ⟨did, archived, matching, same⟩
    exact ⟨did, stored_of_archived reliable apart archived, matching, same⟩

section Samples

/-- A filter is one item that the metadata must have. -/
def filteringServer (candidates : List PyStr) : Server (PyStr × PyStr) where
  listDids _ item cat :=
    .ok ((candidates.filter (fun name => (cat name).any (fun did => item ∈ did.metadata))).map
      (fun name => ⟨some name, none⟩))
  temporaryDirectory := (sampleServer candidates).temporaryDirectory
  downloadDids := (sampleServer candidates).downloadDids
  getMetadata := (sampleServer candidates).getMetadata

theorem filteringServer_serves {candidates : List PyStr} (distinct : candidates.Nodup)
    {cat : Catalogue} (inside : ∀ name did, cat name = some did → name ∈ candidates)
    (item : PyStr × PyStr) : Serves (py "user.root") (filteringServer candidates) item cat
      (fun did => item ∈ did.metadata)
      ((candidates.filter (fun name => (cat name).any (fun did => item ∈ did.metadata))).map
        (fun name => ⟨some name, none⟩)) where
  listed := rfl
  names := by
    rw [List.map_map]
    exact (distinct.filter _).map (fun _ _ same => same)
  exactly := by
    intro name
    have own : (DidEntry.ownName ∘ fun name => ⟨some name, none⟩) = (id : PyStr → PyStr) := rfl
    rw [List.map_map, own, List.map_id, List.mem_filter, Option.any_eq_true]
    constructor
    · rintro ⟨-, did, present, matching⟩
      exact ⟨did, present, of_decide_eq_true matching⟩
    · rintro ⟨did, present, matching⟩
      exact ⟨inside name did present, did, present, decide_eq_true matching⟩
  temporary := fun _ => ⟨py "/tmp/x", rfl⟩
  delivers := by
    intro name did spec present named
    have own : spec.did.drop (py "user.root:").length = name := by
      rw [named]
      exact List.drop_left
    refine ⟨⟨[some (py "DONE")], .nil, fun _ => some (.ok did.content), none⟩, ?_, ?_,
      Or.inl rfl⟩
    · simp only [filteringServer, sampleServer, own, present]
    · rintro state ⟨⟩
      exact Or.inl rfl

def storedCalls : List ArchiveCall :=
  [sampleCall (py "a") (py "b") [1], sampleCall (py "a") (py "c") [2]]

theorem retrieves_exactly_archived_sample :
    let cat := after (step sampleRucio) noDids storedCalls
    let server := filteringServer [py "a-b.data", py "a-c.data"]
    let retrieve := RucioRetrieve.new (sampleBackend.settings server cat (py "a", py "c"))
    retrieve.iter.1 = .ok () ∧ ∃ items : List (RucioRetrieveItem PyStr),
      (∀ i, call RucioRetrieve.next retrieve.iter.2 i =
        (items.map Except.ok)[i]?.getD (.error .stopIteration)) ∧
      (items.map RucioRetrieveItem.name).Nodup ∧
      ∀ name data, (∃ item ∈ items, item.name = name ∧ item.data = data) ↔
        ∃ did, Archived sampleRucio storedCalls name did ∧ (py "a", py "c") ∈ did.metadata ∧
          did.content = data := by
  have reliable : ∀ c ∈ storedCalls, Reliable c := reliable_sampleCalls _ _ _ _ _ _
  have apart : storedCalls.Pairwise (fun a b => ¬ Collide a b) := by
    refine List.pairwise_pair.mpr ?_
    rintro ⟨-, -, alike⟩
    have same := (filename_eq_iff _ _).mpr alike
    revert same
    decide
  have inside : ∀ name did, after (step sampleRucio) noDids storedCalls name = some did →
      name ∈ [py "a-b.data", py "a-c.data"] := by
    intro name did present
    obtain ⟨i, c, result, hc, -, -, rfl, -, -⟩ := stored_by present
    rcases List.mem_pair.mp (List.mem_of_getElem? hc) with rfl | rfl
    · decide
    · decide
  have bare : ∀ did : Did, did.metadata = [] → ¬ (py "a", py "c") ∈ did.metadata := by
    intro did none matching
    rw [none] at matching
    cases matching
  have serves := filteringServer_serves (by decide) inside (py "a", py "c")
  exact @retrieves_exactly_archived _ sampleBackend _ reliable apart _ _ _ _ serves bare []

end Samples

end RucioStore
