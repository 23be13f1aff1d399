import DasiModel.RucioRuns
import DasiModel.RucioRetrieval

/-!
# Retrieving while others archive

Any number of retrievals and archive calls act on one scope in any order. A
retrieval asks for the names once and for the contents later, one by one, when
the catalogue may have grown. Its clients stand for the catalogue of the moment,
so they are put together with the rest of the retrieval at each call.
-/

namespace RucioReaders
open Texts RucioNames RucioArchive RucioRuns RucioRetrieval Machines

universe u
variable {F : Type u}

/-- What the read calls of Rucio answer, with the catalogue they are asked for. -/
structure Server (F : Type u) where
  listDids : (scope : PyStr) → (filters : F) → Catalogue →
    Except RetrieveException (List DidEntry)
  temporaryDirectory : (name : PyStr) → Except RetrieveException PyStr
  downloadDids : ItemSpec → Catalogue → Except RetrieveException Downloaded
  getMetadata : (scope name : PyStr) → Catalogue → Except RetrieveException (List (PyStr × PyStr))

def Server.clients (server : Server F) (cat : Catalogue) : RetrieveClients F PyStr where
  listDids scope filters := server.listDids scope filters cat
  temporaryDirectory := server.temporaryDirectory
  downloadDids item := server.downloadDids item cat
  getMetadata scope name := server.getMetadata scope name cat

/-- A server lists DIDs that are there, and what it tells of a DID depends on that DID
alone. It may refuse any call. -/
structure Answers (scope : PyStr) (server : Server F) : Prop where
  listed : ∀ {filters cat entries}, server.listDids scope filters cat = .ok entries →
    ∀ entry ∈ entries, (cat entry.ownName).isSome = true
  download : ∀ {name cat cat'} (item : ItemSpec), item.did = scope ++ py ":" ++ name →
    cat name = cat' name → server.downloadDids item cat = server.downloadDids item cat'
  metadata : ∀ {name cat cat'}, cat name = cat' name →
    server.getMetadata scope name cat = server.getMetadata scope name cat'

/-- A `RucioRetrieve` without its clients and the configuration. -/
structure Reader (F : Type u) where
  filters : F
  didList : List DidEntry
  index : Nat
  current : Option (RucioRetrieveItem PyStr)

/-- The backend: the configuration and the preferred protocol. -/
structure Backend extends Rucio where
  protocol : PyStr

def Backend.settings (backend : Backend) (server : Server F) (cat : Catalogue) (filters : F) :
    Settings F PyStr :=
  ⟨server.clients cat, backend.scope, backend.rse, backend.protocol, filters⟩

def Reader.at (backend : Backend) (server : Server F) (cat : Catalogue) (reader : Reader F) :
    RucioRetrieve F PyStr :=
  ⟨backend.settings server cat reader.filters, reader.didList, reader.index, reader.current⟩

def Reader.of (retrieve : RucioRetrieve F PyStr) : Reader F :=
  ⟨retrieve.settings.filters, retrieve.didList, retrieve.index, retrieve.current⟩

inductive Call (F : Type u) where
  | archive (c : ArchiveCall)
  /-- `Rucio.retrieve`: a new retrieval under a number. -/
  | retrieve (reader : Nat) (filters : F)
  | iter (reader : Nat) (server : Server F)
  | next (reader : Nat) (server : Server F)
  | len (reader : Nat) (server : Server F)
  /-- The properties that show the current item. -/
  | current (reader : Nat) (server : Server F)

/-- `key`, `data`, `timestamp`, `offset` and `length` of a retrieval. -/
structure Properties where
  key : List (PyStr × PyStr)
  data : Bytes
  timestamp : Option PyStr
  offset : Int
  length : Int

def properties (retrieve : RucioRetrieve F PyStr) : Properties :=
  ⟨retrieve.key, retrieve.data, retrieve.timestamp, retrieve.offset, retrieve.length⟩

inductive Reply where
  | archived (result : Except RucioException Unit)
  | retrieving
  | listed (result : Except RetrieveException Unit)
  | yielded (result : Except RetrieveException (RucioRetrieveItem PyStr))
  | length (n : Int)
  | shown (properties : Properties)

section Live

structure Live (F : Type u) where
  catalogue : Catalogue
  readers : Nat → Reader F

/-- A call on the scope as it is. -/
def liveStep (backend : Backend) (s : Live F) : Call F → Reply × Live F
  | .archive c =>
    let (result, cat) := step backend.toRucio s.catalogue c
    (.archived result, { s with catalogue := cat })
  | .retrieve r filters =>
    (.retrieving, { s with readers := Function.update s.readers r ⟨filters, [], 0, none⟩ })
  | .iter r server =>
    let (result, retrieve) := ((s.readers r).at backend server s.catalogue).iter
    (.listed result, { s with readers := Function.update s.readers r (.of retrieve) })
  | .next r server =>
    let (result, retrieve) := ((s.readers r).at backend server s.catalogue).next
    (.yielded result, { s with readers := Function.update s.readers r (.of retrieve) })
  | .len r server => (.length ((s.readers r).at backend server s.catalogue).len, s)
  | .current r server =>
    (.shown (properties ((s.readers r).at backend server s.catalogue)), s)

end Live

section Frozen

/-- Every reader has a catalogue of its own, taken when it last listed the DIDs. -/
structure Frozen (F : Type u) where
  catalogue : Catalogue
  readers : Nat → Catalogue × Reader F

/-- A call if every retrieval downloads from the catalogue that it listed. -/
def frozenStep (backend : Backend) (s : Frozen F) : Call F → Reply × Frozen F
  | .archive c =>
    let (result, cat) := step backend.toRucio s.catalogue c
    (.archived result, { s with catalogue := cat })
  | .retrieve r filters =>
    (.retrieving,
      { s with readers := Function.update s.readers r (noDids, ⟨filters, [], 0, none⟩) })
  | .iter r server =>
    let (own, reader) := s.readers r
    match (reader.at backend server s.catalogue).iter with
    | (.ok (), retrieve) =>
      (.listed (.ok ()),
        { s with readers := Function.update s.readers r (s.catalogue, .of retrieve) })
    | (.error exc, retrieve) =>
      (.listed (.error exc), { s with readers := Function.update s.readers r (own, .of retrieve) })
  | .next r server =>
    let (own, reader) := s.readers r
    let (result, retrieve) := (reader.at backend server own).next
    (.yielded result, { s with readers := Function.update s.readers r (own, .of retrieve) })
  | .len r server =>
    let (own, reader) := s.readers r
    (.length (reader.at backend server own).len, s)
  | .current r server =>
    let (own, reader) := s.readers r
    (.shown (properties (reader.at backend server own)), s)

end Frozen

section Isolation
variable {backend : Backend} {server : Server F}

/-- The DIDs of a list are in a catalogue, and in a later one unchanged. -/
def Shared (own later : Catalogue) (entries : List DidEntry) : Prop :=
  ∀ entry ∈ entries, ∃ did, own entry.ownName = some did ∧ later entry.ownName = some did

theorem Shared.step {own later : Catalogue} {entries : List DidEntry}
    (shared : Shared own later entries) (rucio : Rucio) (c : ArchiveCall) :
    Shared own (RucioRuns.step rucio later c).2 entries := by
  intro entry inside
  obtain ⟨did, here, there⟩ := shared entry inside
  exact ⟨did, here, step_keeps rucio there⟩

theorem Shared.eq {own later : Catalogue} {entries : List DidEntry}
    (shared : Shared own later entries) {entry : DidEntry} (inside : entry ∈ entries) :
    later entry.ownName = own entry.ownName := by
  obtain ⟨did, here, there⟩ := shared entry inside
  rw [here, there]

theorem download_congr (answers : Answers backend.scope server) {name : PyStr}
    {cat cat' : Catalogue} (same : cat name = cat' name) (filters : F) :
    (backend.settings server cat filters).download name =
      (backend.settings server cat' filters).download name := by
  simp only [Settings.download, Backend.settings, Server.clients, Settings.did]
  cases server.temporaryDirectory name with
  | error exc => rfl
  | ok tmpdir =>
    have asked := answers.download
      ⟨backend.scope ++ py ":" ++ name, tmpdir, true, backend.rse, backend.protocol⟩ rfl same
    simp only [asked]

theorem item_congr (answers : Answers backend.scope server) {name : PyStr}
    {cat cat' : Catalogue} (same : cat name = cat' name) (filters : F) (data : Bytes) :
    (backend.settings server cat filters).item name data =
      (backend.settings server cat' filters).item name data := by
  simp only [Settings.item, Backend.settings, Server.clients, answers.metadata same]

/-- The loop of `next` on catalogues that agree on the DIDs ahead. -/
theorem nextFrom_congr (answers : Answers backend.scope server) {own later : Catalogue}
    {entries : List DidEntry} (shared : Shared own later entries) (reader : Reader F) :
    ((reader.at backend server later).nextFrom entries).1 =
      ((reader.at backend server own).nextFrom entries).1 ∧
    Reader.of ((reader.at backend server later).nextFrom entries).2 =
      Reader.of ((reader.at backend server own).nextFrom entries).2 := by
  induction entries generalizing reader with
  | nil => exact ⟨rfl, rfl⟩
  | cons entry rest ih =>
    have same := shared.eq List.mem_cons_self
    have download := download_congr answers same reader.filters
    have item := item_congr answers same reader.filters
    have skipped := ih (fun entry inside => shared entry (List.mem_cons_of_mem _ inside))
      { reader with index := reader.index + 1 }
    rw [RucioRetrieve.nextFrom, RucioRetrieve.nextFrom]
    simp only [Reader.at, download, item] at skipped ⊢
    cases (backend.settings server own reader.filters).download entry.ownName with
    | ok data => exact ⟨rfl, rfl⟩
    | error exc =>
      cases skip : exc.isSkipped with
      | true => simpa only [skip, if_true] using skipped
      | false =>
        simp only [skip, Bool.false_eq_true, if_false]
        exact ⟨trivial, rfl⟩

/-- The loop moves through the list, which stays as it is. -/
theorem nextFrom_didList (retrieve : RucioRetrieve F PyStr) (entries : List DidEntry) :
    (retrieve.nextFrom entries).2.didList = retrieve.didList := by
  induction entries generalizing retrieve with
  | nil => rfl
  | cons entry rest ih =>
    rw [RucioRetrieve.nextFrom]
    split
    · split
      · exact ih _
      · rfl
    · rfl

/-- The two systems have the same catalogue and retrievals, and what a retrieval has listed
is in its own catalogue as it is in the common one. -/
structure Agree (live : Live F) (frozen : Frozen F) : Prop where
  catalogue : frozen.catalogue = live.catalogue
  readers : ∀ r, (frozen.readers r).2 = live.readers r
  shared : ∀ r, Shared (frozen.readers r).1 live.catalogue (live.readers r).didList

/-- One retrieval moves on, on both sides. -/
theorem Agree.update {live : Live F} {frozen : Frozen F} (agree : Agree live frozen) (r : Nat)
    {own : Catalogue} {reader : Reader F} (shared : Shared own live.catalogue reader.didList) :
    Agree { live with readers := Function.update live.readers r reader }
      { frozen with readers := Function.update frozen.readers r (own, reader) } := by
  refine ⟨agree.catalogue, fun r' => ?_, fun r' => ?_⟩
  · by_cases same : r' = r
    · subst same
      simp only [Function.update_self]
    · simpa only [Function.update_of_ne same] using agree.readers r'
  · by_cases same : r' = r
    · subst same
      simpa only [Function.update_self] using shared
    · simpa only [Function.update_of_ne same] using agree.shared r'

/-- The servers of the read calls answer as they should. -/
def Call.Proper (scope : PyStr) : Call F → Prop
  | .archive _ => True
  | .retrieve _ _ => True
  | .iter _ server => Answers scope server
  | .next _ server => Answers scope server
  | .len _ _ | .current _ _ => True

theorem step_agree {live : Live F} {frozen : Frozen F} {op : Call F}
    (proper : op.Proper backend.scope) (agree : Agree live frozen) :
    (liveStep backend live op).1 = (frozenStep backend frozen op).1 ∧
    Agree (liveStep backend live op).2 (frozenStep backend frozen op).2 := by
  obtain ⟨cat, readers⟩ := live
  obtain ⟨cat', readers'⟩ := frozen
  obtain rfl : cat' = cat := agree.catalogue
  cases op with
  | archive c =>
    exact ⟨rfl, rfl, agree.readers, fun r => (agree.shared r).step backend.toRucio c⟩
  | retrieve r filters =>
    exact ⟨rfl, agree.update r (by simp [Shared])⟩
  | iter r server =>
    have reader := agree.readers r
    simp only at reader
    simp only [liveStep, frozenStep, reader]
    cases listed : server.listDids backend.scope (readers r).filters cat' with
    | error exc =>
      have failed : ((readers r).at backend server cat').iter =
          (.error exc, (readers r).at backend server cat') := by
        simp only [RucioRetrieve.iter, Reader.at, Backend.settings, Server.clients, listed]
      rw [failed]
      exact ⟨rfl, agree.update r (agree.shared r)⟩
    | ok entries =>
      rw [RucioRetrieve.iter_listed _ listed]
      refine ⟨rfl, agree.update r ?_⟩
      intro entry inside
      obtain ⟨did, present⟩ := Option.isSome_iff_exists.mp (proper.listed listed entry inside)
      exact ⟨did, present, present⟩
  | next r server =>
    have reader := agree.readers r
    simp only at reader
    simp only [liveStep, frozenStep, reader]
    have ahead : Shared (readers' r).1 cat' ((readers r).didList.drop (readers r).index) :=
      fun entry inside => agree.shared r entry (List.mem_of_mem_drop inside)
    obtain ⟨answer, moved⟩ := nextFrom_congr proper ahead (readers r)
    have same : (((readers r).at backend server (readers' r).1).next).2.didList =
        (readers r).didList := nextFrom_didList _ _
    have shared : Shared (readers' r).1 cat'
        (Reader.of ((readers r).at backend server (readers' r).1).next.2).didList := by
      simpa only [Reader.of, same] using agree.shared r
    have moved' : Reader.of ((readers r).at backend server cat').next.2 =
        Reader.of ((readers r).at backend server (readers' r).1).next.2 := moved
    refine ⟨congrArg Reply.yielded answer, ?_⟩
    rw [moved']
    exact agree.update r shared
  | len r server =>
    have reader := agree.readers r
    refine ⟨?_, agree⟩
    simp only at reader
    simp only [liveStep, frozenStep, reader]
    rfl
  | current r server =>
    have reader := agree.readers r
    refine ⟨?_, agree⟩
    simp only at reader
    simp only [liveStep, frozenStep, reader]
    rfl

/-- Nothing has been listed yet. -/
def Live.start (cat : Catalogue) (filters : F) : Live F := ⟨cat, fun _ => ⟨filters, [], 0, none⟩⟩

def Frozen.start (cat : Catalogue) (filters : F) : Frozen F :=
  ⟨cat, fun _ => (noDids, ⟨filters, [], 0, none⟩)⟩

theorem start_agree (cat : Catalogue) (filters : F) :
    Agree (Live.start cat filters) (Frozen.start cat filters) :=
  ⟨rfl, fun _ => rfl, fun _ _ inside => absurd inside List.not_mem_nil⟩

/-- Whatever is archived meanwhile, and however the calls of any number of retrievals are
interleaved, each call answers as if its retrieval had kept the catalogue it listed. -/
theorem snapshot_isolation {calls : List (Call F)}
    (proper : ∀ op ∈ calls, op.Proper backend.scope) (cat : Catalogue) (filters : F) :
    trace (liveStep backend) (.start cat filters) calls =
      trace (frozenStep backend) (.start cat filters) calls := by
  have lockstep : ∀ (live : Live F) (frozen : Frozen F) (op : Call F),
      op.Proper backend.scope → Agree live frozen →
      (liveStep backend live op).1 = (frozenStep backend frozen op).1 ∧
        Agree (liveStep backend live op).2 (frozenStep backend frozen op).2 :=
    fun _ _ _ proper agree => step_agree proper agree
  exact trace_eq_of_simulation_on lockstep (start_agree cat filters) proper

end Isolation

section Samples

/-- Any name among some candidates is listed, and everything can be downloaded. -/
def sampleServer (candidates : List PyStr) : Server Unit where
  temporaryDirectory _ := .ok (py "/tmp/x")
  listDids _ _ cat :=
    .ok ((candidates.filter (fun name => (cat name).isSome)).map (fun name => ⟨some name, none⟩))
  downloadDids item cat :=
    match cat (item.did.drop (py "user.root:").length) with
    | none => .error .noFilesDownloaded
    | some did => .ok ⟨[some (py "DONE")], .nil, fun _ => some (.ok did.content), none⟩
  getMetadata _ name cat :=
    match cat name with
    | none => .error (.other (py "DataIdentifierNotFound"))
    | some did => .ok did.metadata

theorem sampleServer_answers (candidates : List PyStr) :
    Answers (py "user.root") (sampleServer candidates) where
  listed := by
    rintro filters cat entries ⟨⟩ entry inside
    obtain ⟨name, member, rfl⟩ := List.mem_map.mp inside
    exact (List.mem_filter.mp member).2
  download := by
    intro name cat cat' item named same
    have own : item.did.drop (py "user.root:").length = name := by
      rw [named]
      exact List.drop_left
    simp only [sampleServer, own, same]
  metadata := by
    intro name cat cat' same
    simp only [sampleServer, same]

def sampleBackend : Backend := { sampleRucio with protocol := py "s3" }

/-- Two retrievals and two archive calls in turns. -/
def sampleCalls : List (Call Unit) :=
  let server := sampleServer [py "a-b.data", py "a-c.data"]
  [.archive (sampleCall (py "a") (py "b") [1]), .retrieve 0 (), .retrieve 1 (), .iter 0 server,
    .archive (sampleCall (py "a") (py "c") [2]), .iter 1 server, .next 0 server, .next 1 server,
    .len 0 server, .next 0 server, .current 0 server, .next 1 server, .current 1 server]

theorem snapshot_isolation_sample :
    trace (liveStep sampleBackend) (.start noDids ()) sampleCalls =
      trace (frozenStep sampleBackend) (.start noDids ()) sampleCalls := by
  refine snapshot_isolation ?_ noDids ()
  intro op inside
  simp only [sampleCalls, List.mem_cons, List.not_mem_nil, or_false] at inside
  rcases inside with rfl | rfl | rfl | rfl | rfl | rfl | rfl | rfl | rfl | rfl | rfl | rfl | rfl
  all_goals first | trivial | exact sampleServer_answers _

end Samples

end RucioReaders
