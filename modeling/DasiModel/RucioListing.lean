import DasiModel.RucioIteration
import DasiModel.Library.Cursors

/-!
# Listing with the Rucio backend

A `RucioList` keeps the iterator that `list_dids` returned and pulls one DID
with each call of `next`. A `RucioRetrieve` of the same query reads that
iterator to its end first, so the two see the same DIDs as long as it raises
nowhere.
-/

namespace RucioListing
open Texts Cursors Machines RucioRetrieval RucioIteration Iterators ResultCursors

universe u v
variable {F : Type u} {V : Type v}

/-- A dictionary of `list_dids`, with the scope that a listing looks at as well. -/
structure ListedDid extends DidEntry where
  scope : Option PyStr
  deriving DecidableEq

/-- What the iterator of `list_dids` answers in turn; then it is exhausted. -/
abbrev DidIterator := List (Event ListedDid RetrieveException)

structure ListClient (F : Type u) (V : Type v) where
  listDids : (scope : PyStr) → (filters : F) → Except RetrieveException DidIterator
  getMetadata : (scope name : PyStr) → Except RetrieveException (List (PyStr × V))

structure RucioListItem (V : Type v) where
  scope : PyStr
  name : PyStr
  metadata : List (PyStr × V)

/-- `RucioListItem.uri`. -/
def RucioListItem.uri (item : RucioListItem V) : PyStr := item.scope ++ py ":" ++ item.name

structure RucioList (F : Type u) (V : Type v) where
  client : ListClient F V
  scope : PyStr
  filters : F
  iterator : Option DidIterator
  current : Option (RucioListItem V)

namespace RucioList

/-- `RucioList.__init__`. -/
def new (client : ListClient F V) (scope : PyStr) (filters : F) : RucioList F V :=
  ⟨client, scope, filters, none, none⟩

/-- `RucioList.__iter__`. -/
def iter (list : RucioList F V) : Except RetrieveException Unit × RucioList F V :=
  match list.client.listDids list.scope list.filters with
  | .error exc => (.error exc, list)
  | .ok dids => (.ok (), { list with iterator := some dids })

/-- The item of a listed DID; its metadata are empty if they cannot be had. -/
def item (list : RucioList F V) (entry : ListedDid) : RucioListItem V :=
  let scope := entry.scope.getD list.scope
  ⟨scope, entry.ownName, (list.client.getMetadata scope entry.ownName).toOption.getD []⟩

/-- `RucioList.__next__`. -/
def next (list : RucioList F V) : Except RetrieveException (RucioListItem V) × RucioList F V :=
  match list.iterator with
  | none => (.error .stopIteration, list)
  | some [] => (.error .stopIteration, list)
  | some (.failure exc :: dids) => (.error exc, { list with iterator := some dids })
  | some (.element entry :: dids) =>
    let item := list.item entry
    (.ok item, { list with iterator := some dids, current := some item })

/-- `RucioList.uri`, of the item yielded last. -/
def uri (list : RucioList F V) : PyStr := (list.current.map RucioListItem.uri).getD []

/-- `RucioList.key`. -/
def key (list : RucioList F V) : List (PyStr × V) :=
  (list.current.map RucioListItem.metadata).getD []

end RucioList

/-- `list(dids)`: the first exception ends it. -/
def wholeList : DidIterator → Except RetrieveException (List ListedDid)
  | [] => .ok []
  | .element entry :: dids => (wholeList dids).map (entry :: ·)
  | .failure exc :: _ => .error exc

/-- The clients of a retrieval that asks the same server. -/
def ListClient.retrieving (client : ListClient F V)
    (temporaryDirectory : PyStr → Except RetrieveException PyStr)
    (downloadDids : ItemSpec → Except RetrieveException Downloaded) : RetrieveClients F V where
  temporaryDirectory := temporaryDirectory
  listDids scope filters :=
    (client.listDids scope filters).bind (fun dids =>
      (wholeList dids).map (List.map ListedDid.toDidEntry))
  downloadDids := downloadDids
  getMetadata := client.getMetadata

section Calls
variable {client : ListClient F V} {scope : PyStr} {filters : F}

/-- What `next` answers on account of an answer of the iterator. -/
def answerTo (list : RucioList F V) : Event ListedDid RetrieveException →
    Except RetrieveException (RucioListItem V)
  | .element entry => .ok (list.item entry)
  | .failure exc => .error exc

/-- The answers still to come. -/
def pending (list : RucioList F V) : List (Except RetrieveException (RucioListItem V)) :=
  (list.iterator.getD []).map (answerTo list)

/-- The arguments of the constructor never change. -/
structure Configured (client : ListClient F V) (scope : PyStr) (filters : F)
    (list : RucioList F V) : Prop where
  client : list.client = client
  scope : list.scope = scope
  filters : list.filters = filters

theorem next_pending (list : RucioList F V) :
    list.next.1 = (pending list).headD (.error .stopIteration) ∧
    pending list.next.2 = (pending list).tail := by
  obtain ⟨client, scope, filters, iterator, current⟩ := list
  rcases iterator with _ | _ | ⟨entry | exc, dids⟩
  · exact ⟨rfl, rfl⟩
  · exact ⟨rfl, rfl⟩
  · exact ⟨rfl, rfl⟩
  · exact ⟨rfl, rfl⟩

theorem next_configured {list : RucioList F V} (own : Configured client scope filters list) :
    Configured client scope filters list.next.2 := by
  rw [RucioList.next]
  split <;> exact ⟨own.client, own.scope, own.filters⟩

theorem iter_configured {list : RucioList F V} (own : Configured client scope filters list) :
    Configured client scope filters list.iter.2 := by
  rw [RucioList.iter]
  split <;> exact ⟨own.client, own.scope, own.filters⟩

/-- One call on a listing, as far as the later calls see it. -/
def perform (list : RucioList F V) : Op → RucioList F V
  | .iter => list.iter.2
  | .next => list.next.2
  | .len => list

theorem history_configured {list : RucioList F V} (own : Configured client scope filters list)
    (history : List Op) : Configured client scope filters (history.foldl perform list) := by
  induction history generalizing list with
  | nil => exact own
  | cons op rest ih =>
    apply ih
    cases op with
    | iter => exact iter_configured own
    | next => exact next_configured own
    | len => exact own

/-- A call with the item it yielded, if it did. -/
def listStep (list : RucioList F V) (op : Op) : Option (RucioListItem V) × RucioList F V :=
  (match op with
    | .iter => none
    | .next => list.next.1.toOption
    | .len => none, perform list op)

theorem listStep_current (list : RucioList F V) (op : Op) :
    (listStep list op).2.current = (listStep list op).1.or list.current := by
  cases op with
  | iter =>
    rw [listStep, perform, RucioList.iter]
    split <;> rfl
  | next =>
    rw [listStep, perform, RucioList.next]
    split <;> rfl
  | len => rfl

/-- A listing has the item in hand that was yielded last, also after an exception, at the
end, and when it is asked for the DIDs anew. -/
theorem current_after (list : RucioList F V) (history : List Op) :
    (after listStep list history).current =
      ((trace listStep list history).filterMap Prod.snd).getLast?.or list.current := by
  induction history generalizing list with
  | nil => rfl
  | cons op rest ih =>
    have here := listStep_current list op
    simp only [after_cons, trace_cons, List.filterMap_cons, ih, here]
    cases (listStep list op).1 with
    | none => rfl
    | some item => simp [List.getLast?_cons, Option.or_some]

/-- So `uri` and `key` are those of the item yielded last. -/
theorem shows_last (history : List Op) :
    let last := ((trace listStep (RucioList.new client scope filters) history).filterMap
      Prod.snd).getLast?
    (after listStep (RucioList.new client scope filters) history).uri =
        (last.map RucioListItem.uri).getD [] ∧
      (after listStep (RucioList.new client scope filters) history).key =
        (last.map RucioListItem.metadata).getD [] := by
  intro last
  have current := current_after (RucioList.new client scope filters) history
  rw [RucioList.uri, RucioList.key, current, RucioList.new, Option.or_none]
  exact ⟨rfl, rfl⟩

theorem wholeList_map_element (entries : List ListedDid) :
    wholeList (entries.map Event.element) = .ok entries := by
  induction entries with
  | nil => rfl
  | cons entry rest ih => simp only [List.map_cons, wholeList, ih, Except.map]

/-- An iterator that raises nowhere answers with its elements only. -/
theorem eq_map_element {dids : DidIterator} (whole : failures dids = 0) :
    dids = (elements dids).map Event.element := by
  induction dids with
  | nil => rfl
  | cons event rest ih =>
    cases event with
    | element entry => exact congrArg (Event.element entry :: ·) (ih whole)
    | failure exc => exact absurd whole (Nat.succ_ne_zero _)

/-- After `iter`, the calls of `next` go through the answers of the iterator. -/
theorem list_answers {dids : DidIterator} (listed : client.listDids scope filters = .ok dids)
    (history : List Op) :
    let list := history.foldl perform (RucioList.new client scope filters)
    list.iter.1 = .ok () ∧
    ∀ i, call RucioList.next list.iter.2 i =
      (dids.map (answerTo (RucioList.new client scope filters)))[i]?.getD
        (.error .stopIteration) := by
  intro list
  have start : Configured client scope filters (RucioList.new client scope filters) :=
    ⟨rfl, rfl, rfl⟩
  have own : Configured client scope filters list := history_configured start history
  have asked : list.iter = (.ok (), { list with iterator := some dids }) := by
    rw [RucioList.iter, own.client, own.scope, own.filters, listed]
  have same : answerTo { list with iterator := some dids } =
      answerTo (RucioList.new client scope filters) := by
    funext event
    cases event with
    | element entry => simp only [answerTo, RucioList.item, own.client, own.scope, RucioList.new]
    | failure exc => rfl
  rw [asked]
  refine ⟨rfl, fun i => ?_⟩
  have first : ∀ list : RucioList F V, True →
      list.next.1 = (pending list).headD (.error .stopIteration) :=
    fun list _ => (next_pending list).1
  rw [call_of_pending first (fun list _ => ⟨trivial, (next_pending list).2⟩) trivial i, pending, same]
  rfl

end Calls

section Agreement
variable {client : ListClient F V} {scope rse protocol : PyStr} {filters : F}
  {temporaryDirectory : PyStr → Except RetrieveException PyStr}
  {downloadDids : ItemSpec → Except RetrieveException Downloaded}

/-- What a retrieval makes of a listed item. -/
def retrievedFrom (outcome : PyStr → Outcome) (item : RucioListItem V) :
    Option (Except RetrieveException (RucioRetrieveItem V)) :=
  match outcome item.name with
  | .bytes data => some (.ok ⟨item.scope, item.name, data, item.metadata⟩)
  | .notDownloadable => none
  | .fails exc => some (.error exc)

theorem answerFor_eq {settings : Settings F V}
    (asked : settings =
      ⟨client.retrieving temporaryDirectory downloadDids, scope, rse, protocol, filters⟩)
    (outcome : PyStr → Outcome) {entry : ListedDid} (inScope : entry.scope.getD scope = scope) :
    answerFor settings outcome entry.toDidEntry =
      retrievedFrom outcome ((RucioList.new client scope filters).item entry) := by
  subst asked
  let settings : Settings F V :=
    ⟨client.retrieving temporaryDirectory downloadDids, scope, rse, protocol, filters⟩
  have metadata : metadataOf settings entry.ownName =
      (client.getMetadata scope entry.ownName).toOption.getD [] :=
    (congrArg RucioRetrieveItem.metadata (item_eq settings entry.ownName [])).symm
  change answerFor settings outcome entry.toDidEntry = _
  simp only [answerFor, retrievedFrom, RucioList.item, RucioList.new, inScope, metadata]
  rfl

/-- A listing and a retrieval of one query: the retrieval yields the listed items that can be
downloaded, in the order of the listing and with their scope, name and metadata. If the
iterator of the DIDs raises, the listing gets as far as that, and the retrieval nowhere. -/
theorem retrieval_agrees_with_listing {dids : DidIterator}
    (listed : client.listDids scope filters = .ok dids)
    (inScope : ∀ entry ∈ elements dids, entry.scope.getD scope = scope)
    {settings : Settings F V}
    (asked : settings =
      ⟨client.retrieving temporaryDirectory downloadDids, scope, rse, protocol, filters⟩)
    {outcome : PyStr → Outcome}
    (ends : ∀ entry ∈ elements dids,
      (outcome entry.ownName).Ends (settings.download entry.ownName))
    (history history' : List Op) :
    let list := history.foldl perform (RucioList.new client scope filters)
    let retrieve := history'.foldl RucioIteration.perform (RucioRetrieve.new settings)
    let items := (elements dids).map (RucioList.new client scope filters).item
    list.iter.1 = .ok () ∧
    (∀ i, call RucioList.next list.iter.2 i =
      (dids.map (answerTo (RucioList.new client scope filters)))[i]?.getD
        (.error .stopIteration)) ∧
    (failures dids = 0 → retrieve.iter.1 = .ok () ∧
      ∀ i, call RucioRetrieve.next retrieve.iter.2 i =
        (items.filterMap (retrievedFrom outcome))[i]?.getD (.error .stopIteration)) ∧
    (∀ exc, wholeList dids = .error exc → retrieve.iter = (.error exc, retrieve)) := by
  intro list retrieve items
  obtain ⟨opened, answers⟩ := list_answers listed history
  refine ⟨opened, answers, fun whole => ?_, fun exc broken => ?_⟩
  · have found : settings.clients.listDids settings.scope settings.filters =
        .ok ((elements dids).map ListedDid.toDidEntry) := by
      have all := wholeList_map_element (elements dids)
      rw [← eq_map_element whole] at all
      simp only [asked, ListClient.retrieving, listed, Except.bind, all, Except.map]
    have downloads : ∀ entry ∈ (elements dids).map ListedDid.toDidEntry,
        (outcome entry.ownName).Ends (settings.download entry.ownName) := by
      intro entry inside
      obtain ⟨own, member, rfl⟩ := List.mem_map.mp inside
      exact ends own member
    have own : retrieve.settings = settings := history_settings _ history'
    obtain ⟨ready, retrieved⟩ := call_of_listed own found downloads
    refine ⟨ready, fun i => ?_⟩
    have same : ((elements dids).map ListedDid.toDidEntry).filterMap (answerFor settings outcome) =
        items.filterMap (retrievedFrom outcome) := by
      rw [List.filterMap_map, List.filterMap_map]
      exact List.filterMap_congr (fun entry member =>
        answerFor_eq asked outcome (inScope entry member))
    rw [retrieved i, same]
  · have own : retrieve.settings = settings := history_settings _ history'
    have refused : retrieve.settings.clients.listDids retrieve.settings.scope
        retrieve.settings.filters = .error exc := by
      rw [own, asked]
      simp only [ListClient.retrieving, listed, Except.bind, broken, Except.map]
    rw [RucioRetrieve.iter, refused]

end Agreement

section Samples

def sampleListed : List ListedDid := sampleEntries.map (fun entry => ⟨entry, none⟩)

/-- The server of the four sample DIDs. -/
def sampleClient : ListClient Unit PyStr where
  listDids := fun _ _ => .ok (sampleListed.map Event.element)
  getMetadata := sampleSettings.clients.getMetadata

theorem retrieval_agrees_with_listing_sample :
    let list := [Op.iter, .next].foldl perform (RucioList.new sampleClient (py "s") ())
    let retrieve := [Op.next].foldl RucioIteration.perform (RucioRetrieve.new sampleSettings)
    (∀ i, call RucioList.next list.iter.2 i =
      ([.ok ⟨py "s", py "a", [(py "k", py "v")]⟩, .ok ⟨py "s", py "b", []⟩,
        .ok ⟨py "s", py "c", []⟩, .ok ⟨py "s", py "d", []⟩] :
          List (Except RetrieveException (RucioListItem PyStr)))[i]?.getD
        (.error .stopIteration)) ∧
    ∀ i, call RucioRetrieve.next retrieve.iter.2 i =
      ([.ok ⟨py "s", py "a", ascii "A", [(py "k", py "v")]⟩,
        .error (.incomplete (py "s:c") (py "FAILED")),
        .ok ⟨py "s", py "d", ascii "D", []⟩] :
          List (Except RetrieveException (RucioRetrieveItem PyStr)))[i]?.getD
        (.error .stopIteration) := by
  have inScope : ∀ entry ∈ sampleListed, entry.scope.getD (py "s") = py "s" := by decide
  have ends : ∀ entry ∈ sampleListed,
      (sampleOutcome entry.ownName).Ends (sampleSettings.download entry.ownName) := by
    intro entry inside
    obtain ⟨own, member, rfl⟩ := List.mem_map.mp inside
    exact (ends_iff (sample_downloads own member)).mpr (sample_findsOwnFile own member)
  have agrees := @retrieval_agrees_with_listing Unit PyStr sampleClient (py "s") (py "MINIORSE")
    (py "s3") () sampleSettings.clients.temporaryDirectory sampleSettings.clients.downloadDids _
    rfl inScope sampleSettings rfl _ ends [Op.iter, .next] [Op.next]
  exact ⟨agrees.2.1, (agrees.2.2.1 rfl).2⟩

end Samples

end RucioListing
