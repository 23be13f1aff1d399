import DasiModel.PythonArchive
import DasiModel.PythonQuery
import DasiModel.RangeLoops
import DasiModel.Library.PendingStores

/-!
# The archive behind the sessions

Python programs archive, flush, list and retrieve through any number of sessions,
with any number of results open at a time. Over an FDB that keeps what is written
about it, they see a store with pending entries: what was archived and flushed is
what every later retrieval delivers, byte for byte, and nothing else is delivered.
Wiping is left out, since it takes the data from under the results that are open.
-/

namespace ArchiveStore
open Texts Exceptions DasiKey Generators CHandles Cursors Session RetrieveReading Machines
open OrderedMaps Refinements PendingStores RangeLoops PythonKey PythonIterators PythonRetrieve
open PythonArchive (Buffer CountsBytes KeyIntact)
open StringParsers (CutsAndDrops)

variable {S N F P D W : Type}

section Model

/-- `Dasi.archive` on a session. -/
def archive (split : Bytes → Bytes → List Bytes)
    (fdbArchive : Handed → W → Except Exception Unit × W) (key : KeyArg) (data : Buffer)
    (w : W) : Except PyException Unit × W :=
  match PythonKey.init split key with
  | .error x => (.error x, w)
  | .ok ckey =>
    match data.len with
    | .error x => (.error x, w)
    | .ok length =>
      let (result, w) := dasiArchive (fun x => (.error x, w)) (fun handed => fdbArchive handed w)
        ckey data.bytes length
      (checkError "dasi_archive" result, w)

/-- What a listing or retrieval is asked for: a `Query`, or what one is made from. -/
inductive QueryGiven where
  | query (query : Query)
  | arg (arg : PythonQuery.QueryArg)

/-- `Query(query)`. -/
def QueryGiven.init (split : Bytes → Bytes → List Bytes) :
    QueryGiven → Except PyException DasiKey.Query
  | .query q => .ok q
  | .arg given => PythonQuery.init split given

/-- The calls of a program on its sessions, and on the results that it has names for. -/
inductive Request (S N : Type) where
  | archive (session : S) (key : KeyArg) (data : Buffer)
  | flush (session : S)
  | list (name : N) (session : S) (query : QueryGiven)
  | retrieve (name : N) (session : S) (query : QueryGiven)
  | next (name : N)
  | len (name : N)

abbrev Answer := PendingStores.Answer Key Bytes PyException

/-- `List` and `Retrieve`. -/
inductive Result (D : Type) where
  | list (cdata : DasiList)
  | retrieve (cdata : DasiRetrieve D)

structure State (N D W : Type) where
  results : N → Option (Result D)
  memory : Memory
  outside : W

def concluded : Except PyException Unit → Answer
  | .ok () => .done
  | .error x => .failed x

/-- One round of `for item in retrieve`. -/
def pullObject (io : Eckit P D W) (retrieve : PyRetrieve D W) :
    Except PyException (Option (Option RetrieveRecord)) × PyRetrieve D W :=
  match retrieve.next io with
  | (.error .stopIteration, retrieve) => (.ok none, retrieve)
  | (.error x, retrieve) => (.error x, retrieve)
  | (.ok item, retrieve) => (.ok (some (retrieve.view item)), retrieve)

/-- What the program sees of a round; an item that leads nowhere shows nothing. -/
def shown {R : Type} (answer : R → Answer) : Except PyException (Option (Option R)) → Answer
  | .ok none => .stopped
  | .ok (some (some record)) => answer record
  | .ok (some none) => .unbound
  | .error x => .failed x

variable [DecidableEq N] (split : Bytes → Bytes → List Bytes) (fdb : Fdb F W) (io : Eckit P D W)
  (sessions : S → F)

def State.bind (state : State N D W) (name : N) (result : Result D) : State N D W :=
  { state with results := Function.update state.results name (some result) }

/-- `Dasi.list` -/
def list (session : S) (query : QueryGiven) (w : W) : Except PyException DasiList × W :=
  match query.init split with
  | .error x => (.error x, w)
  | .ok cquery =>
    let (result, w) := fdb.list (sessions session) (queryToMarsRequest cquery) true w
    (checkError "dasi_list" (result.bind newDasiList), w)

/-- `Dasi.retrieve` -/
def retrieve (session : S) (query : QueryGiven) (w : W) :
    Except PyException (DasiRetrieve D) × W :=
  match query.init split with
  | .error x => (.error x, w)
  | .ok cquery =>
    let (result, w) := fdb.inspect (sessions session) (queryToMarsRequest cquery) w
    (checkError "dasi_retrieve" (result.bind newDasiRetrieve), w)

def step (state : State N D W) : Request S N → Answer × State N D W
  | .archive session key data =>
    let (result, w) := archive split (fdb.archive (sessions session)) key data state.outside
    (concluded result, { state with outside := w })
  | .flush session =>
    let (result, w) := fdb.flush (sessions session) state.outside
    (concluded (checkError "dasi_flush" result), { state with outside := w })
  | .list name session query =>
    match list split fdb sessions session query state.outside with
    | (.error x, w) => (.failed x, { state with outside := w })
    | (.ok cdata, w) => (.done, { state with outside := w }.bind name (.list cdata))
  | .retrieve name session query =>
    match retrieve split fdb sessions session query state.outside with
    | (.error x, w) => (.failed x, { state with outside := w })
    | (.ok cdata, w) => (.done, { state with outside := w }.bind name (.retrieve cdata))
  | .next name =>
    match state.results name with
    | none => (.unbound, state)
    | some (.list cdata) =>
      let (round, list) := pullItem ⟨cdata, state.memory⟩
      (shown (fun record => .key record.key) round,
        { state with memory := list.memory }.bind name (.list list.cdata))
    | some (.retrieve cdata) =>
      let (round, retrieve) := pullObject io ⟨cdata, state.memory, state.outside⟩
      (shown (fun record => .entry record.key record.data) round,
        { state with memory := retrieve.memory, outside := retrieve.world }.bind name
          (.retrieve retrieve.cdata))
  | .len name =>
    match state.results name with
    | none => (.unbound, state)
    | some (.list _) => (.number 0, state)
    | some (.retrieve cdata) =>
      match PyRetrieve.len ⟨cdata, state.memory, state.outside⟩ with
      | .ok n => (.number n, state)
      | .error x => (.failed x, state)

/-- Nothing is open. -/
def State.start (w : W) : State N D W := ⟨fun _ => none, ⟨[], []⟩, w⟩

end Model

section Contract

/-- A key and what it leads to, as FDB shows them. -/
def object (data : FdbListElement → Bytes) (e : FdbListElement) : Key × Bytes :=
  (Key.ofCombined e.combinedKey, data e)

/-- What a listing shows of an FDB answer. -/
def listedKey : Event FdbListElement Exception → Option Key
  | .element e => some (Key.ofCombined e.combinedKey)
  | .failure _ => none

variable [DecidableEq S]

/-- What is written about FDB, on a shelf that stands for its state: data that are archived may
be accessible at once and are when flushed, newer data masking older; `list` and `inspect` find
what is accessible, by the keys that were archived. Calls that fail may have had their effect. -/
structure Documented (fdb : Fdb F W) (sessions : S → F) (finds : MarsRequest → Key → Prop)
    (data : FdbListElement → Bytes) (shelf : W → Shelf S Key Bytes) : Prop where
  archived {s : S} {bindings : List (Bytes × Bytes)} {bytes : Bytes} {w w' : W} :
    fdb.archive (sessions s) ⟨bindings, some bytes⟩ w = (.ok (), w') →
      shelf w' = (shelf w).write s (Key.ofCombined bindings, bytes)
  notArchived {s : S} {bindings : List (Bytes × Bytes)} {bytes : Bytes} {w w' : W}
    {x : Exception} : fdb.archive (sessions s) ⟨bindings, some bytes⟩ w = (.error x, w') →
      shelf w' = shelf w ∨ shelf w' = (shelf w).write s (Key.ofCombined bindings, bytes)
  flushed {s : S} {w w' : W} :
    fdb.flush (sessions s) w = (.ok (), w') → shelf w' = (shelf w).commit s
  notFlushed {s : S} {w w' : W} {x : Exception} : fdb.flush (sessions s) w = (.error x, w') →
    ∃ part, part <+: (shelf w).pending s ∧ shelf w' = (shelf w).commitPart part
  listed {s : S} {rq : MarsRequest} {w w' : W}
    {result : Except Exception (FdbIterator FdbListElement)} :
    fdb.list (sessions s) rq true w = (result, w') → shelf w' = shelf w ∧
      ∀ iter, result = .ok iter → Scans finds (shelf w) rq (iter.map listedKey)
  inspected {s : S} {rq : MarsRequest} {w w' : W}
    {result : Except Exception (FdbIterator FdbListElement)} :
    fdb.inspect (sessions s) rq w = (result, w') → shelf w' = shelf w ∧
      ∀ values : List FdbListElement, result = .ok (values.map Event.element) →
        TrueLengths data values ∧ Selects finds (shelf w) rq (values.map (object data))

/-- Reading leaves the archive alone. -/
structure LeavesAlone {A : Type} (io : Eckit P D W) (view : W → A) : Prop where
  located (e : FdbListElement) (w : W) : view (io.locationDataHandle e w).2 = view w
  gathered (sorted : Bool) (parts : List P) (w : W) : view (io.gather sorted parts w).2 = view w
  opened (d : D) (w : W) : view (io.openForRead d w).2.2 = view w
  read (d : D) (n : Nat) (w : W) : view (io.read d n w).2.2 = view w

end Contract

section Reading
variable {A : Type} {io : Eckit P D W} {view : W → A}

theorem addHandles_leaves (leaves : LeavesAlone io view) (values : List FdbListElement) (w : W) :
    view (addHandles io values w).2 = view w := by
  induction values generalizing w with
  | nil => rfl
  | cons e rest ih =>
    have own := leaves.located e w
    rw [addHandles]
    split
    · rename_i x w₁ out
      rwa [out] at own
    · rename_i p w₁ out
      rw [out] at own
      have others := ih w₁
      split
      · rename_i x w₂ out'
        rw [out'] at others
        exact others.trans own
      · rename_i ps w₂ out'
        rw [out'] at others
        exact others.trans own

theorem dataHandle_leaves (leaves : LeavesAlone io view) (r : RetrieveResultImpl) (w : W) :
    view (dataHandle io r w).2 = view w := by
  have added := addHandles_leaves leaves r.values w
  rw [dataHandle]
  split
  · rename_i x w₁ out
    rwa [out] at added
  · rename_i ps w₁ out
    rw [out] at added
    exact (leaves.gathered false ps w₁).trans added

theorem readFrom_leaves (leaves : LeavesAlone io view) (retrieve : DasiRetrieve D) (d : D) (w : W)
    (length : Int) : view (readFrom io retrieve d w length).2.2 = view w := by
  have own := leaves.read d length.toNat w
  rw [readFrom]
  split
  · rename_i x d' w' out
    rwa [out] at own
  · rename_i bytes d' w' out
    rwa [out] at own

theorem dasiRetrieveRead_leaves (leaves : LeavesAlone io view) (retrieve : DasiRetrieve D) (w : W)
    (length : Int) : view (dasiRetrieveRead io retrieve w length).2.2 = view w := by
  rw [dasiRetrieveRead]
  split
  · rfl
  · split
    · exact readFrom_leaves leaves _ _ w length
    · have made := dataHandle_leaves leaves retrieve.generator w
      split
      · rename_i x w₁ out
        rwa [out] at made
      · rename_i d w₁ out
        rw [out] at made
        have opened := leaves.opened d w₁
        split
        · rename_i x d' w₂ out'
          rw [out'] at opened
          exact opened.trans made
        · rename_i d' w₂ out'
          rw [out'] at opened
          exact (readFrom_leaves leaves _ _ w₂ length).trans (opened.trans made)

theorem next_leaves (leaves : LeavesAlone io view) (retrieve : PyRetrieve D W) :
    view (retrieve.next io).2.world = view retrieve.world := by
  have read : ∀ retrieve : PyRetrieve D W,
      view (retrieve.read io).2.world = view retrieve.world := by
    intro retrieve
    rw [PyRetrieve.read]
    split
    · rfl
    · rename_i attrs _
      dsimp only
      split
      · rfl
      · have own := dasiRetrieveRead_leaves leaves retrieve.cdata retrieve.world
          (attrs.length.getD 0)
        split <;> exact own
  rw [PyRetrieve.next]
  dsimp only
  split
  · rfl
  · rfl
  · exact read _

theorem pullObject_snd (retrieve : PyRetrieve D W) :
    (pullObject io retrieve).2 = (retrieve.next io).2 := by
  rw [pullObject]
  split <;> rename_i out <;> rw [out]

end Reading

section Meaning

/-- The key and bytes that an archive call is meant to store. -/
def entry (split : Bytes → Bytes → List Bytes) (key : KeyArg) (data : Buffer) :
    Option (Key × Bytes) :=
  match pairs split key with
  | some keywords => some (Key.ofCombined keywords, data.bytes)
  | none => none

def QueryGiven.request (split : Bytes → Bytes → List Bytes) (query : QueryGiven) :
    Option MarsRequest :=
  match query.init split with
  | .ok query => some (queryToMarsRequest query)
  | .error _ => none

/-- What a call asks of the store. -/
def Request.meant (split : Bytes → Bytes → List Bytes) :
    Request S N → PendingStores.Request S Key Bytes MarsRequest N
  | .archive session key data => .write session (entry split key data)
  | .flush session => .commit session
  | .list name _ query => .scan name (query.request split)
  | .retrieve name _ query => .read name (query.request split)
  | .next name => .next name
  | .len name => .count name

/-- Nothing of what is archived is lost on the way. -/
def Request.Whole : Request S N → Prop
  | .archive _ key data => CountsBytes data ∧ KeyIntact key
  | _ => True

variable {split : Bytes → Bytes → List Bytes}

theorem ofCombined_items (key : Key) : Key.ofCombined key.items = key :=
  Key.eq_of_items_perm (Key.ofCombined_items_perm key.values.keys_nodup)

/-- An intact argument makes the key of its pairs. -/
theorem entry_of_init (cuts : CutsAndDrops split) {key : KeyArg} {ckey : Key}
    (intact : KeyIntact key) (made : PythonKey.init split key = .ok ckey) (data : Buffer) :
    entry split key data = some (ckey, data.bytes) := by
  obtain ⟨keywords, hpairs, same⟩ := (PythonArchive.init_pairs_iff cuts made).mpr intact
  have distinct : (keywords.map Prod.fst).Nodup :=
    (same.map Prod.fst).nodup_iff.mp ckey.values.keys_nodup
  have own : Key.ofCombined keywords = ckey :=
    Key.eq_of_items_perm ((Key.ofCombined_items_perm distinct).trans same.symm)
  simp only [entry, hpairs, own]

/-- The FDB calls of `Dasi.archive`, made on the state of FDB. -/
theorem archive_eq (fdbArchive : Handed → W → Except Exception Unit × W) (key : KeyArg)
    (data : Buffer) (w : W) : archive split fdbArchive key data w =
      let (result, calls) := PythonArchive.archive split (fun handed => (fdbArchive handed w).1)
        key data
      (result, calls.foldl (fun w handed => (fdbArchive handed w).2) w) := by
  cases made : PythonKey.init split key with
  | error x => simp only [archive, PythonArchive.archive, made, List.foldl_nil]
  | ok ckey =>
    cases counted : data.len with
    | error x => simp only [archive, PythonArchive.archive, made, counted, List.foldl_nil]
    | ok length =>
      simp only [archive, PythonArchive.archive, made, counted, dasiArchive, assert]
      split <;> rfl

/-- `Dasi.archive` raises before it calls FDB, or hands it the entry. -/
theorem archive_cases (cuts : CutsAndDrops split)
    (fdbArchive : Handed → W → Except Exception Unit × W) {key : KeyArg}
    {data : Buffer} (counts : CountsBytes data) (intact : KeyIntact key) (w : W) :
    (∃ x, archive split fdbArchive key data w = (.error x, w)) ∨
    ∃ ckey : Key, entry split key data = some (ckey, data.bytes) ∧
      archive split fdbArchive key data w =
        (checkError "dasi_archive" (fdbArchive ⟨ckey.items, some data.bytes⟩ w).1,
          (fdbArchive ⟨ckey.items, some data.bytes⟩ w).2) := by
  cases made : PythonKey.init split key with
  | error x => exact .inl ⟨x, by rw [archive, made]⟩
  | ok ckey =>
    cases counted : data.counted with
    | none =>
      refine .inl ⟨.typeError (py "len() of unsized object"), ?_⟩
      simp only [archive, made, Buffer.len, counted]
    | some n =>
      have whole : readRegion data.bytes n = some data.bytes := by
        rw [readRegion_eq_whole_iff]
        exact counts n counted
      refine .inr ⟨ckey, entry_of_init cuts intact made data, ?_⟩
      have nonnegative : (0 : Int) ≤ (n : Int) := Int.natCast_nonneg n
      simp only [archive, made, Buffer.len, counted, dasiArchive, assert, nonnegative,
        decide_true, if_true, Session.archive, Int.toNat_natCast, whole]

end Meaning

section Simulation
variable [DecidableEq S] [DecidableEq N] {split : Bytes → Bytes → List Bytes} {fdb : Fdb F W}
  {io : Eckit P D W} {sessions : S → F} {finds : MarsRequest → Key → Prop}
  {data : FdbListElement → Bytes} {shelf : W → Shelf S Key Bytes} {content : P → Bytes}
  {isOpen : D → Prop} {remaining : D → Bytes}

/-- An open result, and what its reader has yet to deliver. -/
inductive Stands (data : FdbListElement → Bytes) (isOpen : D → Prop) (remaining : D → Bytes) :
    Result D → Reader Key Bytes → Prop where
  | list {cdata : DasiList} {stream : FdbIterator FdbListElement}
    (pending : ListPending stream cdata) :
    Stands data isOpen remaining (.list cdata) (.keys (stream.map listedKey))
  | retrieve {cdata : DasiRetrieve D} {values : List FdbListElement} {k : Nat}
    (lengths : TrueLengths data values)
    (position : PyRetrieveAt data isOpen remaining values k ⟨cdata, ⟨[], []⟩, ()⟩) :
    Stands data isOpen remaining (.retrieve cdata) (.entries (values.map (object data)) k)

/-- The store that a state stands for. -/
structure Simulates (shelf : W → Shelf S Key Bytes) (data : FdbListElement → Bytes)
    (isOpen : D → Prop) (remaining : D → Bytes) (state : State N D W)
    (store : Store S Key Bytes N) : Prop where
  shelf : shelf state.outside = store.shelf
  readers : ∀ name, Option.Rel (Stands data isOpen remaining) (state.results name)
    (store.readers name)

omit [DecidableEq S] in
theorem Simulates.bind {state : State N D W} {store : Store S Key Bytes N}
    (simulates : Simulates shelf data isOpen remaining state store) {result : Result D}
    {reader : Reader Key Bytes} (stands : Stands data isOpen remaining result reader) (name : N) :
    Simulates shelf data isOpen remaining (state.bind name result) (store.bind name reader) := by
  refine ⟨simulates.shelf, fun other => ?_⟩
  by_cases same : other = name
  · subst same
    simp only [State.bind, Store.bind, Function.update_self]
    exact .some stands
  · simp only [State.bind, Store.bind, Function.update_of_ne same]
    exact simulates.readers other

omit [DecidableEq S] [DecidableEq N] in
/-- What is not looked at by a result may change, and the shelf with it. -/
theorem Simulates.outside {state : State N D W} {store : Store S Key Bytes N}
    (simulates : Simulates shelf data isOpen remaining state store) {w : W}
    {shelf' : Shelf S Key Bytes} (moved : shelf w = shelf') (memory : Memory) :
    Simulates shelf data isOpen remaining ⟨state.results, memory, w⟩ (store.onShelf shelf') :=
  ⟨moved, simulates.readers⟩

omit [DecidableEq S] [DecidableEq N] in
/-- A round of `for item in retrieve`: the next object, unless it is empty, or the end. -/
theorem pullObject_cases (eckit : ReadsFully io data content isOpen remaining)
    {values : List FdbListElement} (lengths : TrueLengths data values) {k : Nat}
    {retrieve : PyRetrieve D W}
    (position : PyRetrieveAt data isOpen remaining values k retrieve) :
    (∃ e, values[k]? = some e ∧ data e ≠ [] ∧
      (pullObject io retrieve).1 = .ok (some (some (retrieved data e)))) ∨
    (∃ e message error, values[k]? = some e ∧ data e = [] ∧
      (pullObject io retrieve).1 = .error (.dasiException message error)) ∨
    (values.length ≤ k ∧ (pullObject io retrieve).1 = .ok none) := by
  obtain ⟨-, yields, stops⟩ := next_at eckit lengths position
  cases answer : retrieve.next io with
  | mk result later =>
    rw [answer] at yields stops
    rcases Nat.lt_or_ge k values.length with room | past
    · have own := List.getElem?_eq_getElem room
      obtain ⟨refuses, shows⟩ := yields _ own
      by_cases empty : data values[k] = []
      · obtain ⟨message, error, raised⟩ := refuses empty
        cases raised
        exact .inr (.inl ⟨_, _, _, own, empty, by rw [pullObject, answer]⟩)
      · obtain ⟨item, yielded, record⟩ := shows empty
        cases yielded
        refine .inl ⟨_, own, empty, ?_⟩
        rw [pullObject, answer]
        exact congrArg (fun record => Except.ok (some record)) record
    · cases stops past
      exact .inr (.inr ⟨past, by rw [pullObject, answer]⟩)

section Steps
variable {state : State N D W} {store : Store S Key Bytes N}

/-- The data of an object that can be read. -/
abbrev Readable (bytes : Bytes) : Prop := bytes ≠ []

/-- A step of the program is one of the store. -/
abbrev StepSimulates (split : Bytes → Bytes → List Bytes) (fdb : Fdb F W) (io : Eckit P D W)
    (sessions : S → F) (finds : MarsRequest → Key → Prop) (data : FdbListElement → Bytes)
    (shelf : W → Shelf S Key Bytes) (isOpen : D → Prop) (remaining : D → Bytes)
    (state : State N D W) (store : Store S Key Bytes N) (request : Request S N) : Prop :=
  ∃ store', Allowed finds Readable store (request.meant split)
      (step split fdb io sessions state request).1 store' ∧
    Simulates shelf data isOpen remaining (step split fdb io sessions state request).2 store'

theorem archive_simulates (cuts : CutsAndDrops split)
    (documented : Documented fdb sessions finds data shelf)
    (simulates : Simulates shelf data isOpen remaining state store) {session : S} {key : KeyArg}
    {buffer : Buffer} (whole : CountsBytes buffer ∧ KeyIntact key) :
    StepSimulates split fdb io sessions finds data shelf isOpen remaining state store
      (.archive session key buffer) := by
  rcases archive_cases cuts (fdb.archive (sessions session)) whole.1 whole.2 state.outside with
    ⟨x, out⟩ | ⟨ckey, own, out⟩
  · simp only [StepSimulates, step, out, concluded]
    exact ⟨store, .refused, simulates⟩
  · have combined := ofCombined_items ckey
    simp only [StepSimulates, step, out, Request.meant, own]
    cases called : fdb.archive (sessions session) ⟨ckey.items, some buffer.bytes⟩ state.outside with
    | mk result w =>
      cases result with
      | ok =>
        have moved := documented.archived called
        rw [combined, simulates.shelf] at moved
        exact ⟨_, .written, simulates.outside moved state.memory⟩
      | error x =>
        rcases documented.notArchived called with same | moved
        · rw [simulates.shelf] at same
          exact ⟨store, .refused, simulates.outside same state.memory⟩
        · rw [combined, simulates.shelf] at moved
          exact ⟨_, .writtenUnheard, simulates.outside moved state.memory⟩

theorem flush_simulates (documented : Documented fdb sessions finds data shelf)
    (simulates : Simulates shelf data isOpen remaining state store) (session : S) :
    StepSimulates split fdb io sessions finds data shelf isOpen remaining state store
      (.flush session) := by
  cases called : fdb.flush (sessions session) state.outside with
  | mk result w =>
    simp only [StepSimulates, step, called]
    cases result with
    | ok =>
      have moved := documented.flushed called
      rw [simulates.shelf] at moved
      exact ⟨_, .committed, simulates.outside moved state.memory⟩
    | error x =>
      obtain ⟨part, first, moved⟩ := documented.notFlushed called
      rw [simulates.shelf] at first moved
      exact ⟨_, .committedPart first, simulates.outside moved state.memory⟩

omit [DecidableEq S] [DecidableEq N] in
/-- A listing that comes into being has the whole answer of FDB ahead. -/
theorem newDasiList_pending {iter : FdbIterator FdbListElement} {cdata : DasiList}
    (created : newDasiList iter = .ok cdata) : ListPending iter cdata := by
  have sound : ¬ Broken iter := by
    rintro ⟨x, rest, rfl⟩
    cases created
  obtain ⟨g, made, held⟩ := create_inHand (T := ListElement) (f := convert) (fun _ _ => rfl) sound
  rw [newDasiList, made] at created
  cases created
  exact held

theorem list_simulates (documented : Documented fdb sessions finds data shelf)
    (simulates : Simulates shelf data isOpen remaining state store) (name : N) (session : S)
    (query : QueryGiven) :
    StepSimulates split fdb io sessions finds data shelf isOpen remaining state store
      (.list name session query) := by
  simp only [StepSimulates, Request.meant, QueryGiven.request]
  cases asked : query.init split with
  | error x =>
    simp only [step, list, asked]
    exact ⟨store, .notScanned, simulates⟩
  | ok cquery =>
    cases called : fdb.list (sessions session) (queryToMarsRequest cquery) true state.outside with
    | mk result w =>
      simp only [step, list, asked, called]
      obtain ⟨same, scans⟩ := documented.listed called
      rw [simulates.shelf] at same
      have kept := simulates.outside same state.memory
      cases result with
      | error x => exact ⟨store, .notScanned, kept⟩
      | ok iter =>
        cases created : newDasiList iter with
        | error x =>
          simp only [Except.bind, created, checkError]
          exact ⟨store, .notScanned, kept⟩
        | ok cdata =>
          simp only [Except.bind, created, checkError]
          refine ⟨_, .scanned (simulates.shelf ▸ scans iter rfl), ?_⟩
          exact kept.bind (.list (newDasiList_pending created)) name

omit [DecidableEq S] [DecidableEq N] in
/-- A retrieval comes into being only from an answer of FDB that can be read to its end. -/
theorem newDasiRetrieve_elements {iter : FdbIterator FdbListElement} {cdata : DasiRetrieve D}
    (created : newDasiRetrieve iter = .ok cdata) :
    ∃ values : List FdbListElement, iter = values.map Event.element := by
  cases whole : drain iter with
  | error x =>
    rw [newDasiRetrieve, RetrieveResultImpl.create, whole] at created
    cases created
  | ok values => exact ⟨values, drain_eq_ok whole⟩

theorem retrieve_simulates (documented : Documented fdb sessions finds data shelf)
    (simulates : Simulates shelf data isOpen remaining state store) (name : N) (session : S)
    (query : QueryGiven) :
    StepSimulates split fdb io sessions finds data shelf isOpen remaining state store
      (.retrieve name session query) := by
  simp only [StepSimulates, Request.meant, QueryGiven.request]
  cases asked : query.init split with
  | error x =>
    simp only [step, retrieve, asked]
    exact ⟨store, .notOpened, simulates⟩
  | ok cquery =>
    cases called : fdb.inspect (sessions session) (queryToMarsRequest cquery) state.outside with
    | mk result w =>
      simp only [step, retrieve, asked, called]
      obtain ⟨same, selects⟩ := documented.inspected called
      rw [simulates.shelf] at same
      have kept := simulates.outside same state.memory
      cases result with
      | error x => exact ⟨store, .notOpened, kept⟩
      | ok iter =>
        cases created : newDasiRetrieve (D := D) iter with
        | error x =>
          simp only [Except.bind, created, checkError]
          exact ⟨store, .notOpened, kept⟩
        | ok cdata =>
          obtain ⟨values, rfl⟩ := newDasiRetrieve_elements created
          obtain ⟨lengths, found⟩ := selects values rfl
          simp only [Except.bind, created, checkError]
          refine ⟨_, .opened (simulates.shelf ▸ found), ?_⟩
          exact kept.bind (.retrieve lengths (pyRetrieveAt_new created ⟨[], []⟩ ())) name

theorem nextListed_simulates (simulates : Simulates shelf data isOpen remaining state store)
    {name : N} {cdata : DasiList} (result : state.results name = some (.list cdata))
    {stream : FdbIterator FdbListElement} (pending : ListPending stream cdata)
    (reader : store.readers name = some (.keys (stream.map listedKey))) :
    StepSimulates split fdb io sessions finds data shelf isOpen remaining state store
      (.next name) := by
  have called := fun rest list (asked : ListAsked rest list) =>
    (simulates.outside simulates.shelf (pullItem ⟨cdata, state.memory⟩).2.memory).bind
      (.list (pyList_pulls.called (s := ⟨list, ⟨[], []⟩⟩) asked)) name
  cases stream with
  | nil =>
    obtain ⟨ended, asked⟩ := pyList_pulls.ended (s := ⟨cdata, state.memory⟩) pending
    simp only [StepSimulates, step, result, ended, shown, Request.meant]
    exact ⟨_, .noKeys reader, called [] _ asked⟩
  | cons event rest =>
    cases event with
    | failure x =>
      obtain ⟨failed, asked⟩ := pyList_pulls.fails (s := ⟨cdata, state.memory⟩) pending
      simp only [StepSimulates, step, result, failed, shown, Request.meant]
      exact ⟨_, .broken reader, called rest _ asked⟩
    | element e =>
      obtain ⟨yielded, asked⟩ := pyList_pulls.yields (s := ⟨cdata, state.memory⟩) pending
      simp only [StepSimulates, step, result, yielded, shown, Request.meant]
      exact ⟨_, .key reader, called rest _ asked⟩

theorem nextRetrieved_simulates (eckit : ReadsFully io data content isOpen remaining)
    (leaves : LeavesAlone io shelf)
    (simulates : Simulates shelf data isOpen remaining state store) {name : N}
    {cdata : DasiRetrieve D} (result : state.results name = some (.retrieve cdata))
    {values : List FdbListElement} {k : Nat} (lengths : TrueLengths data values)
    (position : PyRetrieveAt data isOpen remaining values k ⟨cdata, ⟨[], []⟩, ()⟩)
    (reader : store.readers name = some (.entries (values.map (object data)) k)) :
    StepSimulates split fdb io sessions finds data shelf isOpen remaining state store
      (.next name) := by
  have here : PyRetrieveAt data isOpen remaining values k
      ⟨cdata, state.memory, state.outside⟩ := ⟨position.position, position.reading⟩
  have moved := (next_at eckit lengths here).1
  have later : Stands data isOpen remaining
      (.retrieve (pullObject io ⟨cdata, state.memory, state.outside⟩).2.cdata)
      (.entries (values.map (object data)) (k + 1)) := by
    rw [pullObject_snd]
    exact .retrieve lengths ⟨moved.position, moved.reading⟩
  have world : shelf (pullObject io ⟨cdata, state.memory, state.outside⟩).2.world =
      store.shelf := by
    rw [pullObject_snd, next_leaves leaves]
    exact simulates.shelf
  have called := (simulates.outside world
    (pullObject io ⟨cdata, state.memory, state.outside⟩).2.memory).bind later name
  have at_k : (values.map (object data))[k]? = values[k]?.map (object data) := List.getElem?_map
  rcases pullObject_cases eckit lengths here with ⟨e, own, some_, round⟩ |
    ⟨e, message, error, own, empty, round⟩ | ⟨past, round⟩
  · rw [own] at at_k
    simp only [StepSimulates, step, result, round, shown, Request.meant]
    exact ⟨_, .entry reader at_k some_, called⟩
  · rw [own] at at_k
    simp only [StepSimulates, step, result, round, shown, Request.meant]
    exact ⟨_, .unreadable reader at_k (not_not.mpr empty), called⟩
  · simp only [StepSimulates, step, result, round, shown, Request.meant]
    exact ⟨_, .noEntries reader (by rwa [List.length_map]), called⟩

omit [DecidableEq S] [DecidableEq N] in
/-- The readers of a store are those of the results that it stands for. -/
theorem Simulates.cases (simulates : Simulates shelf data isOpen remaining state store)
    (name : N) :
    (state.results name = none ∧ store.readers name = none) ∨
    (∃ cdata stream, ListPending stream cdata ∧ state.results name = some (.list cdata) ∧
      store.readers name = some (.keys (stream.map listedKey))) ∨
    ∃ cdata values k, TrueLengths data values ∧
      PyRetrieveAt data isOpen remaining values k ⟨cdata, ⟨[], []⟩, ()⟩ ∧
      state.results name = some (.retrieve cdata) ∧
      store.readers name = some (.entries (values.map (object data)) k) := by
  have related := simulates.readers name
  generalize state.results name = result at related
  generalize store.readers name = reader at related
  cases related with
  | none => exact .inl ⟨rfl, rfl⟩
  | some stands =>
    cases stands with
    | list pending => exact .inr (.inl ⟨_, _, pending, rfl, rfl⟩)
    | retrieve lengths position =>
      exact .inr (.inr ⟨_, _, _, lengths, position, rfl, rfl⟩)

theorem len_simulates (simulates : Simulates shelf data isOpen remaining state store)
    (name : N) :
    StepSimulates split fdb io sessions finds data shelf isOpen remaining state store
      (.len name) := by
  rcases simulates.cases name with ⟨result, reader⟩ | ⟨cdata, stream, -, result, reader⟩ |
    ⟨cdata, values, k, -, position, result, reader⟩
  · simp only [StepSimulates, step, result, Request.meant]
    exact ⟨store, .countUnbound reader, simulates⟩
  · simp only [StepSimulates, step, result, Request.meant]
    exact ⟨store, .uncounted reader, simulates⟩
  · have here : PyRetrieveAt data isOpen remaining values k
        ⟨cdata, state.memory, state.outside⟩ := ⟨position.position, position.reading⟩
    simp only [StepSimulates, step, result, len_at here, Request.meant]
    refine ⟨store, ?_, simulates⟩
    have counted : Allowed finds Readable store (.count name)
        (.number (values.map (object data)).length : Answer) store := .counted reader
    rwa [List.length_map] at counted

theorem step_simulates (cuts : CutsAndDrops split)
    (eckit : ReadsFully io data content isOpen remaining)
    (leaves : LeavesAlone io shelf) (documented : Documented fdb sessions finds data shelf)
    (simulates : Simulates shelf data isOpen remaining state store) (request : Request S N)
    (whole : request.Whole) :
    StepSimulates split fdb io sessions finds data shelf isOpen remaining state store request := by
  cases request with
  | archive session key buffer => exact archive_simulates cuts documented simulates whole
  | flush session => exact flush_simulates documented simulates session
  | list name session query => exact list_simulates documented simulates name session query
  | retrieve name session query =>
    exact retrieve_simulates documented simulates name session query
  | len name => exact len_simulates simulates name
  | next name =>
    rcases simulates.cases name with ⟨result, reader⟩ | ⟨cdata, stream, pending, result, reader⟩ |
      ⟨cdata, values, k, lengths, position, result, reader⟩
    · simp only [StepSimulates, step, result, Request.meant]
      exact ⟨store, .nextUnbound reader, simulates⟩
    · exact nextListed_simulates simulates result pending reader
    · exact nextRetrieved_simulates eckit leaves simulates result lengths position reader

end Steps

/-- The calls of a program as requests to the store, with their answers. -/
def asked (split : Bytes → Bytes → List Bytes) (calls : List (Request S N × Answer)) :
    List (PendingStores.Request S Key Bytes MarsRequest N × Answer) :=
  calls.map (fun call => (call.1.meant split, call.2))

theorem program_simulates (cuts : CutsAndDrops split)
    (eckit : ReadsFully io data content isOpen remaining)
    (leaves : LeavesAlone io shelf) (documented : Documented fdb sessions finds data shelf) (w : W)
    {requests : List (Request S N)} (whole : ∀ request ∈ requests, request.Whole) :
    ∃ store, Runs (Allowed finds Readable) ⟨shelf w, fun _ => none⟩
        (asked split (trace (step split fdb io sessions) (.start w) requests)) store ∧
      Simulates shelf data isOpen remaining
        (after (step split fdb io sessions) (.start w) requests) store :=
  runs_of_simulation (R := Simulates shelf data isOpen remaining)
    (fun request whole simulates =>
      step_simulates cuts eckit leaves documented simulates request whole)
    ⟨rfl, fun _ => .none⟩ whole

/-- Every program is a run of the store: sessions write, flushing commits, listings and
retrievals read what is visible when they are made. -/
theorem programs_refine_store (cuts : CutsAndDrops split)
    (eckit : ReadsFully io data content isOpen remaining)
    (leaves : LeavesAlone io shelf) (documented : Documented fdb sessions finds data shelf) (w : W)
    {requests : List (Request S N)} (whole : ∀ request ∈ requests, request.Whole) :
    ∃ store, Runs (Allowed finds Readable) ⟨shelf w, fun _ => none⟩
        (asked split (trace (step split fdb io sessions) (.start w) requests)) store ∧
      shelf (after (step split fdb io sessions) (.start w) requests).outside = store.shelf := by
  obtain ⟨store, runs, simulates⟩ := program_simulates cuts eckit leaves documented w whole
  exact ⟨store, runs, simulates.shelf⟩

/-- The request archives something under the key. -/
def Request.Archives (split : Bytes → Bytes → List Bytes) (k : Key) : Request S N → Prop
  | .archive _ key buffer => ∃ bytes, entry split key buffer = some (k, bytes)
  | _ => False

/-- The request gives the name to a new result. -/
def Request.Binds (name : N) : Request S N → Prop
  | .list n _ _ => n = name
  | .retrieve n _ _ => n = name
  | _ => False

omit [DecidableEq S] [DecidableEq N] in
theorem archives_of_meant {k : Key} {bytes : Bytes} {session : S} {request : Request S N}
    (meant : request.meant split = .write session (some (k, bytes))) :
    ∃ key buffer, request = .archive session key buffer ∧
      entry split key buffer = some (k, bytes) := by
  cases request with
  | archive session' key buffer =>
    cases congrArg (fun request : PendingStores.Request S Key Bytes MarsRequest N =>
      match request with
      | .write session _ => some session
      | _ => none) meant
    refine ⟨key, buffer, rfl, ?_⟩
    simpa only [Request.meant, PendingStores.Request.write.injEq, true_and] using meant
  | _ => cases meant

omit [DecidableEq S] [DecidableEq N] in
theorem spares_of_not_archives {k : Key} {request : Request S N}
    (other : ¬ request.Archives split k) : (request.meant split).Spares k := by
  intro session bytes meant
  obtain ⟨key, buffer, rfl, own⟩ := archives_of_meant meant
  exact other ⟨bytes, own⟩

omit [DecidableEq S] [DecidableEq N] in
theorem leaves_of_not_binds {name : N} {request : Request S N} (other : ¬ request.Binds name) :
    (request.meant split).Leaves name := by
  cases request with
  | list n session query => exact other
  | retrieve n session query => exact other
  | _ => trivial

omit [DecidableEq S] [DecidableEq N] in
theorem mem_asked_next {calls : List (Request S N × Answer)} {name : N} {answer : Answer} :
    (.next name, answer) ∈ asked split calls ↔ (.next name, answer) ∈ calls := by
  constructor
  · intro inside
    obtain ⟨⟨request, answer'⟩, member, same⟩ := List.mem_map.mp inside
    obtain ⟨meant, rfl⟩ := Prod.mk.inj same
    cases request with
    | next n =>
      cases meant
      exact member
    | _ => cases meant
  · exact fun inside => List.mem_map.mpr ⟨_, inside, rfl⟩

omit [DecidableEq S] [DecidableEq N] in
theorem leaves_asked {calls : List (Request S N × Answer)} {name : N}
    (kept : ∀ call ∈ calls, ¬ call.1.Binds name) :
    ∀ call ∈ asked split calls, call.1.Leaves name := by
  intro call inside
  obtain ⟨⟨request, answer⟩, member, rfl⟩ := List.mem_map.mp inside
  exact leaves_of_not_binds (kept _ member)

/-- What was archived and flushed is delivered, byte for byte, by every retrieval that is made
before the key is archived again, finds it and is gone through; and under its key nothing else.
Until the flush no other session may have archived the key. -/
theorem flushed_data_retrieved (cuts : CutsAndDrops split)
    (eckit : ReadsFully io data content isOpen remaining)
    (leaves : LeavesAlone io shelf) (documented : Documented fdb sessions finds data shelf)
    {w : W} {requests : List (Request S N)} (whole : ∀ request ∈ requests, request.Whole)
    {session session' : S} {key : KeyArg} {buffer : Buffer} {name : N} {query : QueryGiven}
    {r₁ r₂ r₃ r₄ : List (Request S N × Answer)}
    (run : trace (step split fdb io sessions) (.start w) requests =
      r₁ ++ (.archive session key buffer, .done) :: (r₂ ++ (.flush session, .done) ::
        (r₃ ++ (.retrieve name session' query, .done) :: r₄)))
    {k : Key} {rq : MarsRequest} (stored : entry split key buffer = some (k, buffer.bytes))
    (wanted : query.request split = some rq) (found : finds rq k) (some_ : buffer.bytes ≠ [])
    (fresh : ∀ s, Untouched k ((shelf w).pending s))
    (own : ∀ call ∈ r₁, call.1.Archives split k →
      ∃ key buffer, call.1 = .archive session key buffer)
    (last : ∀ call ∈ r₂ ++ r₃, ¬ call.1.Archives split k)
    (kept : ∀ call ∈ r₄, ¬ call.1.Binds name) (through : (.next name, .stopped) ∈ r₄) :
    (.next name, .entry k buffer.bytes) ∈ r₄ ∧
      ∀ bytes, (.next name, .entry k bytes) ∈ r₄ → bytes = buffer.bytes := by
  obtain ⟨store, runs, -⟩ := program_simulates cuts eckit leaves documented w whole
  have parts : asked split (trace (step split fdb io sessions) (.start w) requests) =
      asked split r₁ ++ (.write session (some (k, buffer.bytes)), .done) ::
        (asked split r₂ ++ (.commit session, .done) ::
          (asked split r₃ ++ (.read name (some rq), .done) :: asked split r₄)) := by
    simp only [run, asked, List.map_append, List.map_cons, Request.meant, stored, wanted]
  rw [parts] at runs
  have delivered := committed_delivered runs fresh ?own ?last found some_ (leaves_asked kept)
    (mem_asked_next.mpr through)
  · exact ⟨mem_asked_next.mp delivered.1,
      fun bytes inside => delivered.2 bytes (mem_asked_next.mpr inside)⟩
  case own =>
    intro call inside s bytes meant
    obtain ⟨⟨request, answer⟩, member, rfl⟩ := List.mem_map.mp inside
    obtain ⟨key', buffer', rfl, same⟩ := archives_of_meant meant
    obtain ⟨_, _, out⟩ := own _ member ⟨bytes, same⟩
    cases out
    rfl
  case last =>
    intro call inside
    rw [asked, asked, ← List.map_append] at inside
    obtain ⟨⟨request, answer⟩, member, rfl⟩ := List.mem_map.mp inside
    exact spares_of_not_archives (last _ member)

/-- What was archived and flushed is listed by every later listing that finds it and is gone
through without an exception, whatever is archived or flushed meanwhile. -/
theorem flushed_keys_listed (cuts : CutsAndDrops split)
    (eckit : ReadsFully io data content isOpen remaining)
    (leaves : LeavesAlone io shelf) (documented : Documented fdb sessions finds data shelf)
    {w : W} {requests : List (Request S N)} (whole : ∀ request ∈ requests, request.Whole)
    {session session' : S} {key : KeyArg} {buffer : Buffer} {name : N} {query : QueryGiven}
    {r₁ r₂ r₃ r₄ : List (Request S N × Answer)}
    (run : trace (step split fdb io sessions) (.start w) requests =
      r₁ ++ (.archive session key buffer, .done) :: (r₂ ++ (.flush session, .done) ::
        (r₃ ++ (.list name session' query, .done) :: r₄)))
    {k : Key} {rq : MarsRequest} (stored : entry split key buffer = some (k, buffer.bytes))
    (wanted : query.request split = some rq) (found : finds rq k)
    (kept : ∀ call ∈ r₄, ¬ call.1.Binds name) (through : (.next name, .stopped) ∈ r₄)
    (sound : ∀ x, (.next name, .failed x) ∉ r₄) : (.next name, .key k) ∈ r₄ := by
  obtain ⟨store, runs, -⟩ := program_simulates cuts eckit leaves documented w whole
  have parts : asked split (trace (step split fdb io sessions) (.start w) requests) =
      asked split r₁ ++ (.write session (some (k, buffer.bytes)), .done) ::
        (asked split r₂ ++ (.commit session, .done) ::
          (asked split r₃ ++ (.scan name (some rq), .done) :: asked split r₄)) := by
    simp only [run, asked, List.map_append, List.map_cons, Request.meant, stored, wanted]
  rw [parts] at runs
  exact mem_asked_next.mp (committed_listed runs found (leaves_asked kept)
    (mem_asked_next.mpr through) fun x failed => sound x (mem_asked_next.mp failed))

/-- Whatever a retrieval delivers was handed to an earlier archive call, under this key and
with these bytes, or was in the archive when the program started. -/
theorem retrieves_only_archived (cuts : CutsAndDrops split)
    (eckit : ReadsFully io data content isOpen remaining)
    (leaves : LeavesAlone io shelf) (documented : Documented fdb sessions finds data shelf)
    {w : W} {requests : List (Request S N)} (whole : ∀ request ∈ requests, request.Whole)
    {before later : List (Request S N × Answer)} {name : N} {k : Key} {bytes : Bytes}
    (run : trace (step split fdb io sessions) (.start w) requests =
      before ++ (.next name, .entry k bytes) :: later) :
    (shelf w).Visible k bytes ∨ ∃ session key buffer answer,
      (.archive session key buffer, answer) ∈ before ∧
        entry split key buffer = some (k, bytes) := by
  obtain ⟨store, runs, -⟩ := program_simulates cuts eckit leaves documented w whole
  have parts : asked split (trace (step split fdb io sessions) (.start w) requests) =
      asked split before ++ (.next name, .entry k bytes) :: asked split later := by
    simp only [run, asked, List.map_append, List.map_cons, Request.meant]
  rw [parts] at runs
  rcases delivered_written runs (fun _ => rfl) with visible | ⟨session, answer, inside⟩
  · exact .inl visible
  · obtain ⟨⟨request, answer'⟩, member, same⟩ := List.mem_map.mp inside
    obtain ⟨meant, rfl⟩ := Prod.mk.inj same
    obtain ⟨key, buffer, rfl, own⟩ := archives_of_meant meant
    exact .inr ⟨session, key, buffer, _, member, own⟩

end Simulation

section Samples

/-- An FDB in memory, for one session. -/
structure Kept where
  flushed : List (Key × Bytes)
  pending : List (Key × Bytes)

def Kept.shelf (kept : Kept) : Shelf Unit Key Bytes :=
  ⟨mask (fun _ => none) kept.flushed, fun _ => kept.pending⟩

/-- A request finds the keys that have one of its values for each of its keywords. -/
def matching (rq : MarsRequest) (k : Key) : Prop :=
  ∀ b ∈ rq.values, ∃ v ∈ b.2, (b.1, v) ∈ k.items

instance (rq : MarsRequest) (k : Key) : Decidable (matching rq k) :=
  inferInstanceAs (Decidable (∀ b ∈ rq.values, ∃ v ∈ b.2, (b.1, v) ∈ k.items))

/-- The URI of a location is the data at it. -/
def Kept.find (kept : Kept) (rq : MarsRequest) : List FdbListElement :=
  (kept.flushed.map Prod.fst).filterMap fun k =>
    if matching rq k then
      (kept.shelf.accessible k).map fun bytes => ⟨k.items, 0, ⟨bytes, 0, bytes.length⟩⟩
    else none

def keptFdb : Fdb Unit Kept where
  open_ _ w := (.ok (), w)
  archive _ handed w :=
    match handed.data with
    | some bytes =>
      (.ok (), { w with pending := w.pending ++ [(Key.ofCombined handed.key, bytes)] })
    | none => (.error .other, w)
  wipe _ _ _ _ _ w := (.ok [], w)
  purge _ _ _ _ w := (.ok [], w)
  list _ rq _ w := (.ok ((w.find rq).map Event.element), w)
  inspect _ rq w := (.ok ((w.find rq).map Event.element), w)
  flush _ w := (.ok (), ⟨w.flushed ++ w.pending, []⟩)

theorem find_selects (kept : Kept) (rq : MarsRequest) :
    TrueLengths (fun e => e.location.uri) (kept.find rq) ∧
      Selects matching kept.shelf rq ((kept.find rq).map (object fun e => e.location.uri)) := by
  have members : ∀ e ∈ kept.find rq, ∃ k bytes, matching rq k ∧
      kept.shelf.accessible k = some bytes ∧ e = ⟨k.items, 0, ⟨bytes, 0, bytes.length⟩⟩ := by
    intro e inside
    obtain ⟨k, -, made⟩ := List.mem_filterMap.mp inside
    split at made
    · rename_i finds
      obtain ⟨bytes, held, rfl⟩ := Option.map_eq_some_iff.mp made
      exact ⟨k, bytes, finds, held, rfl⟩
    · cases made
  refine ⟨?_, ?_, ?_⟩
  · intro e inside
    obtain ⟨k, bytes, -, -, rfl⟩ := members e inside
    rfl
  · intro o inside
    obtain ⟨e, member, rfl⟩ := List.mem_map.mp inside
    obtain ⟨k, bytes, finds, held, rfl⟩ := members e member
    simp only [object, ofCombined_items]
    exact ⟨finds, .inl held⟩
  · intro k bytes held finds
    have written : (k, bytes) ∈ kept.flushed := by
      rcases mask_cases held with none | inside
      · cases none
      · exact inside
    refine ⟨(k, bytes), List.mem_map.mpr ⟨⟨k.items, 0, ⟨bytes, 0, bytes.length⟩⟩, ?_, ?_⟩, rfl⟩
    · refine List.mem_filterMap.mpr ⟨k, List.mem_map.mpr ⟨_, written, rfl⟩, ?_⟩
      rw [if_pos finds, held]
      rfl
    · rw [object, ofCombined_items]

theorem keptFdb_documented : Documented keptFdb (fun _ : Unit => ()) matching
    (fun e => e.location.uri) Kept.shelf where
  archived := by
    rintro s bindings bytes w w' ⟨⟩
    rfl
  notArchived := by
    rintro s bindings bytes w w' x out
    cases out
  flushed := by
    rintro s w w' ⟨⟩
    simp only [Kept.shelf, Shelf.commit, mask_append]
    rw [Function.update_eq_const_of_subsingleton]
    rfl
  notFlushed := by
    rintro s w w' x out
    cases out
  listed := by
    rintro s rq w w' result ⟨⟩
    refine ⟨rfl, ?_⟩
    rintro iter ⟨⟩
    obtain ⟨-, selects⟩ := find_selects w rq
    refine ⟨fun k inside => ?_, fun _ k bytes held finds => ?_⟩
    · obtain ⟨event, member, shows⟩ := List.mem_map.mp inside
      obtain ⟨e, own, rfl⟩ := List.mem_map.mp member
      obtain rfl := Option.some.inj shows
      obtain ⟨finds, visible⟩ := selects.sound _ (List.mem_map_of_mem own)
      exact ⟨finds, _, visible⟩
    · obtain ⟨o, member, rfl⟩ := selects.complete k bytes held finds
      obtain ⟨e, own, rfl⟩ := List.mem_map.mp member
      exact List.mem_map.mpr ⟨_, List.mem_map_of_mem own, rfl⟩
  inspected := by
    rintro s rq w w' result ⟨⟩
    refine ⟨rfl, fun values same => ?_⟩
    have injective : Function.Injective (Event.element (E := FdbListElement) (X := Exception)) :=
      fun _ _ same => Event.element.inj same
    obtain rfl := List.map_injective_iff.mpr injective (Except.ok.inj same)
    exact find_selects w rq

/-- Handles that act on nothing, over any state. -/
def idle {P D : Type} (io : Eckit P D Unit) : Eckit P D W where
  locationDataHandle e w := ((io.locationDataHandle e ()).1, w)
  gather sorted parts w := ((io.gather sorted parts ()).1, w)
  openForRead d w := ((io.openForRead d ()).1, (io.openForRead d ()).2.1, w)
  read d n w := ((io.read d n ()).1, (io.read d n ()).2.1, w)

theorem idle_leaves {P D A : Type} (io : Eckit P D Unit) (view : W → A) :
    LeavesAlone (idle io) view :=
  ⟨fun _ _ => rfl, fun _ _ _ => rfl, fun _ _ => rfl, fun _ _ _ => rfl⟩

theorem idle_reads : ReadsFully (idle (storeEckit id) : Eckit Bytes (Bool × Bytes) W)
    (fun e => e.location.uri) id (fun d => d.1 = true) Prod.snd where
  located e w := ⟨_, w, rfl, rfl⟩
  gathered parts w := ⟨_, w, _, w, rfl, rfl, rfl, (congrArg List.flatten parts.map_id).symm⟩
  reads d n w opened positive := by
    obtain ⟨bytes, d', w', out, same⟩ := storeEckit_fills.reads d n () opened positive
    exact ⟨bytes, d', w, by simp only [idle, out], same⟩
  fills d n w bytes d' w' opened out := by
    obtain ⟨result, rest⟩ := Prod.mk.inj out
    exact storeEckit_fills.fills d n () opened (Prod.ext result (Prod.ext (Prod.mk.inj rest).1 rfl))

theorem splitTokens_cuts : CutsAndDrops splitTokens := fun _ _ => rfl

def sampleKey : KeyArg := .dict [(.text (py "level"), .text (py "1"))]

def sampleData : Buffer := ⟨1, [3], [1, 2, 3], none, by decide, by decide⟩

def sampleQuery : QueryGiven :=
  .arg (.dict [(.text (py "level"), [.text (py "1"), .text (py "2")])])

/-- The data are flushed and read back, with another object of the same name pending. -/
def sampleRequests : List (Request Unit Nat) :=
  [.archive () sampleKey sampleData, .flush (), .retrieve 0 () sampleQuery,
    .archive () sampleKey ⟨1, [1], [4], none, by decide, by decide⟩, .next 0, .next 0]

def sampleStep : State Nat (Bool × Bytes) Kept → Request Unit Nat →
    Answer × State Nat (Bool × Bytes) Kept :=
  step splitTokens keptFdb (idle (storeEckit id)) fun _ => ()

theorem sampleRequests_whole : ∀ request ∈ sampleRequests, request.Whole := by
  have intact : KeyIntact sampleKey := by
    intro encoded made
    obtain rfl : encoded = [(ascii "level", ascii "1")] := Except.ok.inj (made.symm.trans rfl)
    exact ⟨by decide, by decide⟩
  intro request inside
  simp only [sampleRequests, List.mem_cons, List.not_mem_nil, or_false] at inside
  rcases inside with rfl | rfl | rfl | rfl | rfl | rfl
  · exact ⟨by decide, intact⟩
  · trivial
  · trivial
  · exact ⟨by decide, intact⟩
  · trivial
  · trivial

def storedKey : Key := Key.ofPairs [(ascii "level", ascii "1")]

/-- What happens after the retrieval. -/
def sampleReading : List (Request Unit Nat × Answer) :=
  [(.archive () sampleKey ⟨1, [1], [4], none, by decide, by decide⟩, .done),
    (.next 0, .entry storedKey [1, 2, 3]), (.next 0, .stopped)]

theorem sampleRun : trace sampleStep (.start ⟨[], []⟩) sampleRequests =
    [] ++ (.archive () sampleKey sampleData, .done) :: ([] ++ (.flush (), .done) ::
      ([] ++ (.retrieve 0 () sampleQuery, .done) :: sampleReading)) := rfl

theorem programs_refine_store_sample : ∃ store : Store Unit Key Bytes Nat,
    Runs (Allowed matching Readable) ⟨Kept.shelf ⟨[], []⟩, fun _ => none⟩
        (asked splitTokens (trace sampleStep (.start ⟨[], []⟩) sampleRequests)) store ∧
      (after sampleStep (.start ⟨[], []⟩) sampleRequests).outside.shelf = store.shelf :=
  programs_refine_store splitTokens_cuts idle_reads (idle_leaves _ _) keptFdb_documented ⟨[], []⟩
    sampleRequests_whole

theorem flushed_data_retrieved_sample :
    (.next 0, .entry storedKey [1, 2, 3]) ∈ sampleReading ∧
      ∀ bytes, (.next 0, .entry storedKey bytes) ∈ sampleReading → bytes = [1, 2, 3] := by
  have found :
      matching ⟨ascii "retrieve", [(ascii "level", [ascii "1", ascii "2"])]⟩ storedKey := by
    decide
  have kept : ∀ call ∈ sampleReading, ¬ call.1.Binds 0 := by
    simp [sampleReading, Request.Binds]
  exact flushed_data_retrieved splitTokens_cuts idle_reads (idle_leaves _ _) keptFdb_documented
    sampleRequests_whole sampleRun rfl rfl found (by decide) (fun _ => List.forall_mem_nil _)
    (List.forall_mem_nil _) (List.forall_mem_nil _) kept (by simp [sampleReading])

/-- The same key in a listing. -/
def sampleListing : List (Request Unit Nat) :=
  [.archive () sampleKey sampleData, .flush (), .list 1 () sampleQuery, .next 1, .next 1]

theorem flushed_keys_listed_sample :
    (.next 1, .key storedKey) ∈ ([(.next 1, .key storedKey), (.next 1, .stopped)] :
      List (Request Unit Nat × Answer)) := by
  have intact := (sampleRequests_whole (.archive () sampleKey sampleData) List.mem_cons_self)
  have whole : ∀ request ∈ sampleListing, request.Whole := by
    intro request inside
    simp only [sampleListing, List.mem_cons, List.not_mem_nil, or_false] at inside
    rcases inside with rfl | rfl | rfl | rfl | rfl
    · exact intact
    all_goals trivial
  have run : trace sampleStep (.start ⟨[], []⟩) sampleListing =
      [] ++ (.archive () sampleKey sampleData, .done) :: ([] ++ (.flush (), .done) ::
        ([] ++ (.list 1 () sampleQuery, .done) ::
          [(.next 1, .key storedKey), (.next 1, .stopped)])) := rfl
  have found :
      matching ⟨ascii "retrieve", [(ascii "level", [ascii "1", ascii "2"])]⟩ storedKey := by
    decide
  exact flushed_keys_listed splitTokens_cuts idle_reads (idle_leaves _ _) keptFdb_documented
    whole run rfl rfl found (by simp [Request.Binds]) (by simp) (by simp)

theorem retrieves_only_archived_sample :
    Shelf.Visible (Kept.shelf ⟨[], []⟩) storedKey [1, 2, 3] ∨ ∃ session key buffer answer,
      (.archive session key buffer, answer) ∈ ([(.archive () sampleKey sampleData, .done),
        (.flush (), .done), (.retrieve 0 () sampleQuery, .done),
        (.archive () sampleKey ⟨1, [1], [4], none, by decide, by decide⟩, .done)] :
          List (Request Unit Nat × Answer)) ∧
      entry splitTokens key buffer = some (storedKey, [1, 2, 3]) :=
  retrieves_only_archived splitTokens_cuts idle_reads (idle_leaves _ _) keptFdb_documented
    sampleRequests_whole sampleRun

end Samples

end ArchiveStore
