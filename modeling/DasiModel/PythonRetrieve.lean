import DasiModel.PythonIterators

/-!
# Retrieving in Python

The metadata of an item come from the iteration and its data from the read
stream, so an item is right if all the steps before it have consumed exactly
the length of their own element. The read path refuses an empty buffer, which
the archive path admits.
-/

namespace PythonRetrieve
open Texts Exceptions DasiKey Generators CHandles Machines Cursors RetrieveReading Iterators
open IterationProtocol PythonKey PythonIterators

universe u v w
variable {P : Type u} {D : Type v} {W : Type w} {io : Eckit P D W}
  {data : FdbListElement → Bytes} {content : P → Bytes} {isOpen : D → Prop}
  {remaining : D → Bytes} {values : List FdbListElement}

/-- What an element shows as a retrieved item. -/
def retrieved (data : FdbListElement → Bytes) (e : FdbListElement) : RetrieveRecord :=
  ⟨Key.ofCombined e.combinedKey, data e, e.timestamp, e.location.offset, (data e).length⟩

/-- The elements tell the true lengths of their data. -/
def TrueLengths (data : FdbListElement → Bytes) (values : List FdbListElement) : Prop :=
  ∀ e ∈ values, e.location.length = (data e).length

instance (data : FdbListElement → Bytes) (values : List FdbListElement) :
    Decidable (TrueLengths data values) :=
  inferInstanceAs (Decidable (∀ e ∈ values, e.location.length = (data e).length))

/-- The data of the first `k` elements. -/
def dataBefore (data : FdbListElement → Bytes) (values : List FdbListElement) (k : Nat) : Bytes :=
  (values.take k).flatMap data

theorem dataBefore_succ {k : Nat} {e : FdbListElement} (he : values[k]? = some e) :
    dataBefore data values (k + 1) = dataBefore data values k ++ data e := by
  rw [dataBefore, dataBefore, List.take_add_one, he, List.flatMap_append]
  simp

theorem dataBefore_of_le {k : Nat} (past : values.length ≤ k) :
    dataBefore data values k = values.flatMap data := by
  rw [dataBefore, List.take_of_length_le past]

/-- After the data of the first elements comes that of the next. -/
theorem take_dataAfter {k : Nat} {e : FdbListElement} (he : values[k]? = some e) :
    ((values.flatMap data).drop (dataBefore data values k).length).take (data e).length =
      data e := by
  obtain ⟨room, rfl⟩ := List.getElem?_eq_some_iff.mp he
  have split : values.flatMap data =
      dataBefore data values k ++ (data values[k] ++ (values.drop (k + 1)).flatMap data) := by
    rw [dataBefore, ← List.flatMap_cons, List.getElem_cons_drop, ← List.flatMap_append,
      List.take_append_drop]
  rw [split, List.drop_left, List.take_left]

/-- A Python retrieve after `k` calls: both cursors have passed `k` elements. -/
structure PyRetrieveAt (data : FdbListElement → Bytes) (isOpen : D → Prop)
    (remaining : D → Bytes) (values : List FdbListElement) (k : Nat)
    (retrieve : PyRetrieve D W) : Prop where
  position : RetrieveAt values k retrieve.cdata.toHandle
  reading : ReadAt isOpen remaining values (values.flatMap data) (dataBefore data values k)
    retrieve.cdata

section Frames

theorem read_grows (io : Eckit P D W) (retrieve : PyRetrieve D W) :
    retrieve.memory.Grows (retrieve.read io).2.memory := by
  simp only [PyRetrieve.read]
  split
  · exact .refl _
  · have key_grows := retrieve.memory.newKey_grows
    split
    · exact key_grows _
    · split
      · exact (key_grows _).trans (Memory.newBytearray_grows _ _)
      · exact (key_grows _).trans (Memory.write_new_grows _ _ _)

theorem next_grows (io : Eckit P D W) (retrieve : PyRetrieve D W) :
    retrieve.memory.Grows (retrieve.next io).2.memory := by
  simp only [PyRetrieve.next]
  split
  · exact .refl _
  · exact .refl _
  · exact read_grows io { retrieve with cdata := (dasiRetrieveNext retrieve.cdata).2 }

end Frames

/-- Reading the item of element `k`: its own data, unless there are none. -/
theorem read_at (eckit : ReadsFully io data content isOpen remaining) (retrieve : PyRetrieve D W)
    {k : Nat} {e : FdbListElement} (position : RetrieveAt values (k + 1) retrieve.cdata.toHandle)
    (reading : ReadAt isOpen remaining values (values.flatMap data) (dataBefore data values k)
      retrieve.cdata)
    (he : values[k]? = some e) (true_length : e.location.length = (data e).length) :
    PyRetrieveAt data isOpen remaining values (k + 1) (retrieve.read io).2 ∧
    (data e = [] → ∃ message error,
      (retrieve.read io).1 = .error (.dasiException message error)) ∧
    (data e ≠ [] → ∃ item, (retrieve.read io).1 = .ok item ∧
      item.read (retrieve.read io).2.memory = some (retrieved data e)) := by
  have hattrs : dasiRetrieveAttrs retrieve.cdata .all =
      .ok (retrieveReport (k + 1) .all (convert e)) := by
    rw [dasiRetrieveAttrs_eq position, expected, inHand_succ, List.getElem?_map, he]
    rfl
  have hlength : (retrieveReport (k + 1) .all (convert e)).length.getD 0 =
      ((data e).length : Int) := true_length
  have notNegative : ¬ ((data e).length : Int) < 0 := by omega
  by_cases empty : data e = []
  · have short : ¬ 0 < ((data e).length : Int) := by simp [empty]
    have refused := dasiRetrieveRead_refused io retrieve.cdata short retrieve.world
    simp only [PyRetrieve.read, hattrs, checkError, hlength, notNegative, if_false, refused]
    refine ⟨⟨position, ?_⟩, fun _ => ⟨_, _, rfl⟩, fun h => False.elim (h empty)⟩
    rw [dataBefore_succ he, empty, List.append_nil]
    exact reading
  · have positive : 0 < ((data e).length : Int) := by
      have := List.length_pos_iff.mpr empty
      omega
    obtain ⟨bytes, hresult, -, -, moved⟩ :=
      dasiRetrieveRead_readsNext eckit.toReadsConcatenation reading positive retrieve.world
    have own : bytes = data e := by
      rw [dasiRetrieveRead_fills eckit reading positive retrieve.world hresult, Int.toNat_natCast,
        take_dataAfter he]
    have same : (dasiRetrieveRead io retrieve.cdata retrieve.world (data e).length).2.1.toHandle =
        retrieve.cdata.toHandle := dasiRetrieveRead_toHandle _ _ _
    subst own
    simp only [PyRetrieve.read, hattrs, checkError, hlength, notNegative, if_false, hresult]
    refine ⟨⟨?_, ?_⟩, fun h => False.elim (empty h), fun _ => ⟨_, rfl, ?_⟩⟩
    · rw [same]
      exact position
    · rw [dataBefore_succ he]
      exact moved
    · simp [RetrieveItem.read, Memory.newKey, Memory.newBytearray, Memory.write,
        List.modify_eq_set_getElem?, retrieveReport, Attrs.of, Wanted.all, retrieved, convert]

/-- The call after `k` others: the item of element `k`, or the end. -/
theorem next_at (eckit : ReadsFully io data content isOpen remaining)
    (lengths : TrueLengths data values) {k : Nat} {retrieve : PyRetrieve D W}
    (position : PyRetrieveAt data isOpen remaining values k retrieve) :
    PyRetrieveAt data isOpen remaining values (k + 1) (retrieve.next io).2 ∧
    (∀ e, values[k]? = some e →
      (data e = [] → ∃ message error,
        (retrieve.next io).1 = .error (.dasiException message error)) ∧
      (data e ≠ [] → ∃ item, (retrieve.next io).1 = .ok item ∧
        item.read (retrieve.next io).2.memory = some (retrieved data e))) ∧
    (values.length ≤ k → (retrieve.next io).1 = .error .stopIteration) := by
  have reading' : ReadAt isOpen remaining values (values.flatMap data) (dataBefore data values k)
      (dasiRetrieveNext retrieve.cdata).2 :=
    ⟨by rw [dasiRetrieveNext_values, position.reading.elements], position.reading.unread,
      position.reading.opened⟩
  cases hout : dasiRetrieveNext retrieve.cdata with
  | mk result cdata =>
    have spec := retrieve_nextSpec position.position
    rw [hout] at spec reading'
    rcases spec with ⟨x, -, -, paid⟩ | ⟨hr, moved, -, room⟩ | ⟨hr, moved, -, past⟩
    · cases paid
    · cases hr
      rw [List.length_map] at room
      have he := List.getElem?_eq_getElem room
      have hnext : retrieve.next io = PyRetrieve.read io { retrieve with cdata := cdata } := by
        simp only [PyRetrieve.next, hout, checkError]
      rw [hnext]
      obtain ⟨position', refuses, shows⟩ := read_at eckit { retrieve with cdata := cdata } moved
        reading' he (lengths _ (List.getElem_mem room))
      refine ⟨position', ?_, by omega⟩
      intro e he'
      rw [he] at he'
      cases he'
      exact ⟨refuses, shows⟩
    · cases hr
      rw [List.length_map] at past
      have hnext : retrieve.next io =
          (.error .stopIteration, { retrieve with cdata := cdata }) := by
        simp only [PyRetrieve.next, hout, checkError]
      rw [hnext]
      refine ⟨⟨moved, ?_⟩, ?_, fun _ => rfl⟩
      · rw [dataBefore_of_le past] at reading'
        rw [dataBefore_of_le (by omega)]
        exact reading'
      · intro e he
        rw [List.getElem?_eq_none past] at he
        cases he

theorem pyRetrieveAt_new {retrieve : DasiRetrieve D}
    (created : newDasiRetrieve (values.map Event.element) = .ok retrieve) (m : Memory) (w : W) :
    PyRetrieveAt data isOpen remaining values 0 ⟨retrieve, m, w⟩ := by
  refine ⟨?_, readAt_new created⟩
  have position := retrieveAt_new created
  rwa [elements_map_element] at position

/-- `len(retrieve)` counts the elements, wherever the iteration stands. -/
theorem len_at {k : Nat} {retrieve : PyRetrieve D W}
    (position : PyRetrieveAt data isOpen remaining values k retrieve) :
    retrieve.len = .ok (values.length : Int) := by
  rw [PyRetrieve.len, dasiRetrieveCount, RetrieveResultImpl.count, position.reading.elements]
  rfl

/-- Iterating to the end raises nowhere, yields the objects in turn with their own
bytes and lengths, and `len` is their number. -/
structure Delivers (io : Eckit P D W) (data : FdbListElement → Bytes)
    (values : List FdbListElement) (retrieve : PyRetrieve D W) : Prop where
  items : ∀ i e, values[i]? = some e → ∃ item record,
    call (PyRetrieve.next io) retrieve i = .ok item ∧
    item.read (stateAfter (PyRetrieve.next io) retrieve (i + 1)).memory = some record ∧
    record.data = data e ∧ record.length = (data e).length
  stops : call (PyRetrieve.next io) retrieve values.length = .error .stopIteration
  len : ∀ i ≤ values.length,
    (stateAfter (PyRetrieve.next io) retrieve i).len = .ok (values.length : Int)

/-- Each object gets its own bytes exactly when none of the objects is empty. -/
theorem delivers_iff_nonempty {P : Type u} {D : Type v} {W : Type w} {io : Eckit P D W}
    {data : FdbListElement → Bytes} {content : P → Bytes} {isOpen : D → Prop}
    {remaining : D → Bytes} (eckit : ReadsFully io data content isOpen remaining)
    {values : List FdbListElement} (lengths : TrueLengths data values)
    {retrieve : DasiRetrieve D}
    (created : newDasiRetrieve (values.map Event.element) = .ok retrieve) (m : Memory) (w : W) :
    Delivers io data values ⟨retrieve, m, w⟩ ↔ ∀ e ∈ values, data e ≠ [] := by
  have position : ∀ i, PyRetrieveAt data isOpen remaining values i
      (stateAfter (PyRetrieve.next io) ⟨retrieve, m, w⟩ i) :=
    stateAfter_position (fun _ _ at_k => (next_at eckit lengths at_k).1)
      (pyRetrieveAt_new created m w)
  constructor
  · intro delivers e member empty
    obtain ⟨i, he⟩ := List.mem_iff_getElem?.mp member
    obtain ⟨item, -, yielded, -⟩ := delivers.items i e he
    obtain ⟨message, error, raised⟩ := ((next_at eckit lengths (position i)).2.1 e he).1 empty
    rw [call, raised] at yielded
    cases yielded
  · intro nonempty
    refine ⟨?_, (next_at eckit lengths (position _)).2.2 (Nat.le_refl _),
      fun i _ => len_at (position i)⟩
    intro i e he
    have some_data := nonempty e (List.mem_of_getElem? he)
    obtain ⟨item, yielded, shows⟩ := ((next_at eckit lengths (position i)).2.1 e he).2 some_data
    refine ⟨item, retrieved data e, yielded, ?_, rfl, rfl⟩
    rw [stateAfter_succ]
    exact shows

private def threeBytes : FdbListElement := ⟨[], 1, ⟨ascii "abc", 0, 3⟩⟩

private def noBytes : FdbListElement := ⟨[], 2, ⟨[], 3, 0⟩⟩

private def twoBytes : FdbListElement := ⟨[], 3, ⟨ascii "de", 3, 2⟩⟩

theorem delivers_iff_nonempty_sample : ∃ retrieve : DasiRetrieve (Bool × Bytes),
    newDasiRetrieve ([threeBytes, twoBytes].map Event.element) = .ok retrieve ∧
    (Delivers (storeEckit id) (fun e => e.location.uri) [threeBytes, twoBytes]
        ⟨retrieve, ⟨[], []⟩, ()⟩ ↔
      ∀ e ∈ [threeBytes, twoBytes], e.location.uri ≠ []) := by
  have created : newDasiRetrieve (D := Bool × Bytes)
      ([threeBytes, twoBytes].map Event.element) = .ok _ := rfl
  have lengths : TrueLengths (fun e => e.location.uri) [threeBytes, twoBytes] := by decide
  exact ⟨_, created, delivers_iff_nonempty storeEckit_fills lengths created ⟨[], []⟩ ()⟩

/-- An empty object after one of three bytes: the second call raises. -/
theorem empty_object_not_delivered : ∃ retrieve : DasiRetrieve (Bool × Bytes),
    newDasiRetrieve ([threeBytes, noBytes].map Event.element) = .ok retrieve ∧
    ReadsFully (storeEckit id) (fun e => e.location.uri) id (fun d => d.1 = true) Prod.snd ∧
    TrueLengths (fun e => e.location.uri) [threeBytes, noBytes] ∧
    ¬ Delivers (storeEckit id) (fun e => e.location.uri) [threeBytes, noBytes]
      ⟨retrieve, ⟨[], []⟩, ()⟩ := by
  have created : newDasiRetrieve (D := Bool × Bytes)
      ([threeBytes, noBytes].map Event.element) = .ok _ := rfl
  refine ⟨_, created, storeEckit_fills, by decide, ?_⟩
  intro delivers
  obtain ⟨item, -, yielded, -⟩ := delivers.items 1 noBytes rfl
  cases yielded

end PythonRetrieve
