import DasiModel.PythonRetrieve

/-!
# Short reads in Python

The data of a retrieved item are a bytearray of the length that the catalogue
tells, filled with zeros, and its length is the number of bytes read. The two
agree, and nothing but read bytes is shown, exactly when the read filled the
request.
-/

namespace ShortReads
open Texts Exceptions DasiKey Generators CHandles Machines Cursors RetrieveReading Iterators
open PythonKey PythonIterators PythonRetrieve

universe u v w
variable {P : Type u} {D : Type v} {W : Type w}

/-- A read puts no more into the buffer than was asked for. -/
def ReadsAtMost (io : Eckit P D W) : Prop :=
  ∀ d n w bytes d' w', io.read d n w = (.ok bytes, d', w') → bytes.length ≤ n

/-- The read that `__read` makes: the handle, the number of bytes asked for, and the
outside at that time. -/
def readIssued (io : Eckit P D W) (retrieve : PyRetrieve D W) : Option (D × Nat × W) :=
  match dasiRetrieveAttrs retrieve.cdata .all with
  | .error _ => none
  | .ok attrs =>
    if 0 < attrs.length.getD 0 then
      match handleToRead io retrieve.cdata retrieve.world with
      | (.error _, _, _) => none
      | (.ok d, _, w) => some (d, (attrs.length.getD 0).toNat, w)
    else none

/-- The read that `__next__` makes. -/
def readMade (io : Eckit P D W) (retrieve : PyRetrieve D W) : Option (D × Nat × W) :=
  match dasiRetrieveNext retrieve.cdata with
  | (.error _, _) => none
  | (.ok .iterationComplete, _) => none
  | (.ok _, cdata) => readIssued io { retrieve with cdata := cdata }

/-- The item shows what a read delivered, and zeros up to what was asked for. -/
structure Filled (io : Eckit P D W) (read : D × Nat × W) (item : RetrieveItem) (m : Memory)
    (bytes : Bytes) : Prop where
  delivered : ∃ d w, io.read read.1 read.2.1 read.2.2 = (.ok bytes, d, w)
  length : item.length = bytes.length
  data : m.bytearrays[item.data]? = some (bytes ++ List.replicate (read.2.1 - bytes.length) 0)

section Calls
variable {io : Eckit P D W} {retrieve : PyRetrieve D W} {item : RetrieveItem}

theorem read_ok (yielded : (retrieve.read io).1 = .ok item) : ∃ read bytes,
    readIssued io retrieve = some read ∧ Filled io read item (retrieve.read io).2.memory bytes := by
  simp only [PyRetrieve.read] at yielded ⊢
  cases hattrs : dasiRetrieveAttrs retrieve.cdata .all with
  | error x =>
    rw [hattrs] at yielded
    cases yielded
  | ok attrs =>
    simp only [hattrs, checkError] at yielded ⊢
    by_cases negative : attrs.length.getD 0 < 0
    · rw [if_pos negative] at yielded
      cases yielded
    · rw [if_neg negative] at yielded ⊢
      by_cases positive : 0 < attrs.length.getD 0
      · rw [dasiRetrieveRead_eq io retrieve.cdata retrieve.world positive] at yielded ⊢
        rcases made : handleToRead io retrieve.cdata retrieve.world with ⟨_ | d, cdata, w⟩
        · rw [made] at yielded
          cases yielded
        · simp only [made, readFrom] at yielded ⊢
          rcases hread : io.read d (attrs.length.getD 0).toNat w with ⟨_ | bytes, d', w'⟩
          · rw [hread] at yielded
            cases yielded
          · simp only [hread] at yielded ⊢
            cases yielded
            refine ⟨(d, (attrs.length.getD 0).toNat, w), bytes, ?_, ⟨⟨d', w', hread⟩, rfl, ?_⟩⟩
            · simp only [readIssued, hattrs, positive, if_true, made]
            · rw [Memory.write_new]
              exact List.getElem?_concat_length
      · rw [dasiRetrieveRead_refused io retrieve.cdata positive retrieve.world] at yielded
        cases yielded

/-- An item comes from a read. -/
theorem next_ok (yielded : (retrieve.next io).1 = .ok item) : ∃ read bytes,
    readMade io retrieve = some read ∧ Filled io read item (retrieve.next io).2.memory bytes := by
  simp only [PyRetrieve.next, readMade] at yielded ⊢
  rcases hnext : dasiRetrieveNext retrieve.cdata with ⟨_ | code, cdata⟩
  · rw [hnext] at yielded
    cases yielded
  · rw [hnext] at yielded
    cases code with
    | iterationComplete => cases yielded
    | _ => exact read_ok yielded

/-- What an item shows stays as it is under later calls. -/
theorem Filled.later {read : D × Nat × W} {bytes : Bytes} {m m' : Memory}
    (filled : Filled io read item m bytes) (grows : m.Grows m') : Filled io read item m' bytes :=
  ⟨filled.delivered, filled.length, getElem?_of_isPrefix grows.bytearrays filled.data⟩

theorem memory_grows (io : Eckit P D W) (retrieve : PyRetrieve D W) {i j : Nat} (later : i ≤ j) :
    (stateAfter (PyRetrieve.next io) retrieve i).memory.Grows
      (stateAfter (PyRetrieve.next io) retrieve j).memory := by
  induction j, later using Nat.le_induction with
  | base => exact .refl _
  | succ j _ ih =>
    rw [stateAfter_succ]
    exact ih.trans (next_grows io _)

end Calls

/-- Every item of the iteration shows, whenever it is looked at, the bytes that its own
read delivered and as many as its length tells. -/
def ShowsReadBytes (io : Eckit P D W) (retrieve : PyRetrieve D W) : Prop :=
  ∀ i item, call (PyRetrieve.next io) retrieve i = .ok item → ∃ d n w bytes d' w',
    readMade io (stateAfter (PyRetrieve.next io) retrieve i) = some (d, n, w) ∧
    io.read d n w = (.ok bytes, d', w') ∧ ∀ j, i < j → ∃ data,
      (stateAfter (PyRetrieve.next io) retrieve j).memory.bytearrays[item.data]? = some data ∧
      (data.length : Int) = item.length ∧ data = bytes

/-- No read that the iteration makes is short. -/
def ReadsAreFull (io : Eckit P D W) (retrieve : PyRetrieve D W) : Prop :=
  ∀ i d n w bytes d' w',
    readMade io (stateAfter (PyRetrieve.next io) retrieve i) = some (d, n, w) →
    io.read d n w = (.ok bytes, d', w') → bytes.length = n

section Converse
variable {io : Eckit P D W}

theorem read_of_issued {retrieve : PyRetrieve D W} {d d' : D} {n : Nat} {w w' : W} {bytes : Bytes}
    (issued : readIssued io retrieve = some (d, n, w))
    (read : io.read d n w = (.ok bytes, d', w')) : ∃ item, (retrieve.read io).1 = .ok item := by
  simp only [readIssued] at issued
  cases hattrs : dasiRetrieveAttrs retrieve.cdata .all with
  | error x =>
    rw [hattrs] at issued
    cases issued
  | ok attrs =>
    simp only [hattrs] at issued
    by_cases positive : 0 < attrs.length.getD 0
    · rw [if_pos positive] at issued
      rcases made : handleToRead io retrieve.cdata retrieve.world with ⟨_ | _, cdata, _⟩
      · rw [made] at issued
        cases issued
      · rw [made] at issued
        cases issued
        have natural : ¬ attrs.length.getD 0 < 0 := by omega
        have reads := dasiRetrieveRead_eq io retrieve.cdata retrieve.world positive
        simp only [made, readFrom, read] at reads
        simp only [PyRetrieve.read, hattrs, checkError, natural, if_false, reads]
        exact ⟨_, rfl⟩
    · rw [if_neg positive] at issued
      cases issued

/-- A read that delivers anything yields an item. -/
theorem next_of_read {retrieve : PyRetrieve D W} {d d' : D} {n : Nat} {w w' : W} {bytes : Bytes}
    (made : readMade io retrieve = some (d, n, w)) (read : io.read d n w = (.ok bytes, d', w')) :
    ∃ item, (retrieve.next io).1 = .ok item := by
  simp only [readMade] at made
  simp only [PyRetrieve.next]
  rcases hnext : dasiRetrieveNext retrieve.cdata with ⟨_ | code, cdata⟩
  · rw [hnext] at made
    cases made
  · rw [hnext] at made
    cases code with
    | iterationComplete => cases made
    | _ => exact read_of_issued made read

end Converse

/-- The items are what was read exactly if no read is short. -/
theorem showsReadBytes_iff {P : Type u} {D : Type v} {W : Type w} {io : Eckit P D W}
    (bounded : ReadsAtMost io) (retrieve : PyRetrieve D W) :
    ShowsReadBytes io retrieve ↔ ReadsAreFull io retrieve := by
  constructor
  · intro shows i d n w bytes d' w' made read
    obtain ⟨item, yielded⟩ := next_of_read made read
    obtain ⟨_, _, _, _, _, _, made', read', shown⟩ := shows i item yielded
    obtain ⟨rfl⟩ := made.symm.trans made'
    obtain ⟨rfl⟩ := read.symm.trans read'
    obtain ⟨data, here, -, rfl⟩ := shown (i + 1) (Nat.lt_succ_self i)
    obtain ⟨_, bytes', made'', filled⟩ := next_ok yielded
    obtain ⟨rfl⟩ := made.symm.trans made''
    obtain ⟨d'', w'', again⟩ := filled.delivered
    obtain ⟨rfl⟩ := read.symm.trans again
    rw [stateAfter_succ, filled.data, Option.some.injEq, List.append_right_eq_self,
      List.replicate_eq_nil_iff] at here
    have most := bounded d n w _ _ _ read
    have nothing : n - _ = 0 := here
    omega
  · intro full i item yielded
    obtain ⟨⟨d, n, w⟩, bytes, made, filled⟩ := next_ok yielded
    obtain ⟨d', w', read⟩ := filled.delivered
    refine ⟨d, n, w, bytes, d', w', made, read, fun j later => ?_⟩
    have whole := full i d n w bytes d' w' made read
    have grows := memory_grows io retrieve (Nat.succ_le_of_lt later)
    rw [stateAfter_succ] at grows
    have data := (filled.later grows).data
    rw [whole, Nat.sub_self, List.replicate_zero, List.append_nil] at data
    exact ⟨bytes, data, filled.length.symm, rfl⟩

private def cutOff : FdbListElement := ⟨[], 1, ⟨ascii "a", 0, 3⟩⟩

theorem storeEckit_atMost : ReadsAtMost (storeEckit id) := by
  rintro ⟨opened, rest⟩ n w bytes d' w' read
  cases opened with
  | false => cases read
  | true =>
    cases read
    exact List.length_take_le n rest

theorem showsReadBytes_iff_sample : ReadsAtMost (storeEckit id) ∧
    ∃ retrieve : DasiRetrieve (Bool × Bytes),
      newDasiRetrieve ([cutOff].map Event.element) = .ok retrieve ∧
      (ShowsReadBytes (storeEckit id) ⟨retrieve, ⟨[], []⟩, ()⟩ ↔
        ReadsAreFull (storeEckit id) ⟨retrieve, ⟨[], []⟩, ()⟩) := by
  have created : newDasiRetrieve (D := Bool × Bytes) ([cutOff].map Event.element) = .ok _ := rfl
  exact ⟨storeEckit_atMost, _, created, showsReadBytes_iff storeEckit_atMost _⟩

/-- Of an object of three bytes one is left in its file: the item shows two zeros. -/
theorem zeros_shown : ∃ retrieve : DasiRetrieve (Bool × Bytes),
    newDasiRetrieve ([cutOff].map Event.element) = .ok retrieve ∧
    ReadsAtMost (storeEckit id) ∧
    (stateAfter (PyRetrieve.next (storeEckit id)) ⟨retrieve, ⟨[], []⟩, ()⟩ 1).memory.bytearrays =
      [ascii "a" ++ [0, 0]] ∧
    ¬ ShowsReadBytes (storeEckit id) ⟨retrieve, ⟨[], []⟩, ()⟩ := by
  have created : newDasiRetrieve (D := Bool × Bytes) ([cutOff].map Event.element) = .ok _ := rfl
  refine ⟨_, created, storeEckit_atMost, rfl, ?_⟩
  intro shows
  obtain ⟨_, _, _, _, _, _, _, _, shown⟩ := shows 0 _ rfl
  obtain ⟨data, here, length, -⟩ := shown 1 Nat.zero_lt_one
  cases here
  cases length

end ShortReads
