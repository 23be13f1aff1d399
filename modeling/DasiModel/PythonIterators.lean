import DasiModel.PythonKey
import DasiModel.RetrieveReading
import DasiModel.Library.Iterators

/-!
# The Python iterators over list, retrieve and wipe

What an item holds is told apart from what it shows: a `Key` is a pointer to an
object on the C++ heap, `data` is a bytearray on Python's, and a wipe yields
itself. Python objects that cannot change (texts and numbers) are part of the
item.
-/

namespace PythonIterators
open Texts Exceptions DasiKey Generators CHandles Machines Cursors RetrieveReading Iterators
open IterationProtocol PythonKey

universe u v w

/-- The objects that items point to; an address is a position. -/
structure Memory where
  keys : List Key
  bytearrays : List Bytes

/-- The `new Key(..)` of an `attrs` call, if it was asked for; `none` is NULL. -/
def Memory.newKey (m : Memory) : Option Key → Option Nat × Memory
  | none => (none, m)
  | some key => (some m.keys.length, { m with keys := m.keys ++ [key] })

/-- `bytearray(size)`. -/
def Memory.newBytearray (m : Memory) (size : Nat) : Nat × Memory :=
  (m.bytearrays.length, { m with bytearrays := m.bytearrays ++ [List.replicate size 0] })

/-- C writes bytes through the pointer that `ffi.from_buffer` made. -/
def Memory.write (m : Memory) (address : Nat) (bytes : Bytes) : Memory :=
  let overwrite (old : Bytes) := bytes ++ old.drop bytes.length
  { m with bytearrays := m.bytearrays.modify address overwrite }

structure ListItem where
  key : Option Nat
  uri : PyStr
  timestamp : Int
  offset : Int
  length : Int

structure RetrieveItem where
  key : Option Nat
  data : Nat
  timestamp : Int
  offset : Int
  length : Int

/-- What a list item shows. -/
structure ListRecord where
  key : Key
  uri : PyStr
  timestamp : Int
  offset : Int
  length : Int
  deriving DecidableEq

/-- What a retrieve item shows. -/
structure RetrieveRecord where
  key : Key
  data : Bytes
  timestamp : Int
  offset : Int
  length : Int
  deriving DecidableEq

def ListItem.read (item : ListItem) (m : Memory) : Option ListRecord := do
  let key ← m.keys[(← item.key)]?
  return ⟨key, item.uri, item.timestamp, item.offset, item.length⟩

def RetrieveItem.read (item : RetrieveItem) (m : Memory) : Option RetrieveRecord := do
  let key ← m.keys[(← item.key)]?
  let data ← m.bytearrays[item.data]?
  return ⟨key, data, item.timestamp, item.offset, item.length⟩

structure PyList where
  cdata : DasiList
  memory : Memory

namespace PyList

/-- `List.__read`. -/
def read (list : PyList) : Except PyException ListItem × PyList :=
  match checkError "dasi_list_attrs" (dasiListAttrs list.cdata .all) with
  | .error x => (.error x, list)
  | .ok attrs =>
    let (ckey, memory) := list.memory.newKey attrs.key
    (.ok {
      key := ckey
      uri := match attrs.uri with
        | some uri => ffiDecode uri
        | none => py "unknown"
      timestamp := attrs.timestamp.getD 0
      offset := attrs.offset.getD 0
      length := attrs.length.getD 0 }, { list with memory := memory })

/-- `List.__next__`. -/
def next (list : PyList) : Except PyException ListItem × PyList :=
  match dasiListNext list.cdata with
  | (result, cdata) =>
    match checkError "dasi_list_next" result with
    | .error x => (.error x, { list with cdata := cdata })
    | .ok .iterationComplete => (.error .stopIteration, { list with cdata := cdata })
    | .ok _ => read { list with cdata := cdata }

def view (list : PyList) (item : ListItem) : Option ListRecord := item.read list.memory

end PyList

structure PyRetrieve (D : Type u) (W : Type v) where
  cdata : DasiRetrieve D
  memory : Memory
  world : W

namespace PyRetrieve
variable {P : Type u} {D : Type v} {W : Type w}

/-- `Retrieve.__read`. The length of the item is the one `dasi_retrieve_read`
leaves behind. -/
def read (io : Eckit P D W) (retrieve : PyRetrieve D W) :
    Except PyException RetrieveItem × PyRetrieve D W :=
  match checkError "dasi_retrieve_attrs" (dasiRetrieveAttrs retrieve.cdata .all) with
  | .error x => (.error x, retrieve)
  | .ok attrs =>
    let (ckey, memory) := retrieve.memory.newKey attrs.key
    let length := attrs.length.getD 0
    if length < 0 then
      (.error (.valueError (py "negative count")), { retrieve with memory := memory })
    else
      let (data, memory) := memory.newBytearray length.toNat
      match dasiRetrieveRead io retrieve.cdata retrieve.world length with
      | (result, cdata, world) =>
        match checkError "dasi_retrieve_read" result with
        | .error x => (.error x, ⟨cdata, memory, world⟩)
        | .ok (_, bytes) =>
          (.ok {
            key := ckey
            data := data
            timestamp := attrs.timestamp.getD 0
            offset := attrs.offset.getD 0
            length := bytes.length }, ⟨cdata, memory.write data bytes, world⟩)

/-- `Retrieve.__next__`. -/
def next (io : Eckit P D W) (retrieve : PyRetrieve D W) :
    Except PyException RetrieveItem × PyRetrieve D W :=
  match dasiRetrieveNext retrieve.cdata with
  | (result, cdata) =>
    match checkError "dasi_retrieve_next" result with
    | .error x => (.error x, { retrieve with cdata := cdata })
    | .ok .iterationComplete => (.error .stopIteration, { retrieve with cdata := cdata })
    | .ok _ => read io { retrieve with cdata := cdata }

/-- `Retrieve.__len__`. -/
def len (retrieve : PyRetrieve D W) : Except PyException Int :=
  checkError "dasi_retrieve_count" (dasiRetrieveCount retrieve.cdata)

def view (retrieve : PyRetrieve D W) (item : RetrieveItem) : Option RetrieveRecord :=
  item.read retrieve.memory

end PyRetrieve

/-- A `const char*` kept by a wipe: NULL, or into the generator's element. -/
inductive CharPtr where
  | null
  | element
  deriving DecidableEq

structure PyWipe where
  cdata : DasiWipe
  value : CharPtr

namespace PyWipe

/-- `Wipe.__next__`, which returns the wipe itself: an item carries nothing. -/
def next (wipe : PyWipe) : Except PyException Unit × PyWipe :=
  match dasiWipeNext wipe.cdata with
  | (result, cdata) =>
    match checkError "dasi_wipe_next" result with
    | .error x => (.error x, { wipe with cdata := cdata })
    | .ok .iterationComplete => (.error .stopIteration, { wipe with cdata := cdata })
    | .ok _ =>
      match checkError "dasi_wipe_get_value" (dasiWipeGetValue cdata true) with
      | .error x => (.error x, { wipe with cdata := cdata })
      | .ok _ => (.ok (), ⟨cdata, .element⟩)

/-- `Wipe.value`, read through the pointer as the generator stands now. -/
def view (wipe : PyWipe) (_ : Unit) : PyStr :=
  match wipe.value with
  | .null => py "unknown"
  | .element => ffiDecode wipe.cdata.generator.dasiElement

end PyWipe

section Memories

/-- An address keeps its object when more is allocated. -/
theorem getElem?_of_isPrefix {A : Type u} {old new : List A} (grows : old <+: new) {address : Nat}
    {a : A} (h : old[address]? = some a) : new[address]? = some a := by
  obtain ⟨more, rfl⟩ := grows
  exact (List.getElem?_append_left (List.getElem?_eq_some_iff.mp h).1).trans h

/-- Nothing that was allocated has been freed, moved or overwritten. -/
structure Memory.Grows (m m' : Memory) : Prop where
  keys : m.keys <+: m'.keys
  bytearrays : m.bytearrays <+: m'.bytearrays

theorem Memory.Grows.refl (m : Memory) : m.Grows m := ⟨List.prefix_rfl, List.prefix_rfl⟩

theorem Memory.Grows.trans {m₁ m₂ m₃ : Memory} (h : m₁.Grows m₂) (h' : m₂.Grows m₃) :
    m₁.Grows m₃ := ⟨h.keys.trans h'.keys, h.bytearrays.trans h'.bytearrays⟩

theorem Memory.newKey_grows (m : Memory) (key : Option Key) : m.Grows (m.newKey key).2 := by
  cases key with
  | none => exact .refl m
  | some key => exact ⟨List.prefix_append _ _, List.prefix_rfl⟩

theorem Memory.newBytearray_grows (m : Memory) (size : Nat) :
    m.Grows (m.newBytearray size).2 := ⟨List.prefix_rfl, List.prefix_append _ _⟩

/-- A new bytearray, filled from its start. -/
theorem Memory.write_new (m : Memory) (size : Nat) (bytes : Bytes) :
    (m.newBytearray size).2.write (m.newBytearray size).1 bytes =
      { m with bytearrays := m.bytearrays ++ [bytes ++ List.replicate (size - bytes.length) 0] } := by
  simp [newBytearray, write, List.modify_eq_set_getElem?]

theorem Memory.write_new_grows (m : Memory) (size : Nat) (bytes : Bytes) :
    m.Grows ((m.newBytearray size).2.write (m.newBytearray size).1 bytes) := by
  rw [write_new]
  exact ⟨List.prefix_rfl, List.prefix_append _ _⟩

theorem ListItem.read_of_grows {m m' : Memory} (grows : m.Grows m') {item : ListItem}
    {record : ListRecord} (h : item.read m = some record) : item.read m' = some record := by
  simp only [read, Option.bind_eq_bind, Option.bind_eq_some_iff, Option.pure_def] at h ⊢
  obtain ⟨address, haddress, key, hkey, hrecord⟩ := h
  exact ⟨address, haddress, key, getElem?_of_isPrefix grows.keys hkey, hrecord⟩

theorem RetrieveItem.read_of_grows {m m' : Memory} (grows : m.Grows m') {item : RetrieveItem}
    {record : RetrieveRecord} (h : item.read m = some record) : item.read m' = some record := by
  simp only [read, Option.bind_eq_bind, Option.bind_eq_some_iff, Option.pure_def] at h ⊢
  obtain ⟨address, haddress, key, hkey, data, hdata, hrecord⟩ := h
  exact ⟨address, haddress, key, getElem?_of_isPrefix grows.keys hkey, data,
    getElem?_of_isPrefix grows.bytearrays hdata, hrecord⟩

end Memories

end PythonIterators
