import DasiModel.DasiKey

/-!
# The Python binding and its `Key`

Every function of the C library is wrapped to raise `DASIException` for an error
code. Texts go to C through `ffi_encode` and are read there up to the first NUL.
-/

namespace PythonKey
open Texts Exceptions DasiKey OrderedMaps

universe u

/-- The Python exceptions told apart. -/
inductive PyException where
  | stopIteration
  | dasiException (message error : PyStr)
  | unicodeEncodeError
  | typeError (message : PyStr)
  | valueError (message : PyStr)
  deriving DecidableEq

/-- `PatchedLib.__check_error`, on the result of the body of a C function; the
bodies themselves return no error code. -/
def checkError {A : Type u} (name : String) : Except Exception A → Except PyException A
  | .ok a => .ok a
  | .error x =>
    let err := ffiDecode x.what
    .error (.dasiException (py "Error in function '" ++ py name ++ py "': " ++ err) err)

theorem checkError_eq_ok {A : Type u} {name : String} {result : Except Exception A} {a : A}
    (h : checkError name result = .ok a) : result = .ok a := by
  cases result with
  | error x => cases h
  | ok b =>
    cases h
    rfl

/-- What `ffi_encode` tells apart: bytes, and anything else through its `str()`. -/
inductive PyObject where
  | bytes (data : Bytes)
  | text (data : PyStr)
  deriving DecidableEq

/-- `ffi_encode`. -/
def encode : PyObject → Except PyException Bytes
  | .bytes data => .ok data
  | .text data =>
    match ffiEncode data with
    | some bytes => .ok bytes
    | none => .error .unicodeEncodeError

/-- What `Key(key)` can be given. -/
inductive KeyArg where
  /-- A `Key`, or a pointer to one. -/
  | key (key : Key)
  /-- A pointer to something else, with its C type. -/
  | foreign (cname : PyStr)
  | text (key : PyStr)
  | dict (items : List (PyObject × PyObject))
  /-- Anything else: the pairs of a mapping that is no `dict`, or no key at all. -/
  | other (items : Option (List (PyObject × PyObject)))

/-- `Key.__setitem__`. -/
def setItem (key : Key) (keyword value : PyObject) : Except PyException Key := do
  let k ← encode keyword
  let v ← encode value
  return key.set (cString k) (cString v)

/-- `Key.insert`. -/
def insert (key : Key) (items : List (PyObject × PyObject)) : Except PyException Key :=
  items.foldlM (fun key item => setItem key item.1 item.2) key

/-- `Key.__getitem__`. -/
def getItem (key : Key) (keyword : PyObject) : Except PyException PyStr := do
  let k ← encode keyword
  let value ← checkError "dasi_key_get" (key.get (cString k))
  return ffiDecode value

/-- `Key.__delitem__`. -/
def delItem (key : Key) (keyword : PyObject) : Except PyException Key := do
  let k ← encode keyword
  return key.erase (cString k)

/-- `Key.has`. -/
def has (key : Key) (keyword : PyObject) : Except PyException Bool := do
  let k ← encode keyword
  return key.has (cString k)

/-- `Key.__len__`. -/
def len (key : Key) : Int := key.size

/-- `Key._compare` with another `Key`. -/
def compare (key other : Key) : Int :=
  if key.lt other then -1 else if other.lt key then 1 else 0

/-- `Key.__eq__` with another `Key`. -/
def eq (key other : Key) : Bool := compare key other == 0

/-- `Key.clear`. -/
def clear (key : Key) : Key := key.clear

/-- `new_key`. -/
def newKey (split : Bytes → Bytes → List Bytes) : KeyArg → Except PyException Key
  | .text key =>
    if strip isWhitespace key ≠ [] then do
      let str ← encode (.text key)
      checkError "dasi_new_key_from_string" (Key.ofString split (cString str))
    else .ok Key.new
  | _ => .ok Key.new

/-- `Key.__init__`. -/
def init (split : Bytes → Bytes → List Bytes) : KeyArg → Except PyException Key
  | .key key => .ok key
  | .foreign cname => .error (.dasiException (py "Type error!") (cname ++ py " != dasi_key_t *"))
  | .dict items => do
    let key ← newKey split (.dict items)
    insert key items
  | .text key => newKey split (.text key)
  | .other items => newKey split (.other items)

/-- A keyword and a value in the bytes of `ffi_encode`. -/
def encodePair (item : PyObject × PyObject) : Except PyException (Bytes × Bytes) := do
  let k ← encode item.1
  let v ← encode item.2
  return (k, v)

/-- The keyword/value pairs that an argument stands for, in the bytes of `ffi_encode`. -/
def pairs (split : Bytes → Bytes → List Bytes) : KeyArg → Option (List (Bytes × Bytes))
  | .key key => some key.items
  | .foreign _ => none
  | .text key =>
    if strip isWhitespace key ≠ [] then
      (encode (.text key)).toOption.bind fun str => (Key.ofString split str).toOption.map Key.items
    else some []
  | .dict items => (items.mapM encodePair).toOption
  | .other items => items.bind fun items => (items.mapM encodePair).toOption

/-- What C sees of a pair of byte strings. -/
def cPair (b : Bytes × Bytes) : Bytes × Bytes := (cString b.1, cString b.2)

theorem setItem_eq_ok {key key' : Key} {item : PyObject × PyObject}
    (h : setItem key item.1 item.2 = .ok key') :
    ∃ b, encodePair item = .ok b ∧ key' = key.set (cString b.1) (cString b.2) := by
  simp only [setItem, encodePair, bind, Except.bind, pure, Except.pure] at h ⊢
  cases hk : encode item.1 with
  | error x =>
    rw [hk] at h
    cases h
  | ok k =>
    cases hv : encode item.2 with
    | error x =>
      rw [hk, hv] at h
      cases h
    | ok v =>
      rw [hk, hv] at h
      cases h
      exact ⟨(k, v), rfl, rfl⟩

/-- Inserting a dictionary assigns the pairs as C sees them, from left to right. -/
theorem insert_eq_ok {items : List (PyObject × PyObject)} {key key' : Key}
    (h : insert key items = .ok key') :
    ∃ encoded, items.mapM encodePair = .ok encoded ∧
      key'.values = key.values.assignAll (encoded.map cPair) := by
  induction items generalizing key with
  | nil =>
    cases h
    exact ⟨[], rfl, rfl⟩
  | cons item rest ih =>
    rw [insert, List.foldlM_cons] at h
    cases hset : setItem key item.1 item.2 with
    | error x =>
      rw [hset] at h
      cases h
    | ok next =>
      rw [hset] at h
      obtain ⟨b, hb, rfl⟩ := setItem_eq_ok hset
      obtain ⟨encoded, hencoded, hvalues⟩ := ih h
      refine ⟨b :: encoded, ?_, hvalues⟩
      rw [List.mapM_cons, hb, hencoded]
      rfl

/-- The pairs of a dictionary survive as they are: C sees all of them, and no two
keywords become one. -/
def DictIntact (encoded : List (Bytes × Bytes)) : Prop :=
  (∀ b ∈ encoded, (0 : Byte) ∉ b.1 ∧ (0 : Byte) ∉ b.2) ∧ (encoded.map Prod.fst).Nodup

theorem cPair_eq_self_iff (b : Bytes × Bytes) :
    cPair b = b ↔ (0 : Byte) ∉ b.1 ∧ (0 : Byte) ∉ b.2 := by
  rw [← cString_eq_self_iff, ← cString_eq_self_iff, cPair, Prod.ext_iff]

/-- A key built from pairs holds just these pairs exactly if they are intact. -/
theorem assigned_perm_iff_intact (encoded : List (Bytes × Bytes)) :
    (OrderedMap.empty.assignAll (encoded.map cPair)).bindings.Perm encoded ↔
      DictIntact encoded := by
  constructor
  · intro same
    refine ⟨?_, ?_⟩
    · intro b hb
      rcases OrderedMap.mem_assignAll _ (same.mem_iff.mpr hb) with old | cut
      · cases old
      · obtain ⟨c, -, rfl⟩ := List.mem_map.mp cut
        exact ⟨zero_not_mem_cString c.1, zero_not_mem_cString c.2⟩
    · have nodup := OrderedMap.keys_nodup (OrderedMap.empty.assignAll (encoded.map cPair))
      exact (same.map Prod.fst).nodup_iff.mp nodup
  · rintro ⟨whole, nodup⟩
    have unchanged : encoded.map cPair = encoded :=
      (List.map_congr_left fun b hb => (cPair_eq_self_iff b).mpr (whole b hb)).trans
        (List.map_id encoded)
    rw [unchanged]
    exact OrderedMap.assignAll_empty_perm nodup

end PythonKey
