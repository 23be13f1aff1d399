import DasiModel.ObjectLifetimes
import DasiModel.PythonArchive
import DasiModel.PythonIterators

/-!
# The Python bindings over the C API

A Python object of the bindings holds a pointer to a C object, and `ffi.gc` ties
the function that frees it to that pointer. Bodies of methods are sequences of C
calls; a call that answers with an error code raises `DASIException`. A program
has variables, and the collector may free what none of them leads to, whenever
it likes.
-/

namespace PythonHeap
open Texts Exceptions DasiKey CHandles CApi ObjectLifetimes
open PythonKey (PyObject)
open PythonIterators (ListItem RetrieveItem)
open PythonArchive (Buffer)

variable {N F P D W : Type}

/-- The Python exceptions that leave the bindings. -/
inductive Failure where
  | stopIteration
  /-- `DASIException`, by the C function that answered with an error code. -/
  | dasiException (function : String) (error : PyStr)
  | unicodeEncodeError
  | overflowError
  | typeError
  | valueError
  | nameError
  | attributeError
  | runtimeError
  deriving DecidableEq

inductive Abort where
  | raised (x : Failure)
  | undefined
  deriving DecidableEq

/-- An object of the bindings, by its class and its `_cdata`. -/
structure Reference where
  kind : Kind
  cdata : Ptr
  /-- The cell `Wipe.__value`; null in the other classes. -/
  value : Ptr

/-- What a Python program works on. -/
structure Heap (N F D W : Type) where
  world : World F D W
  /-- The C objects that a destructor is tied to. -/
  owned : List (Kind × Address)
  /-- The next cell that `ffi.new` hands out. -/
  cells : Address
  names : N → Option Reference

abbrev PyBody (N F D W A : Type) := ExceptT Abort (StateM (Heap N F D W)) A

section Bindings
variable {A : Type}

def raise (x : Failure) : PyBody N F D W A := throw (.raised x)

/-- `ffi_encode`. -/
def encoded (object : PyObject) : PyBody N F D W Bytes :=
  match PythonKey.encode object with
  | .ok bytes => pure bytes
  | .error _ => raise .unicodeEncodeError

def encodedAll : List PyObject → PyBody N F D W (List Bytes)
  | [] => return []
  | object :: rest => do
    let bytes ← encoded object
    return bytes :: (← encodedAll rest)

/-- A new cell, filled as `ffi.new` was told. -/
def newCell (fill : Address → World F D W → World F D W) : PyBody N F D W Address := do
  let p := (← get).cells
  modify fun h => { h with cells := p + 1, world := fill p h.world }
  return p

/-- `ffi.new("dasi_x_t **", ffi.NULL)` -/
def newHandle : PyBody N F D W Address :=
  newCell fun p w => { w with handles := Function.update w.handles p none }

/-- `ffi.new("const char **", ffi.NULL)` -/
def newText : PyBody N F D W Address :=
  newCell fun p w => { w with texts := Function.update w.texts p none }

/-- `ffi.new("long *", value)`, and the same for `int` and `dasi_time_t`. -/
def newNumber (value : Int) : PyBody N F D W Address :=
  newCell fun p w => { w with numbers := Function.update w.numbers p value }

/-- The bytes of a new bytearray. -/
def newBuffer (bytes : Bytes) : PyBody N F D W Address :=
  newCell fun p w => { w with buffers := Function.update w.buffers p bytes }

def number (p : Address) : PyBody N F D W Int := return (← get).world.numbers p

/-- `ffi_decode(p[0])`; `ffi.string` refuses null. -/
def text (p : Address) : PyBody N F D W PyStr := do
  match (← get).world.texts p with
  | some bytes => return ffiDecode bytes
  | none => raise .runtimeError

/-- `ffi_decode(p[0]) if p[0] != ffi.NULL else "unknown"` -/
def textOrUnknown (p : Address) : PyBody N F D W PyStr := do
  match (← get).world.texts p with
  | some bytes => return ffiDecode bytes
  | none => return py "unknown"

/-- `wrapped_fn` of `PatchedLib.__check_error`. -/
def call (env : Environment F P D W) (function : String) (c : Call) : PyBody N F D W Code :=
  fun h => match runCall env c h.world with
    | (.returned code, w) =>
      if code.isError then
        let err := ffiDecode w.errorString
        (.error (.raised (.dasiException function err)), { h with world := w })
      else (.ok code, { h with world := w })
    | (_, w) => (.error .undefined, { h with world := w })

/-- The same, where the code does not matter. -/
def perform (env : Environment F P D W) (function : String) (c : Call) : PyBody N F D W Unit := do
  let _ ← call env function c
  return ()

/-- `ffi.gc(cell[0], lib.dasi_free_x)` -/
def gc (kind : Kind) (cell : Address) : PyBody N F D W Ptr := do
  let p := (← get).world.handles cell
  modify fun h => { h with owned := (p.map (Prod.mk kind)).toList ++ h.owned }
  return p

/-- The object that a variable leads to. -/
def reference (name : N) : PyBody N F D W Reference := do
  match (← get).names name with
  | some r => return r
  | none => raise .nameError

/-- An integer for a parameter of type `int`. -/
@[irreducible] def cInt (n : Int) : PyBody N F D W Int :=
  if -2 ^ 31 ≤ n ∧ n < 2 ^ 31 then pure n else raise .overflowError

/-- `name.method(..)`, where only objects of one class have the method. -/
def receiver (kind : Kind) (name : N) : PyBody N F D W Ptr := do
  let r ← reference name
  if r.kind = kind then return r.cdata else raise .attributeError

end Bindings

/-- What `Key(key)` can be given. -/
inductive KeyInit (N : Type) where
  | object (name : N)
  | text (key : PyStr)
  | dict (items : List (PyObject × PyObject))
  | other

/-- What `Query(query)` can be given. -/
inductive QueryInit (N : Type) where
  | object (name : N)
  | text (query : PyStr)
  | dict (items : List (PyObject × List PyObject))
  | other

/-- The methods of `Key`; `compare` is what `==` and `!=` call. -/
inductive KeyMethod (N : Type) where
  | setItem (keyword value : PyObject)
  | getItem (keyword : PyObject)
  | delItem (keyword : PyObject)
  | len
  | repr
  | compare (other : N)
  | insert (keys : List (PyObject × PyObject))
  | has (keyword : PyObject)
  | clear

inductive QueryMethod where
  | setItem (keyword : PyObject) (value : List PyObject)
  | getItem (keyword : PyObject)
  | delItem (keyword : PyObject)
  | len
  | insert (query : List (PyObject × List PyObject))
  | append (keyword value : PyObject)
  | getValue (keyword : PyObject) (number : Int)
  | has (keyword : PyObject)
  | countValue (keyword : PyObject)
  | clear

/-- What an expression evaluates to. -/
inductive Answer where
  | nothing
  | text (t : PyStr)
  | number (n : Int)
  | flag (b : Bool)
  | listed (item : ListItem)
  | retrieved (item : RetrieveItem)

section Keys
variable (env : Environment F P D W)

/-- The `if` of `new_key`. -/
def makeKey (ckey : Address) : Option PyStr → PyBody N F D W Unit
  | some key =>
    if strip isWhitespace key ≠ [] then do
      let str ← encoded (.text key)
      perform env "dasi_new_key_from_string" (.newKeyFromString (some ckey) (some str))
    else perform env "dasi_new_key" (.newKey (some ckey))
  | none => perform env "dasi_new_key" (.newKey (some ckey))

/-- `new_key` -/
def newKey (key : Option PyStr) : PyBody N F D W Ptr := do
  let ckey ← newHandle
  makeKey env ckey key
  gc .key ckey

/-- `Key.__setitem__` -/
def keySetItem (key : Ptr) (keyword value : PyObject) : PyBody N F D W Unit := do
  let k ← encoded keyword
  let v ← encoded value
  perform env "dasi_key_set" (.keySet key (some k) (some v))

/-- `Key.insert` -/
def keyInsert (key : Ptr) : List (PyObject × PyObject) → PyBody N F D W Unit
  | [] => return ()
  | (keyword, value) :: rest => do
    keySetItem env key keyword value
    keyInsert key rest

/-- `Key.__init__`; what has no other meaning makes an empty key. -/
def initKey : KeyInit N → PyBody N F D W Ptr
  | .object name => do
    let r ← reference name
    if r.kind = .key then return r.cdata else newKey env none
  | .text key => newKey env (some key)
  | .dict items => do
    let key ← newKey env none
    keyInsert env key items
    return key
  | .other => newKey env none

/-- `Key.__len__` -/
def keyLen (key : Ptr) : PyBody N F D W Int := do
  let count ← newNumber 0
  perform env "dasi_key_count" (.keyCount key (some count))
  number count

/-- The loop of `Key.__repr__`. -/
def keyRepr (key : Ptr) (keyword value : Address) : List Nat → PyStr → PyBody N F D W PyStr
  | [], out => return out
  | i :: rest, out => do
    let n ← cInt i
    perform env "dasi_key_get_index" (.keyGetIndex key n (some keyword) (some value))
    let k ← text keyword
    let v ← text value
    keyRepr key keyword value rest (out ++ py "<" ++ k ++ py ":" ++ v ++ py ">")

def keyMethod (key : Ptr) : KeyMethod N → PyBody N F D W Answer
  | .setItem keyword value => do
    keySetItem env key keyword value
    return .nothing
  | .getItem keyword => do
    let value ← newText
    let k ← encoded keyword
    perform env "dasi_key_get" (.keyGet key (some k) (some value))
    return .text (← text value)
  | .delItem keyword => do
    let k ← encoded keyword
    perform env "dasi_key_erase" (.keyErase key (some k))
    return .nothing
  | .len => return .number (← keyLen env key)
  | .repr => do
    let keyword ← newText
    let value ← newText
    let n ← keyLen env key
    return .text (← keyRepr env key keyword value (List.range n.toNat) [])
  | .compare other => do
    let r ← reference other
    if r.kind = .key then
      let value ← newNumber 0
      perform env "dasi_key_compare" (.keyCompare key r.cdata (some value))
      return .number (← number value)
    else return .number (-1)
  | .insert keys => do
    keyInsert env key keys
    return .nothing
  | .has keyword => do
    let has ← newNumber 1
    let k ← encoded keyword
    perform env "dasi_key_has" (.keyHas key (some k) (some has))
    return .flag ((← number has) != 0)
  | .clear => do
    perform env "dasi_key_clear" (.keyClear key)
    return .nothing

end Keys

section Queries
variable (env : Environment F P D W)

/-- The `if` of `new_query`. -/
def makeQuery (cquery : Address) : Option PyStr → PyBody N F D W Unit
  | some query => do
    let str ← encoded (.text query)
    perform env "dasi_new_query_from_string" (.newQueryFromString (some cquery) (some str))
  | none => perform env "dasi_new_query" (.newQuery (some cquery))

/-- `new_query` -/
def newQuery (query : Option PyStr) : PyBody N F D W Ptr := do
  let cquery ← newHandle
  makeQuery env cquery query
  gc .query cquery

/-- `Query.__setitem__` -/
def querySetItem (query : Ptr) (keyword : PyObject) (value : List PyObject) :
    PyBody N F D W Unit := do
  let buf ← encodedAll value
  let k ← encoded keyword
  let length ← cInt value.length
  perform env "dasi_query_set" (.querySet query (some k) (some (buf.map some)) length)

/-- `Query.insert` -/
def queryInsert (query : Ptr) : List (PyObject × List PyObject) → PyBody N F D W Unit
  | [] => return ()
  | (keyword, value) :: rest => do
    querySetItem env query keyword value
    queryInsert query rest

/-- `Query.__init__`; what has no other meaning makes an empty query. -/
def initQuery : QueryInit N → PyBody N F D W Ptr
  | .object name => do
    let r ← reference name
    if r.kind = .query then return r.cdata else newQuery env none
  | .text query => newQuery env (some query)
  | .dict items => do
    let query ← newQuery env none
    queryInsert env query items
    return query
  | .other => newQuery env none

/-- `Query.get_value` -/
def queryGetValue (query : Ptr) (keyword : PyObject) (n : Int) : PyBody N F D W Answer := do
  let value ← newText
  let k ← encoded keyword
  let number ← cInt n
  perform env "dasi_query_get" (.queryGet query (some k) number (some value))
  return .text (← text value)

/-- `except DASIException: return 0` -/
def zeroOnDasiException (body : PyBody N F D W Int) : PyBody N F D W Int := fun h =>
  match body.run h with
  | (.error (.raised (.dasiException _ _)), h) => (.ok 0, h)
  | out => out

def queryMethod (query : Ptr) : QueryMethod → PyBody N F D W Answer
  | .setItem keyword value => do
    querySetItem env query keyword value
    return .nothing
  | .getItem keyword => queryGetValue env query keyword 0
  | .delItem keyword => do
    let k ← encoded keyword
    perform env "dasi_query_erase" (.queryErase query (some k))
    return .nothing
  | .len => do
    let count ← newNumber 0
    perform env "dasi_query_keyword_count" (.queryKeywordCount query (some count))
    return .number (← number count)
  | .insert items => do
    queryInsert env query items
    return .nothing
  | .append keyword value => do
    let k ← encoded keyword
    let v ← encoded value
    perform env "dasi_query_append" (.queryAppend query (some k) (some v))
    return .nothing
  | .getValue keyword number => queryGetValue env query keyword number
  | .has keyword => do
    let has ← newNumber 1
    let k ← encoded keyword
    perform env "dasi_query_has" (.queryHas query (some k) (some has))
    return .flag ((← number has) != 0)
  | .countValue keyword => do
    let counted ← zeroOnDasiException do
      let count ← newNumber 0
      let k ← encoded keyword
      perform env "dasi_query_value_count" (.queryValueCount query (some k) (some count))
      number count
    return .number counted
  | .clear => do
    perform env "dasi_query_clear" (.queryClear query)
    return .nothing

end Queries

section Sessions
variable (env : Environment F P D W)

/-- `Dasi.__init__` -/
def newDasi (config : PyStr) : PyBody N F D W Ptr := do
  let cdasi ← newHandle
  let str ← encoded (.text config)
  perform env "dasi_open" (.open_ (some cdasi) (some str))
  gc .session cdasi

/-- `Dasi.archive` -/
def archive (dasi : Ptr) (key : KeyInit N) (data : Buffer) : PyBody N F D W Answer := do
  let dbuffer := data.bytes
  let ckey ← initKey env key
  match data.len with
  | .ok length =>
    perform env "dasi_archive" (.archive dasi ckey (some dbuffer) length)
    return .nothing
  | .error _ => raise .typeError

/-- `List.__init__` -/
def newList (dasi : Ptr) (query : QueryInit N) : PyBody N F D W Ptr := do
  let cquery ← initQuery env query
  let clist ← newHandle
  perform env "dasi_list" (.list dasi cquery (some clist))
  gc .list clist

/-- `Retrieve.__init__` -/
def newRetrieve (dasi : Ptr) (query : QueryInit N) : PyBody N F D W Ptr := do
  let cquery ← initQuery env query
  let cret ← newHandle
  perform env "dasi_retrieve" (.retrieve dasi cquery (some cret))
  gc .retrieve cret

/-- `Wipe.__init__`, with the cell of the value. -/
def newWipe (dasi : Ptr) (query : QueryInit N) (doit all : Bool) :
    PyBody N F D W (Ptr × Address) := do
  let cdoit ← newNumber (boolNumber doit)
  let call_ ← newNumber (boolNumber all)
  let value ← newText
  let cquery ← initQuery env query
  let cwipe ← newHandle
  perform env "dasi_wipe"
    (.wipe dasi cquery (some cdoit) (some call_) (some cwipe))
  return (← gc .wipe cwipe, value)

/-- `List.__read` -/
def listRead (list : Ptr) : PyBody N F D W ListItem := do
  let ckey ← newHandle
  let uri ← newText
  let time ← newNumber 0
  let offset ← newNumber 0
  let length ← newNumber 0
  perform env "dasi_list_attrs"
    (.listAttrs list (some ckey) (some time) (some uri) (some offset) (some length))
  let key ← gc .key ckey
  return ⟨key, ← textOrUnknown uri, ← number time, ← number offset, ← number length⟩

/-- `List.__next__` -/
def listNext (list : Ptr) : PyBody N F D W ListItem := do
  let code ← call env "dasi_list_next" (.listNext list)
  if code = .iterationComplete then raise .stopIteration else listRead env list

/-- `bytearray(size)`, filled by the library. -/
def readData (retrieve : Ptr) (length : Address) : PyBody N F D W Address := do
  let size ← number length
  if size < 0 then raise .valueError
  else
    let data ← newBuffer (List.replicate size.toNat 0)
    perform env "dasi_retrieve_read" (.retrieveRead retrieve (some data) (some length))
    return data

/-- `Retrieve.__read`; the key is tied to its destructor when the item is made. -/
def retrieveRead (retrieve : Ptr) : PyBody N F D W RetrieveItem := do
  let ckey ← newHandle
  let time ← newNumber 0
  let offset ← newNumber 0
  let length ← newNumber 0
  perform env "dasi_retrieve_attrs"
    (.retrieveAttrs retrieve (some ckey) (some time) (some offset) (some length))
  let data ← readData env retrieve length
  let key ← gc .key ckey
  return ⟨key, data, ← number time, ← number offset, ← number length⟩

/-- `Retrieve.__next__` -/
def retrieveNext (retrieve : Ptr) : PyBody N F D W RetrieveItem := do
  let code ← call env "dasi_retrieve_next" (.retrieveNext retrieve)
  if code = .iterationComplete then raise .stopIteration else retrieveRead env retrieve

/-- `Wipe.__next__` -/
def wipeNext (wipe value : Ptr) : PyBody N F D W Unit := do
  let code ← call env "dasi_wipe_next" (.wipeNext wipe)
  if code = .iterationComplete then raise .stopIteration
  else perform env "dasi_wipe_get_value" (.wipeGetValue wipe value)

/-- `Retrieve.__len__` -/
def retrieveLen (retrieve : Ptr) : PyBody N F D W Int := do
  let count ← newNumber 0
  perform env "dasi_retrieve_count" (.retrieveCount retrieve (some count))
  number count

end Sessions

/-- Statements of a Python program over the bindings. -/
inductive Statement (N : Type) where
  /-- `name = Dasi(config)` -/
  | dasi (name : N) (config : PyStr)
  /-- `name = Key(key)` -/
  | key (name : N) (key : KeyInit N)
  /-- `name = Query(query)` -/
  | query (name : N) (query : QueryInit N)
  | onKey (name : N) (method : KeyMethod N)
  | onQuery (name : N) (method : QueryMethod)
  | archive (dasi : N) (key : KeyInit N) (data : Buffer)
  | flush (dasi : N)
  /-- `name = dasi.list(query)`, and so for the next two. -/
  | list (name dasi : N) (query : QueryInit N)
  | retrieve (name dasi : N) (query : QueryInit N)
  | wipe (name dasi : N) (query : QueryInit N) (doit all : Bool)
  /-- `item = next(name)`, where `item` stands for the key of what is yielded. -/
  | next (item name : N)
  | len (name : N)
  /-- `wipe.value` -/
  | value (wipe : N)
  /-- `name = other` -/
  | same (name other : N)
  /-- `del name` -/
  | del (name : N)

section Programs
variable [DecidableEq N] (env : Environment F P D W)

def assign (name : N) (r : Reference) : PyBody N F D W Unit :=
  modify fun h => { h with names := Function.update h.names name (some r) }

/-- `next(name)`, by the class of the object. -/
def nextOf (item : N) (r : Reference) : PyBody N F D W Answer :=
  match r.kind with
  | .list => do
    let record ← listNext env r.cdata
    assign item ⟨.key, record.key, none⟩
    return .listed record
  | .retrieve => do
    let record ← retrieveNext env r.cdata
    assign item ⟨.key, record.key, none⟩
    return .retrieved record
  | .wipe => do
    wipeNext env r.cdata r.value
    assign item r
    return .nothing
  | _ => raise .typeError

/-- `len(name)`, by the class; two of them are not implemented. -/
def lenOf (r : Reference) : PyBody N F D W Answer :=
  match r.kind with
  | .key => keyMethod env r.cdata .len
  | .query => queryMethod env r.cdata .len
  | .list => return .number 0
  | .retrieve => do return .number (← retrieveLen env r.cdata)
  | .wipe => return .number 0
  | _ => raise .typeError

def exec : Statement N → PyBody N F D W Answer
  | .dasi name config => do
    assign name ⟨.session, ← newDasi env config, none⟩
    return .nothing
  | .key name key => do
    assign name ⟨.key, ← initKey env key, none⟩
    return .nothing
  | .query name query => do
    assign name ⟨.query, ← initQuery env query, none⟩
    return .nothing
  | .onKey name method => do keyMethod env (← receiver .key name) method
  | .onQuery name method => do queryMethod env (← receiver .query name) method
  | .archive dasi key data => do archive env (← receiver .session dasi) key data
  | .flush dasi => do
    perform env "dasi_flush" (.flush (← receiver .session dasi))
    return .nothing
  | .list name dasi query => do
    assign name ⟨.list, ← newList env (← receiver .session dasi) query, none⟩
    return .nothing
  | .retrieve name dasi query => do
    assign name ⟨.retrieve, ← newRetrieve env (← receiver .session dasi) query, none⟩
    return .nothing
  | .wipe name dasi query doit all => do
    let (cwipe, value) ← newWipe env (← receiver .session dasi) query doit all
    assign name ⟨.wipe, cwipe, some value⟩
    return .nothing
  | .next item name => do nextOf env item (← reference name)
  | .len name => do lenOf env (← reference name)
  | .value wipe => do
    let r ← reference wipe
    match r.kind, r.value with
    | .wipe, some cell => return .text (← textOrUnknown cell)
    | _, _ => raise .attributeError
  | .same name other => do
    assign name (← reference other)
    return .nothing
  | .del name => do
    let _ ← reference name
    modify fun h => { h with names := Function.update h.names name none }
    return .nothing

/-- The destructors tied to the objects. -/
def free (kind : Kind) (p : Ptr) : String × Call :=
  match kind with
  | .session => ("dasi_close", .close p)
  | .key => ("dasi_free_key", .freeKey p)
  | .query => ("dasi_free_query", .freeQuery p)
  | .list => ("dasi_free_list", .freeList p)
  | .retrieve => ("dasi_free_retrieve", .freeRetrieve p)
  | .wipe => ("dasi_free_wipe", .freeWipe p)
  | .purge => ("dasi_free_purge", .freePurge p)

/-- A destructor runs once; its exceptions are printed and dropped. -/
def collect (kind : Kind) (p : Address) : PyBody N F D W Answer := fun h =>
  let (function, c) := free kind (some p)
  match (call env function c).run { h with owned := h.owned.erase (kind, p) } with
  | (.error .undefined, h) => (.error .undefined, h)
  | (_, h) => (.ok .nothing, h)

/-- What happens in a process: a statement of the program, or the collector frees
the C object of a Python object. -/
inductive Event (N : Type) where
  | statement (s : Statement N)
  | collect (kind : Kind) (p : Address)

def step (h : Heap N F D W) : Event N → Except Abort Answer × Heap N F D W
  | .statement s => (exec env s).run h
  | .collect kind p => (collect env kind p).run h

/-- What Python promises of its collector: only what no variable leads to is
freed, and no object twice. -/
def Collectable (h : Heap N F D W) : Event N → Prop
  | .statement _ => True
  | .collect kind p => (kind, p) ∈ h.owned ∧
      ∀ name, ∀ r ∈ h.names name, ¬ (r.kind = kind ∧ r.cdata = some p)

end Programs

end PythonHeap
