import DasiModel.PythonDictionary
import DasiModel.Library.EncodedMaps
import DasiModel.Library.References

/-!
# A Python `Query` as a dictionary of lists of strings

A query variable refers to a `dasi_query_t`, and `Query(q)` is another reference
to the one that `q` refers to. Programs over such variables are compared with
the same programs over Python dictionaries, where `Query(q)` is `q` itself.
-/

namespace PythonQuery
open Texts Exceptions DasiKey OrderedMaps Machines Escapes References PythonKey
open PythonDictionary (Answer Accepted wire encode_text wire_injOn ffiDecode_wire_eq_iff
  sampleKeywords sampleValues sampleKeywords_accepted sampleValues_accepted)

universe u v w

/-- `Query.__setitem__`: the values are encoded before the keyword. -/
def setItem (query : Query) (keyword : PyObject) (values : List PyObject) :
    Except PyException Query := do
  let vals ← values.mapM encode
  let k ← encode keyword
  return query.set (cString k) (vals.map cString)

/-- `Query.insert`; what was set before an exception stays. -/
def insert (query : Query) : List (PyObject × List PyObject) → Except PyException Unit × Query
  | [] => (.ok (), query)
  | (keyword, values) :: rest =>
    match setItem query keyword values with
    | .error x => (.error x, query)
    | .ok query => insert query rest

/-- `Query.append`. -/
def append (query : Query) (keyword value : PyObject) : Except PyException Query := do
  let k ← encode keyword
  let v ← encode value
  return query.append (cString k) (cString v)

/-- The body of `dasi_query_get`, for arguments that are not null. -/
def valueAt (query : Query) (keyword : Bytes) (num : Int) : Except Exception Bytes := do
  assert (decide (0 ≤ num)) "num >= 0"
  let values ← query.get keyword
  match values[num.toNat]? with
  | some value => return value
  | none => .error (.assertionFailed (ascii "num < values.size()"))

/-- `Query.get_value`. -/
def getValue (query : Query) (keyword : PyObject) (number : Int) : Except PyException PyStr := do
  let k ← encode keyword
  let value ← checkError "dasi_query_get" (valueAt query (cString k) number)
  return ffiDecode value

/-- `Query.__getitem__`. -/
def getItem (query : Query) (keyword : PyObject) : Except PyException PyStr :=
  getValue query keyword 0

/-- `Query.__delitem__`. -/
def delItem (query : Query) (keyword : PyObject) : Except PyException Query := do
  let k ← encode keyword
  return query.erase (cString k)

/-- `Query.has`. -/
def has (query : Query) (keyword : PyObject) : Except PyException Bool := do
  let k ← encode keyword
  return query.has (cString k)

/-- `Query.__len__`. -/
def len (query : Query) : Int := query.size

/-- `Query.count_value`: what the library refuses counts as nothing. -/
def countValue (query : Query) (keyword : PyObject) : Except PyException Int :=
  let counted : Except PyException Int := do
    let k ← encode keyword
    let values ← checkError "dasi_query_value_count" (query.get (cString k))
    return values.length
  match counted with
  | .error (.dasiException _ _) => .ok 0
  | result => result

/-- What `Query(query)` can be given, other than a query or a pointer to one. -/
inductive QueryArg where
  /-- A pointer to something else, with its C type. -/
  | foreign (cname : PyStr)
  | text (query : PyStr)
  | dict (items : List (PyObject × List PyObject))
  | other

/-- `new_query`. -/
def newQuery (split : Bytes → Bytes → List Bytes) : QueryArg → Except PyException Query
  | .text query => do
    let str ← encode (.text query)
    checkError "dasi_new_query_from_string" (Query.ofString split (cString str))
  | _ => .ok Query.new

/-- `Query.__init__`, for what makes a query of its own. -/
def init (split : Bytes → Bytes → List Bytes) : QueryArg → Except PyException Query
  | .foreign cname =>
    .error (.dasiException (py "Type error!") (cname ++ py " != dasi_query_t *"))
  | .dict items =>
    match insert Query.new items with
    | (.error x, _) => .error x
    | (.ok (), query) => .ok query
  | arg => newQuery split arg

/-- As many values as a C `int` counts. -/
abbrev Values := { values : List PyStr // values.length < 2 ^ 31 }

/-- A number that a C `int` holds. -/
abbrev CInt := { n : Int // -2 ^ 31 ≤ n ∧ n < 2 ^ 31 }

/-- The methods of a query, on strings. -/
inductive Method where
  | setItem (keyword : PyStr) (values : Values)
  | delItem (keyword : PyStr)
  | insert (items : List (PyStr × Values))
  | append (keyword value : PyStr)
  | clear
  | has (keyword : PyStr)
  | getItem (keyword : PyStr)
  | getValue (keyword : PyStr) (number : CInt)
  | countValue (keyword : PyStr)
  | len

/-- Statements of a program over query variables. -/
inductive Operation (N : Type u) where
  /-- `name = Query(items)` -/
  | new (name : N) (items : List (PyStr × Values))
  /-- `name = Query(other)` -/
  | same (name other : N)
  | on (name : N) (method : Method)

section Methods

def objects (values : Values) : List PyObject := values.1.map PyObject.text

def itemObjects (items : List (PyStr × Values)) : List (PyObject × List PyObject) :=
  items.map (fun item => (.text item.1, objects item.2))

/-- A method that gives the object a new content. -/
def changed {Q : Type u} (q : Q) : Except PyException Q → Answer × Q
  | .ok q => (.done, q)
  | .error x => (.raised x, q)

/-- A method that only answers. -/
def told {Q : Type u} {A : Type v} (q : Q) (answer : A → Answer) :
    Except PyException A → Answer × Q
  | .ok a => (answer a, q)
  | .error x => (.raised x, q)

def queryMethod (query : Query) : Method → Answer × Query
  | .setItem keyword values => changed query (setItem query (.text keyword) (objects values))
  | .delItem keyword => changed query (delItem query (.text keyword))
  | .insert items =>
    match insert query (itemObjects items) with
    | (result, query) => told query (fun _ => .done) result
  | .append keyword value => changed query (append query (.text keyword) (.text value))
  | .clear => (.done, query.clear)
  | .has keyword => told query .flag (has query (.text keyword))
  | .getItem keyword => told query .text (getItem query (.text keyword))
  | .getValue keyword number => told query .text (getValue query (.text keyword) number.1)
  | .countValue keyword => told query .number (countValue query (.text keyword))
  | .len => (.number (len query), query)

/-- A dictionary from strings to lists of strings. -/
abbrev ListDict := Finmap fun _ : PyStr => List PyStr

def insertAll (d : ListDict) (items : List (PyStr × Values)) : ListDict :=
  items.foldl (fun d item => d.insert item.1 item.2.1) d

/-- `d[keyword][number]`, negative numbers excluded. -/
def entry (d : ListDict) (keyword : PyStr) (number : Int) : Answer :=
  match (d.lookup keyword).bind (fun values => if 0 ≤ number then values[number.toNat]? else none)
  with
  | some value => .text value
  | none => .dasiException

/-- The same methods of a dictionary. -/
def dictMethod (d : ListDict) : Method → Answer × ListDict
  | .setItem keyword values => (.done, d.insert keyword values.1)
  | .delItem keyword => (.done, d.erase keyword)
  | .insert items => (.done, insertAll d items)
  | .append keyword value => (.done, d.insert keyword ((d.lookup keyword).getD [] ++ [value]))
  | .clear => (.done, ∅)
  | .has keyword => (.flag (decide (keyword ∈ d)), d)
  | .getItem keyword => (entry d keyword 0, d)
  | .getValue keyword number => (entry d keyword number.1, d)
  | .countValue keyword => (.number ((d.lookup keyword).getD []).length, d)
  | .len => (.number d.keys.card, d)

/-- The strings that a method is given as keywords and as values. -/
def Method.keywords : Method → List PyStr
  | .setItem keyword _ => [keyword]
  | .delItem keyword => [keyword]
  | .insert items => items.map Prod.fst
  | .append keyword _ => [keyword]
  | .has keyword => [keyword]
  | .getItem keyword => [keyword]
  | .getValue keyword _ => [keyword]
  | .countValue keyword => [keyword]
  | _ => []

def Method.values : Method → List PyStr
  | .setItem _ values => values.1
  | .insert items => items.flatMap (fun item => item.2.1)
  | .append _ value => [value]
  | _ => []

end Methods

section Programs
variable {N : Type u} [DecidableEq N]

def queryStep (split : Bytes → Bytes → List Bytes) (s : Scope N Query) :
    Operation N → Answer × Scope N Query
  | .new name items =>
    match init split (.dict (itemObjects items)) with
    | .ok query => (.done, s.new name query)
    | .error x => (.raised x, s)
  | .same name other =>
    match s.same name other with
    | (found, s) => (found.elim .nameError fun _ => .done, s)
  | .on name method =>
    match s.call name (queryMethod · method) with
    | (answer, s) => (answer.getD .nameError, s)

def dictStep (s : Scope N ListDict) : Operation N → Answer × Scope N ListDict
  | .new name items => (.done, s.new name (insertAll ∅ items))
  | .same name other =>
    match s.same name other with
    | (found, s) => (found.elim .nameError fun _ => .done, s)
  | .on name method =>
    match s.call name (dictMethod · method) with
    | (answer, s) => (answer.getD .nameError, s)

def Operation.keywords : Operation N → List PyStr
  | .new _ items => items.map Prod.fst
  | .same _ _ => []
  | .on _ method => method.keywords

def Operation.values : Operation N → List PyStr
  | .new _ items => items.flatMap (fun item => item.2.1)
  | .same _ _ => []
  | .on _ method => method.values

/-- The strings of an operation are from the given ones. -/
def Operation.From (K V : Set PyStr) (operation : Operation N) : Prop :=
  (∀ t ∈ operation.keywords, t ∈ K) ∧ ∀ v ∈ operation.values, v ∈ V

end Programs

section Representation
variable {K V : Set PyStr} {query : Query} {d : ListDict}

/-- The query holds the dictionary in the bytes that C sees. -/
abbrev Represents (K V : Set PyStr) (query : Query) (d : ListDict) : Prop :=
  Encodes wire (List.map wire) K {values | ∀ v ∈ values, v ∈ V} query.values d

theorem mapM_encode {values : List PyStr} (accepted : ∀ v ∈ values, Accepted v) :
    (values.map PyObject.text).mapM encode =
      .ok (values.map (fun v => (ffiEncode v).getD [])) := by
  induction values with
  | nil => rfl
  | cons v rest ih =>
    obtain ⟨hv, later⟩ := List.forall_mem_cons.mp accepted
    rw [List.map_cons, List.mapM_cons, encode_text hv, ih later]
    rfl

theorem setItem_text {keyword : PyStr} {values : Values} (hk : Accepted keyword)
    (hv : ∀ v ∈ values.1, Accepted v) : setItem query (.text keyword) (objects values) =
      .ok (query.set (wire keyword) (values.1.map wire)) := by
  simp only [setItem, objects, mapM_encode hv, encode_text hk, bind, Except.bind, pure,
    Except.pure, List.map_map]
  rfl

theorem append_text {keyword value : PyStr} (hk : Accepted keyword) (hv : Accepted value) :
    append query (.text keyword) (.text value) =
      .ok (query.append (wire keyword) (wire value)) := by
  simp only [append, encode_text hk, encode_text hv]
  rfl

theorem getValue_text {keyword : PyStr} (hk : Accepted keyword) (number : Int) :
    getValue query (.text keyword) number =
      (checkError "dasi_query_get" (valueAt query (wire keyword) number)).map ffiDecode := by
  simp only [getValue, encode_text hk]
  rfl

theorem represents_set (represents : Represents K V query d) (distinct : Set.InjOn wire K)
    {t : PyStr} {values : List PyStr} (ht : t ∈ K) (hv : ∀ v ∈ values, v ∈ V) :
    Represents K V (query.set (wire t) (values.map wire)) (d.insert t values) :=
  represents.insert distinct ht hv

theorem represents_append (represents : Represents K V query d) (distinct : Set.InjOn wire K)
    {t v : PyStr} (ht : t ∈ K) (hv : v ∈ V) :
    Represents K V (query.append (wire t) (wire v))
      (d.insert t ((d.lookup t).getD [] ++ [v])) := by
  have found := represents.found t ht
  cases hd : d.lookup t with
  | none =>
    rw [hd, Option.map_none] at found
    have appended : query.append (wire t) (wire v) = query.set (wire t) ([v].map wire) := by
      simp only [Query.append, found, List.map_singleton]
    rw [appended]
    exact represents_set represents distinct ht (by simpa using hv)
  | some values =>
    rw [hd, Option.map_some] at found
    have appended : query.append (wire t) (wire v) =
        query.set (wire t) ((values ++ [v]).map wire) := by
      simp only [Query.append, found, List.map_append, List.map_singleton]
      rfl
    rw [appended]
    refine represents_set represents distinct ht ?_
    intro w hw
    rcases List.mem_append.mp hw with old | last
    · exact (represents.within t values hd).2 w old
    · exact List.mem_singleton.mp last ▸ hv

theorem represents_insert (distinct : Set.InjOn wire K) (keywords : ∀ t ∈ K, Accepted t)
    (values : ∀ v ∈ V, Accepted v) {items : List (PyStr × Values)}
    (hk : ∀ item ∈ items, item.1 ∈ K) (hv : ∀ item ∈ items, ∀ v ∈ item.2.1, v ∈ V)
    (represents : Represents K V query d) :
    ∃ query', insert query (itemObjects items) = (.ok (), query') ∧
      Represents K V query' (insertAll d items) := by
  induction items generalizing query d with
  | nil => exact ⟨query, rfl, represents⟩
  | cons item rest ih =>
    obtain ⟨ht, laterK⟩ := List.forall_mem_cons.mp hk
    obtain ⟨hvs, laterV⟩ := List.forall_mem_cons.mp hv
    obtain ⟨query', inserted, represents'⟩ :=
      ih laterK laterV (represents_set represents distinct ht hvs)
    refine ⟨query', ?_, represents'⟩
    have set : setItem query (.text item.1) (objects item.2) = _ :=
      setItem_text (keywords _ ht) (fun v h => values v (hvs v h))
    rw [itemObjects, List.map_cons, insert, set]
    exact inserted

/-- The value at an index, asked of the library and of the dictionary. -/
theorem told_getValue (represents : Represents K V query d) (accepted : ∀ v ∈ V, Accepted v)
    (plain : ∀ v ∈ V, Plain v) {t : PyStr} (ht : t ∈ K) (hk : Accepted t) (number : Int) :
    told query Answer.text (getValue query (.text t) number) = (entry d t number, query) := by
  have found := represents.found t ht
  rw [getValue_text hk]
  by_cases negative : 0 ≤ number
  · cases hd : d.lookup t with
    | none =>
      rw [hd, Option.map_none] at found
      simp only [entry, hd, valueAt, Query.get, found, negative, assert, decide_true, if_true]
      rfl
    | some values =>
      rw [hd, Option.map_some] at found
      cases hv : values[number.toNat]? with
      | none =>
        simp only [entry, hd, valueAt, Query.get, found, negative, assert, decide_true, if_true,
          bind, Except.bind, Option.bind_some, List.getElem?_map, hv, Option.map_none]
        rfl
      | some v =>
        have inside := (represents.within t values hd).2 v (List.mem_of_getElem? hv)
        have back := (ffiDecode_wire_eq_iff (accepted v inside)).mpr (plain v inside)
        simp only [entry, hd, valueAt, Query.get, found, negative, assert, decide_true, if_true,
          bind, Except.bind, Option.bind_some, List.getElem?_map, hv, Option.map_some]
        simp only [pure, Except.pure, checkError, Except.map, told, back]
  · have refused : entry d t number = .dasiException := by
      simp only [entry, negative, if_false, Option.bind_fun_none]
    simp only [refused, valueAt, negative, assert, decide_false, Bool.false_eq_true, if_false]
    rfl

theorem told_countValue (represents : Represents K V query d) {t : PyStr} (ht : t ∈ K)
    (hk : Accepted t) : told query Answer.number (countValue query (.text t)) =
      (.number ((d.lookup t).getD []).length, query) := by
  have found := represents.found t ht
  have counted : ∀ k : Bytes, encode (.text t) = .ok k → cString k = wire t := by
    intro k hk'
    rw [encode_text hk] at hk'
    cases hk'
    rfl
  cases hd : d.lookup t with
  | none =>
    rw [hd, Option.map_none] at found
    simp only [countValue, encode_text hk, bind, Except.bind, counted _ (encode_text hk),
      Query.get, found, checkError]
    rfl
  | some values =>
    rw [hd, Option.map_some] at found
    simp only [countValue, encode_text hk, bind, Except.bind, counted _ (encode_text hk),
      Query.get, found, checkError, pure, Except.pure, told, List.length_map, Option.getD_some]

theorem method_agrees (distinct : Set.InjOn wire K) (keywords : ∀ t ∈ K, Accepted t)
    (values : ∀ v ∈ V, Accepted v) (plain : ∀ v ∈ V, Plain v) {method : Method}
    (fromK : ∀ t ∈ method.keywords, t ∈ K) (fromV : ∀ v ∈ method.values, v ∈ V)
    (represents : Represents K V query d) :
    (queryMethod query method).1 = (dictMethod d method).1 ∧
      Represents K V (queryMethod query method).2 (dictMethod d method).2 := by
  cases method with
  | setItem keyword vals =>
    have ht := fromK keyword List.mem_cons_self
    have set : setItem query (.text keyword) (objects vals) = _ :=
      setItem_text (keywords _ ht) (fun v h => values v (fromV v h))
    simp only [queryMethod, set]
    exact ⟨rfl, represents_set represents distinct ht fromV⟩
  | delItem keyword =>
    have ht := fromK keyword List.mem_cons_self
    simp only [queryMethod, delItem, encode_text (keywords _ ht)]
    exact ⟨rfl, represents.erase distinct ht⟩
  | insert items =>
    obtain ⟨query', inserted, represents'⟩ := represents_insert distinct keywords values
      (fun item h => fromK _ (List.mem_map_of_mem h))
      (fun item h v hv => fromV v (List.mem_flatMap.mpr ⟨item, h, hv⟩)) represents
    simp only [queryMethod, inserted]
    exact ⟨rfl, represents'⟩
  | append keyword value =>
    have ht := fromK keyword List.mem_cons_self
    have hv := fromV value List.mem_cons_self
    simp only [queryMethod, append_text (keywords _ ht) (values _ hv)]
    exact ⟨rfl, represents_append represents distinct ht hv⟩
  | clear => exact ⟨rfl, .empty⟩
  | has keyword =>
    have ht := fromK keyword List.mem_cons_self
    simp only [queryMethod, has, encode_text (keywords _ ht)]
    exact ⟨congrArg Answer.flag (represents.isSome_find ht), represents⟩
  | getItem keyword =>
    have ht := fromK keyword List.mem_cons_self
    simp only [queryMethod, getItem, told_getValue represents values plain ht (keywords _ ht)]
    exact ⟨rfl, represents⟩
  | getValue keyword number =>
    have ht := fromK keyword List.mem_cons_self
    simp only [queryMethod, told_getValue represents values plain ht (keywords _ ht)]
    exact ⟨rfl, represents⟩
  | countValue keyword =>
    have ht := fromK keyword List.mem_cons_self
    simp only [queryMethod, told_countValue represents ht (keywords _ ht)]
    exact ⟨rfl, represents⟩
  | len =>
    exact ⟨congrArg (fun n : Nat => Answer.number n) (represents.size_eq distinct), represents⟩

end Representation

section Runs
variable {N : Type u} [DecidableEq N] {K V : Set PyStr}

theorem step_agrees (split : Bytes → Bytes → List Bytes) (distinct : Set.InjOn wire K)
    (keywords : ∀ t ∈ K, Accepted t) (values : ∀ v ∈ V, Accepted v) (plain : ∀ v ∈ V, Plain v)
    (s : Scope N Query) (d : Scope N ListDict) (operation : Operation N)
    (given : operation.From K V) (related : Related (Represents K V) s d) :
    (queryStep split s operation).1 = (dictStep d operation).1 ∧
      Related (Represents K V) (queryStep split s operation).2 (dictStep d operation).2 := by
  obtain ⟨fromK, fromV⟩ := given
  cases operation with
  | new name items =>
    have start : Represents K V Query.new ∅ := .empty
    obtain ⟨query, inserted, represents⟩ := represents_insert distinct keywords values
      (fun item h => fromK _ (List.mem_map_of_mem h))
      (fun item h v hv => fromV v (List.mem_flatMap.mpr ⟨item, h, hv⟩)) start
    have made : init split (.dict (itemObjects items)) = .ok query := by
      simp only [init, inserted]
    simp only [queryStep, made]
    exact ⟨rfl, related.new name represents⟩
  | same name other =>
    obtain ⟨found, after⟩ := related.same name other
    exact ⟨congrArg (fun found => found.elim Answer.nameError fun _ => .done) found, after⟩
  | on name method =>
    obtain ⟨answer, after⟩ := related.call name (fun query f represents =>
      method_agrees distinct keywords values plain fromK fromV represents)
    exact ⟨congrArg (fun answer => answer.getD Answer.nameError) answer, after⟩

/-- A keyword appended to and asked for under another name, and a value read. -/
theorem trace_append (split : Bytes → Bytes → List Bytes) (name : N) {t t' v : PyStr}
    (ht : Accepted t) (ht' : Accepted t') (hv : Accepted v) :
    trace (queryStep split) Scope.start
      [.new name [], .on name (.append t v), .on name (.has t'), .on name (.getItem t)] =
      [(.new name [], .done), (.on name (.append t v), .done),
        (.on name (.has t'), .flag (decide (wire t' = wire t))),
        (.on name (.getItem t), .text (ffiDecode (wire v)))] := by
  have made : init split (.dict (itemObjects [])) = .ok Query.new := rfl
  have appended : Query.new.append (wire t) (wire v) =
      (Query.new.set (wire t) [wire v] : Query) := rfl
  have nothing : Query.new.values = OrderedMap.empty := rfl
  have asked : ∀ query : Query, has query (.text t') = .ok (query.has (wire t')) := by
    intro query
    simp only [has, encode_text ht']
    rfl
  simp only [trace_cons, trace_nil, queryStep, made, Scope.call_new, queryMethod, changed,
    append_text ht hv, appended, asked, told, getItem, getValue_text ht, Option.getD_some,
    valueAt, Query.has, Query.get, Query.set, nothing, OrderedMap.find_insertOrAssign,
    OrderedMap.find_empty, if_true]
  by_cases same : wire t' = wire t
  · simp [same, checkError, Except.map, assert, bind, Except.bind, pure, Except.pure]
  · simp [same, checkError, Except.map, assert, bind, Except.bind, pure, Except.pure]

theorem trace_dict_append (name : N) (t t' v : PyStr) :
    trace dictStep Scope.start
      [.new name [], .on name (.append t v), .on name (.has t'), .on name (.getItem t)] =
      [(.new name [], .done), (.on name (.append t v), .done),
        (.on name (.has t'), .flag (decide (t' = t))), (.on name (.getItem t), .text v)] := by
  simp [trace_cons, dictStep, insertAll, Scope.call_new, dictMethod, entry, Finmap.notMem_empty]

end Runs

/-- Over given keywords and values, programs over query variables answer like programs over
dictionaries of lists exactly if C can tell the keywords apart and every value is plain. -/
theorem programs_refine_dicts_iff {N : Type u} [DecidableEq N] [Inhabited N]
    (split : Bytes → Bytes → List Bytes) {K V : Set PyStr} (keywords : ∀ t ∈ K, Accepted t)
    (values : ∀ v ∈ V, Accepted v) (someKeyword : K.Nonempty) (someValue : V.Nonempty) :
    (∀ program : List (Operation N), (∀ operation ∈ program, operation.From K V) →
      trace (queryStep split) Scope.start program = trace dictStep Scope.start program) ↔
    Set.InjOn wire K ∧ ∀ v ∈ V, Plain v := by
  constructor
  · intro agree
    have answers : ∀ t ∈ K, ∀ t' ∈ K, ∀ v ∈ V,
        decide (wire t' = wire t) = decide (t' = t) ∧ ffiDecode (wire v) = v := by
      intro t ht t' ht' v hv
      have same := agree [.new default [], .on default (.append t v), .on default (.has t'),
        .on default (.getItem t)]
        (by simp [Operation.From, Operation.keywords, Operation.values, Method.keywords,
          Method.values, ht, ht', hv])
      rw [trace_append split default (keywords t ht) (keywords t' ht') (values v hv),
        trace_dict_append] at same
      simpa using same
    obtain ⟨k, hk⟩ := someKeyword
    obtain ⟨v, hv⟩ := someValue
    constructor
    · intro t' ht' t ht alike
      have same := (answers t ht t' ht' v hv).1
      simpa [alike] using same
    · intro v hv
      exact (ffiDecode_wire_eq_iff (values v hv)).mp (answers k hk k hk v hv).2
  · rintro ⟨distinct, plain⟩ program given
    exact trace_eq_of_simulation_on (fun s d operation fromSets related =>
      step_agrees split distinct keywords values plain s d operation fromSets related)
      Related.start given

theorem programs_refine_dicts_iff_sample :
    (∀ program : List (Operation Bool),
        (∀ operation ∈ program, operation.From sampleKeywords sampleValues) →
        trace (queryStep splitTokens) Scope.start program =
          trace dictStep Scope.start program) ↔
      Set.InjOn wire sampleKeywords ∧ ∀ v ∈ sampleValues, Plain v :=
  programs_refine_dicts_iff splitTokens sampleKeywords_accepted sampleValues_accepted
    ⟨py "level", .inl rfl⟩ ⟨py "1", .inl rfl⟩

/-- Two variables for one query, and a keyword that is given a value through each. -/
example : (trace (queryStep splitTokens) (Scope.start : Scope Bool Query)
    [.new true [(py "k", ⟨[py "1"], by decide⟩)], .same false true,
      .on false (.append (py "k") (py "2")), .on true (.countValue (py "k"))]).map Prod.snd =
    [.done, .done, .done, .number 2] := by decide

end PythonQuery
