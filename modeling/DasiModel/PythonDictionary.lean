import DasiModel.PythonKey
import DasiModel.Escapes
import DasiModel.Library.EncodedMaps
import DasiModel.Library.Machines

/-!
# A Python `Key` as a dictionary of strings

A `Key` stands for a dictionary as long as no two of its keywords are one
keyword to C and every value comes back as it was given. The operations are
those on a number of named keys, so that keys can be compared.
-/

namespace PythonDictionary
open Texts Exceptions DasiKey OrderedMaps Machines Escapes PythonKey

universe u

/-- A dictionary from strings to strings. -/
abbrev Dict := Finmap fun _ : PyStr => PyStr

inductive Operation (N : Type u) where
  /-- `name = Key(items)` -/
  | new (name : N) (items : List (PyStr × PyStr))
  /-- `name[keyword] = value` -/
  | setItem (name : N) (keyword value : PyStr)
  /-- `del name[keyword]` -/
  | delItem (name : N) (keyword : PyStr)
  | insert (name : N) (items : List (PyStr × PyStr))
  | clear (name : N)
  | has (name : N) (keyword : PyStr)
  /-- `name[keyword]` -/
  | getItem (name : N) (keyword : PyStr)
  | len (name : N)
  /-- `name == other` -/
  | eq (name other : N)

inductive Answer where
  | done
  | text (value : PyStr)
  | flag (value : Bool)
  | number (value : Int)
  | dasiException
  | otherException
  | nameError
  deriving DecidableEq

/-- The exceptions an operation can end with. -/
def Answer.raised : PyException → Answer
  | .dasiException _ _ => .dasiException
  | _ => .otherException

section Steps
variable {N : Type u} [DecidableEq N]

def texts (items : List (PyStr × PyStr)) : List (PyObject × PyObject) :=
  items.map (fun item => (.text item.1, .text item.2))

/-- An operation that gives a variable a new content. -/
def assigned {K : Type} (s : N → Option K) (name : N) :
    Except PyException K → Answer × (N → Option K)
  | .ok key => (.done, Function.update s name (some key))
  | .error x => (.raised x, s)

/-- An operation that only answers. -/
def answered {K A : Type} (s : N → Option K) (answer : A → Answer) :
    Except PyException A → Answer × (N → Option K)
  | .ok a => (answer a, s)
  | .error x => (.raised x, s)

/-- The content of a variable. -/
def on {K : Type} (s : N → Option K) (name : N) (use : K → Answer × (N → Option K)) :
    Answer × (N → Option K) :=
  match s name with
  | some key => use key
  | none => (.nameError, s)

/-- The operations on pydasi keys. -/
def keyStep (split : Bytes → Bytes → List Bytes) (s : N → Option Key) :
    Operation N → Answer × (N → Option Key)
  | .new name items => assigned s name (init split (.dict (texts items)))
  | .setItem name keyword value => on s name fun key =>
    assigned s name (setItem key (.text keyword) (.text value))
  | .delItem name keyword => on s name fun key => assigned s name (delItem key (.text keyword))
  | .insert name items => on s name fun key => assigned s name (insert key (texts items))
  | .clear name => on s name fun key => assigned s name (.ok (clear key))
  | .has name keyword => on s name fun key => answered s .flag (has key (.text keyword))
  | .getItem name keyword => on s name fun key => answered s .text (getItem key (.text keyword))
  | .len name => on s name fun key => answered s .number (.ok (len key))
  | .eq name other => on s name fun key => on s other fun key' =>
    answered s .flag (.ok (eq key key'))

def insertAll (d : Dict) (items : List (PyStr × PyStr)) : Dict :=
  items.foldl (fun d item => d.insert item.1 item.2) d

/-- The same operations on dictionaries. -/
def dictStep (s : N → Option Dict) : Operation N → Answer × (N → Option Dict)
  | .new name items => assigned s name (.ok (insertAll ∅ items))
  | .setItem name keyword value => on s name fun d => assigned s name (.ok (d.insert keyword value))
  | .delItem name keyword => on s name fun d => assigned s name (.ok (d.erase keyword))
  | .insert name items => on s name fun d => assigned s name (.ok (insertAll d items))
  | .clear name => on s name fun _ => assigned s name (.ok ∅)
  | .has name keyword => on s name fun d => answered s .flag (.ok (decide (keyword ∈ d)))
  | .getItem name keyword => on s name fun d =>
    match d.lookup keyword with
    | some value => (.text value, s)
    | none => (.dasiException, s)
  | .len name => on s name fun d => answered s .number (.ok (d.keys.card : Int))
  | .eq name other => on s name fun d => on s other fun d' =>
    answered s .flag (.ok (decide (d = d')))

/-- The strings that an operation is given as keywords and as values. -/
def Operation.keywords : Operation N → List PyStr
  | .new _ items => items.map Prod.fst
  | .setItem _ keyword _ => [keyword]
  | .delItem _ keyword => [keyword]
  | .insert _ items => items.map Prod.fst
  | .has _ keyword => [keyword]
  | .getItem _ keyword => [keyword]
  | _ => []

def Operation.values : Operation N → List PyStr
  | .new _ items => items.map Prod.snd
  | .setItem _ _ value => [value]
  | .insert _ items => items.map Prod.snd
  | _ => []

end Steps

/-- The bytes of a string that C sees. -/
def wire (text : PyStr) : Bytes := cString ((ffiEncode text).getD [])

/-- `ffi_encode` takes the string. -/
def Accepted (text : PyStr) : Prop := (ffiEncode text).isSome

section Wire

theorem encode_text {text : PyStr} (accepted : Accepted text) :
    encode (.text text) = .ok ((ffiEncode text).getD []) := by
  obtain ⟨bytes, encoded⟩ := Option.isSome_iff_exists.mp accepted
  simp only [encode, encoded, Option.getD_some]

theorem ffiDecode_wire_eq_iff {text : PyStr} (accepted : Accepted text) :
    ffiDecode (wire text) = text ↔ Plain text := by
  obtain ⟨bytes, encoded⟩ := Option.isSome_iff_exists.mp accepted
  have twice : cString (cString bytes) = cString bytes :=
    (cString_eq_self_iff _).mpr (zero_not_mem_cString bytes)
  rw [← ffiDecode_eq_iff encoded, wire, encoded, Option.getD_some, ffiDecode, twice, ffiDecode]

/-- Plain strings stay apart. -/
theorem wire_injOn {V : Set PyStr} (values : ∀ v ∈ V, Accepted v) (plain : ∀ v ∈ V, Plain v) :
    Set.InjOn wire V := by
  intro v hv v' hv' alike
  have back := (ffiDecode_wire_eq_iff (values v hv)).mpr (plain v hv)
  have back' := (ffiDecode_wire_eq_iff (values v' hv')).mpr (plain v' hv')
  rw [← back, alike, back']

theorem getItem_text {key : Key} {keyword : PyStr} (hk : Accepted keyword) :
    getItem key (.text keyword) =
      (checkError "dasi_key_get" (key.get (wire keyword))).map ffiDecode := by
  simp only [getItem, encode_text hk]
  rfl

theorem setItem_text {key : Key} {keyword value : PyStr} (hk : Accepted keyword)
    (hv : Accepted value) : setItem key (.text keyword) (.text value) =
      .ok (key.set (wire keyword) (wire value)) := by
  simp only [setItem, encode_text hk, encode_text hv]
  rfl

end Wire

section Representation
variable {K V : Set PyStr} {key : Key} {d : Dict}

/-- The key holds the dictionary in the bytes that C sees. -/
abbrev Represents (K V : Set PyStr) (key : Key) (d : Dict) : Prop :=
  Encodes wire wire K V key.values d

theorem Represents.insertAll (distinct : Set.InjOn wire K) (keywords : ∀ t ∈ K, Accepted t)
    (values : ∀ v ∈ V, Accepted v) {items : List (PyStr × PyStr)}
    (given : ∀ item ∈ items, item.1 ∈ K ∧ item.2 ∈ V) (represents : Represents K V key d) :
    ∃ key', PythonKey.insert key (texts items) = .ok key' ∧
      Represents K V key' (PythonDictionary.insertAll d items) := by
  induction items generalizing key d with
  | nil => exact ⟨key, rfl, represents⟩
  | cons item rest ih =>
    obtain ⟨⟨ht, hv⟩, later⟩ := List.forall_mem_cons.mp given
    obtain ⟨key', inserted, represents'⟩ := ih later (represents.insert distinct ht hv)
    refine ⟨key', ?_, represents'⟩
    rw [texts, List.map_cons, PythonKey.insert, List.foldlM_cons,
      setItem_text (keywords _ ht) (values _ hv)]
    exact inserted

/-- `==` on keys, by way of the order that `dasi_key_compare` uses, is equality. -/
theorem eq_iff (key key' : Key) : PythonKey.eq key key' = true ↔ key = key' := by
  simp only [PythonKey.eq, PythonKey.compare, Key.lt, beq_iff_eq]
  constructor
  · intro zero
    by_cases below : key.items.map toLex < key'.items.map toLex
    · simp [below] at zero
    · by_cases above : key'.items.map toLex < key.items.map toLex
      · simp [below, above] at zero
      · have same := (List.map_injective_iff.mpr toLex.injective)
          (le_antisymm (not_lt.mp above) (not_lt.mp below))
        exact Key.eq_of_items_perm (same ▸ List.Perm.refl _)
  · rintro rfl
    simp

/-- Two keys are equal exactly if the dictionaries are, once values come back as they were. -/
theorem Represents.eq (represents : Represents K V key d) {key' : Key} {d' : Dict}
    (represents' : Represents K V key' d') (faithful : Set.InjOn wire V) :
    PythonKey.eq key key' = decide (d = d') := by
  rw [Bool.eq_iff_iff, eq_iff, decide_eq_true_iff, ← represents.codes_eq_iff represents' faithful]
  constructor
  · rintro rfl
    rfl
  · exact congrArg Key.mk

end Representation

section Runs
variable {N : Type u} [DecidableEq N] {K V : Set PyStr}

/-- Each variable holds a key for its dictionary. -/
def AllRepresent (K V : Set PyStr) (s : N → Option Key) (d : N → Option Dict) : Prop :=
  ∀ name, Option.Rel (Represents K V) (s name) (d name)

/-- The strings of an operation are from the given ones. -/
def Operation.From (K V : Set PyStr) (operation : Operation N) : Prop :=
  (∀ t ∈ operation.keywords, t ∈ K) ∧ ∀ v ∈ operation.values, v ∈ V

theorem AllRepresent.update {s : N → Option Key} {d : N → Option Dict}
    (all : AllRepresent K V s d) (name : N) {key : Key} {f : Dict} (one : Represents K V key f) :
    AllRepresent K V (Function.update s name (some key)) (Function.update d name (some f)) := by
  intro other
  by_cases same : other = name
  · subst same
    rw [Function.update_self, Function.update_self]
    exact .some one
  · rw [Function.update_of_ne same, Function.update_of_ne same]
    exact all other

omit [DecidableEq N] in
/-- Both sides look at the same variable, and find what represents what. -/
theorem AllRepresent.on {s : N → Option Key} {d : N → Option Dict} (all : AllRepresent K V s d)
    (name : N) {use : Key → Answer × (N → Option Key)} {use' : Dict → Answer × (N → Option Dict)}
    (agree : ∀ key f, Represents K V key f →
      (use key).1 = (use' f).1 ∧ AllRepresent K V (use key).2 (use' f).2) :
    (on s name use).1 = (on d name use').1 ∧
      AllRepresent K V (on s name use).2 (on d name use').2 := by
  have related := all name
  simp only [PythonDictionary.on]
  cases hs : s name with
  | none =>
    cases hd : d name with
    | none => exact ⟨rfl, all⟩
    | some f =>
      rw [hs, hd] at related
      cases related
  | some key =>
    cases hd : d name with
    | none =>
      rw [hs, hd] at related
      cases related
    | some f =>
      rw [hs, hd] at related
      cases related with
      | some one => exact agree key f one

theorem step_agrees (split : Bytes → Bytes → List Bytes) (distinct : Set.InjOn wire K)
    (keywords : ∀ t ∈ K, Accepted t) (values : ∀ v ∈ V, Accepted v) (plain : ∀ v ∈ V, Plain v)
    (s : N → Option Key) (d : N → Option Dict) (operation : Operation N)
    (given : operation.From K V) (all : AllRepresent K V s d) :
    (keyStep split s operation).1 = (dictStep d operation).1 ∧
      AllRepresent K V (keyStep split s operation).2 (dictStep d operation).2 := by
  have faithful := wire_injOn values plain
  obtain ⟨fromK, fromV⟩ := given
  cases operation with
  | new name items =>
    have pairs : ∀ item ∈ items, item.1 ∈ K ∧ item.2 ∈ V := fun item h =>
      ⟨fromK _ (List.mem_map_of_mem h), fromV _ (List.mem_map_of_mem h)⟩
    obtain ⟨key, inserted, one⟩ :=
      Represents.insertAll distinct keywords values pairs (d := ∅) .empty
    have made : init split (.dict (texts items)) = .ok key := inserted
    simp only [keyStep, made]
    exact ⟨rfl, all.update name one⟩
  | setItem name keyword value =>
    have ht := fromK keyword List.mem_cons_self
    have hv := fromV value List.mem_cons_self
    refine all.on name (fun key f one => ?_)
    simp only [setItem_text (keywords _ ht) (values _ hv)]
    exact ⟨rfl, all.update name (one.insert distinct ht hv)⟩
  | delItem name keyword =>
    have ht := fromK keyword List.mem_cons_self
    refine all.on name (fun key f one => ?_)
    simp only [delItem, encode_text (keywords _ ht)]
    exact ⟨rfl, all.update name (one.erase distinct ht)⟩
  | insert name items =>
    have pairs : ∀ item ∈ items, item.1 ∈ K ∧ item.2 ∈ V := fun item h =>
      ⟨fromK _ (List.mem_map_of_mem h), fromV _ (List.mem_map_of_mem h)⟩
    refine all.on name (fun key f one => ?_)
    obtain ⟨key', inserted, one'⟩ := one.insertAll distinct keywords values pairs
    simp only [inserted]
    exact ⟨rfl, all.update name one'⟩
  | clear name => exact all.on name (fun key f one => ⟨rfl, all.update name .empty⟩)
  | has name keyword =>
    have ht := fromK keyword List.mem_cons_self
    refine all.on name (fun key f one => ?_)
    simp only [has, encode_text (keywords _ ht)]
    exact ⟨congrArg Answer.flag (one.isSome_find ht), all⟩
  | getItem name keyword =>
    have ht := fromK keyword List.mem_cons_self
    refine all.on name (fun key f one => ?_)
    have found := one.found keyword ht
    simp only [getItem_text (keywords _ ht)]
    cases hv : f.lookup keyword with
    | none =>
      rw [hv, Option.map_none] at found
      simp only [Key.get, found]
      exact ⟨rfl, all⟩
    | some v =>
      rw [hv, Option.map_some] at found
      have inside := (one.within keyword v hv).2
      have back := (ffiDecode_wire_eq_iff (values v inside)).mpr (plain v inside)
      simp only [Key.get, found]
      exact ⟨congrArg Answer.text back, all⟩
  | len name =>
    exact all.on name (fun key f one => ⟨congrArg (fun n : Nat => Answer.number n)
      (one.size_eq distinct), all⟩)
  | eq name other =>
    refine all.on name (fun key f one => all.on other (fun key' f' one' => ?_))
    exact ⟨congrArg Answer.flag (one.eq one' faithful), all⟩

/-- A keyword set and asked for under another name, and a value set and read. -/
theorem trace_setItem (split : Bytes → Bytes → List Bytes) (name : N) {t t' v : PyStr}
    (ht : Accepted t) (ht' : Accepted t') (hv : Accepted v) :
    trace (keyStep split) (fun _ => none)
      [.new name [], .setItem name t v, .has name t', .getItem name t] =
      [(.new name [], .done), (.setItem name t v, .done),
        (.has name t', .flag (decide (wire t' = wire t))),
        (.getItem name t, .text (ffiDecode (wire v)))] := by
  have empty : init split (.dict (texts [])) = .ok Key.new := rfl
  have nothing : Key.new.values = OrderedMap.empty := rfl
  have asked : ∀ key : Key, PythonKey.has key (.text t') = .ok (key.has (wire t')) := by
    intro key
    simp only [PythonKey.has, encode_text ht']
    rfl
  simp only [trace_cons, trace_nil, keyStep, empty, assigned, PythonDictionary.on,
    Function.update_self, setItem_text ht hv, asked, getItem_text ht, answered, Key.has, Key.get,
    Key.set, nothing, OrderedMap.find_insertOrAssign, OrderedMap.find_empty, if_true]
  by_cases same : wire t' = wire t
  · simp [same, checkError, Except.map]
  · simp [same, checkError, Except.map]

theorem trace_dict_setItem (name : N) (t t' v : PyStr) :
    trace dictStep (fun _ => none)
      [.new name [], .setItem name t v, .has name t', .getItem name t] =
      [(.new name [], .done), (.setItem name t v, .done),
        (.has name t', .flag (decide (t' = t))), (.getItem name t, .text v)] := by
  simp [trace_cons, dictStep, insertAll, assigned, answered, PythonDictionary.on,
    Finmap.notMem_empty]

end Runs

/-- Over given keywords and values, keys answer like dictionaries exactly if C can
tell the keywords apart and every value is plain. -/
theorem refines_dict_iff {N : Type u} [DecidableEq N] [Inhabited N]
    (split : Bytes → Bytes → List Bytes) {K V : Set PyStr} (keywords : ∀ t ∈ K, Accepted t)
    (values : ∀ v ∈ V, Accepted v) (someKeyword : K.Nonempty) (someValue : V.Nonempty) :
    (∀ history : List (Operation N), (∀ operation ∈ history, operation.From K V) →
      trace (keyStep split) (fun _ => none) history = trace dictStep (fun _ => none) history) ↔
    (∀ t ∈ K, ∀ t' ∈ K, t ≠ t' → wire t ≠ wire t') ∧ ∀ v ∈ V, Plain v := by
  constructor
  · intro agree
    have answers : ∀ t ∈ K, ∀ t' ∈ K, ∀ v ∈ V,
        decide (wire t' = wire t) = decide (t' = t) ∧ ffiDecode (wire v) = v := by
      intro t ht t' ht' v hv
      have same := agree [.new default [], .setItem default t v, .has default t', .getItem default t]
        (by simp [Operation.From, Operation.keywords, Operation.values, ht, ht', hv])
      rw [trace_setItem split default (keywords t ht) (keywords t' ht') (values v hv),
        trace_dict_setItem] at same
      simpa using same
    obtain ⟨k, hk⟩ := someKeyword
    obtain ⟨v, hv⟩ := someValue
    constructor
    · intro t ht t' ht' other alike
      have same := (answers t ht t' ht' v hv).1
      simp [alike, Ne.symm other] at same
    · intro v hv
      exact (ffiDecode_wire_eq_iff (values v hv)).mp (answers k hk k hk v hv).2
  · rintro ⟨distinct, plain⟩ history given
    have injective : Set.InjOn wire K := by
      intro t ht t' ht' alike
      by_contra other
      exact distinct t ht t' ht' other alike
    exact trace_eq_of_simulation_on (fun s d operation fromSets all =>
      step_agrees split injective keywords values plain s d operation fromSets all)
      (fun _ => .none) given

/-- Two keywords, one of them with an umlaut. -/
def sampleKeywords : Set PyStr := {py "level", py "höhe"}

def sampleValues : Set PyStr := {py "1", py "2", py "größe"}

theorem sampleKeywords_accepted : ∀ t ∈ sampleKeywords, Accepted t := by
  rintro t (rfl | rfl) <;> rfl

theorem sampleValues_accepted : ∀ v ∈ sampleValues, Accepted v := by
  rintro v (rfl | rfl | rfl) <;> rfl

theorem refines_dict_iff_sample :
    (∀ history : List (Operation Bool),
        (∀ operation ∈ history, operation.From sampleKeywords sampleValues) →
        trace (keyStep splitTokens) (fun _ => none) history =
          trace dictStep (fun _ => none) history) ↔
      (∀ t ∈ sampleKeywords, ∀ t' ∈ sampleKeywords, t ≠ t' → wire t ≠ wire t') ∧
        ∀ v ∈ sampleValues, Plain v :=
  refines_dict_iff splitTokens sampleKeywords_accepted sampleValues_accepted
    ⟨py "level", .inl rfl⟩ ⟨py "1", .inl rfl⟩

/-- Two keywords that differ behind a NUL are one, and two escaped bytes that spell a
character come back as that character. -/
theorem keywords_merged :
    (Accepted (py "k" ++ [0] ++ py "a") ∧ Accepted (py "k" ++ [0] ++ py "b") ∧
      trace (keyStep splitTokens) (fun _ : Unit => none)
        [.new () [(py "k" ++ [0] ++ py "a", py "1")], .has () (py "k" ++ [0] ++ py "b")] ≠
      trace dictStep (fun _ => none)
        [.new () [(py "k" ++ [0] ++ py "a", py "1")], .has () (py "k" ++ [0] ++ py "b")]) ∧
    (Accepted [0xDCC3, 0xDCA9] ∧
      trace (keyStep splitTokens) (fun _ : Unit => none)
        [.new () [(py "k", [0xDCC3, 0xDCA9])], .getItem () (py "k")] ≠
      trace dictStep (fun _ => none)
        [.new () [(py "k", [0xDCC3, 0xDCA9])], .getItem () (py "k")]) := by
  refine ⟨⟨rfl, rfl, ?_⟩, rfl, ?_⟩
  · intro same
    have answers := congrArg (List.map Prod.snd) same
    revert answers
    decide
  · intro same
    have answers := congrArg (List.map Prod.snd) same
    revert answers
    decide

end PythonDictionary
