import DasiModel.Exceptions
import DasiModel.Library.OrderedMaps
import Mathlib.Order.Fin.Basic
import Mathlib.Data.Prod.Lex

/-!
# `dasi::Key` and `dasi::Query`

Both wrap a `std::map` keyed by `std::string`, a key with one value and a query
with a list of values for each keyword. Strings are compared byte by byte, so
the maps are ordered maps over byte strings. `split` stands for
`eckit::StringTools::split`, which is not part of this repository.
-/

namespace DasiKey
open Texts Exceptions OrderedMaps

/-- The character that separates the values of a query. -/
def slash : Byte := 0x2F

/-- What `StringTools::split` is documented to do: cut at every delimiter and drop
empty tokens. -/
def splitTokens (delimiters text : Bytes) : List Bytes :=
  (text.splitOnP (· ∈ delimiters)).filter (· ≠ [])

example : splitTokens (ascii ",") (ascii ",a=1,,b=2") = [ascii "a=1", ascii "b=2"] := by decide

structure Key where
  values : OrderedMap Bytes Bytes
  deriving DecidableEq

namespace Key

instance : Inhabited Key := ⟨⟨OrderedMap.empty⟩⟩

/-- `Key()`. -/
def new : Key := ⟨OrderedMap.empty⟩

/-- `Key(std::initializer_list)`: the first of two equal keywords is kept. -/
def ofPairs (pairs : List (Bytes × Bytes)) : Key :=
  ⟨pairs.foldl (fun m b => m.emplace b.1 b.2) OrderedMap.empty⟩

/-- One pass of the loop in `Key(const std::string&)`. -/
def parseItem (split : Bytes → Bytes → List Bytes) (key : Key) (bit : Bytes) :
    Except Exception Key :=
  match split (ascii "=") bit with
  | [keyword, value] =>
    if slash ∈ value then
      .error (.userError (ascii "Query supplied when key required"))
    else .ok ⟨key.values.emplace keyword value⟩
  | _ => .error (.userError (ascii "Invalid key supplied"))

/-- `Key(const std::string& strKey)`. -/
def ofString (split : Bytes → Bytes → List Bytes) (strKey : Bytes) : Except Exception Key :=
  (split (ascii ",") strKey).foldlM (parseItem split) new

def has (key : Key) (name : Bytes) : Bool := (key.values.find name).isSome

def set (key : Key) (k v : Bytes) : Key := ⟨key.values.insertOrAssign k v⟩

def size (key : Key) : Nat := key.values.size

def get (key : Key) (keyword : Bytes) : Except Exception Bytes :=
  match key.values.find keyword with
  | none => .error (.userError (keyword ++ ascii " not found in Key"))
  | some value => .ok value

def erase (key : Key) (k : Bytes) : Key := ⟨key.values.erase k⟩

def clear (_ : Key) : Key := new

/-- The bindings from `begin()` to `end()`. -/
def items (key : Key) : List (Bytes × Bytes) := key.values.bindings

/-- `operator<` of the underlying maps: bindings are compared one after the
other, first by keyword and then by value. -/
def lt (a b : Key) : Bool :=
  decide (a.items.map toLex < b.items.map toLex)

/-- The loops that convert an FDB key binding by binding. -/
def ofCombined (combinedKey : List (Bytes × Bytes)) : Key :=
  combinedKey.foldl (fun key b => key.set b.1 b.2) new

theorem ofCombined_values (combinedKey : List (Bytes × Bytes)) :
    (ofCombined combinedKey).values = OrderedMap.empty.assignAll combinedKey := by
  have general : ∀ key : Key, (combinedKey.foldl (fun key b => key.set b.1 b.2) key).values =
      key.values.assignAll combinedKey := by
    induction combinedKey with
    | nil => intro key; rfl
    | cons b rest ih => intro key; exact ih (key.set b.1 b.2)
  exact general new

/-- The converted key has the bindings of the FDB key, in the order of a map. -/
theorem ofCombined_items_perm {combinedKey : List (Bytes × Bytes)}
    (distinct : (combinedKey.map Prod.fst).Nodup) :
    (ofCombined combinedKey).items.Perm combinedKey := by
  rw [items, ofCombined_values]
  exact OrderedMap.assignAll_empty_perm distinct

/-- A key shows the bindings of an FDB key; of two with one keyword it shows the later one. -/
def HasBindings (combinedKey : List (Bytes × Bytes)) (key : Key) : Prop :=
  ∀ k v, (k, v) ∈ key.items ↔
    ∃ before after, combinedKey = before ++ (k, v) :: after ∧ k ∉ after.map Prod.fst

theorem hasBindings_ofCombined (combinedKey : List (Bytes × Bytes)) :
    HasBindings combinedKey (ofCombined combinedKey) := by
  intro k v
  rw [items, ofCombined_values, ← OrderedMap.find_eq_some_iff, OrderedMap.find_assignAll,
    OrderedMap.find_empty, Option.or_none, lookup_eq_some_iff_first]
  constructor
  · rintro ⟨before, after, whole, fresh⟩
    refine ⟨after.reverse, before.reverse, ?_, by simpa using fresh⟩
    rw [← List.reverse_reverse combinedKey, whole]
    simp
  · rintro ⟨before, after, rfl, fresh⟩
    exact ⟨after.reverse, before.reverse, by simp, by simpa using fresh⟩

theorem HasBindings.unique {combinedKey : List (Bytes × Bytes)} {a b : Key}
    (left : HasBindings combinedKey a) (right : HasBindings combinedKey b) : a = b := by
  obtain ⟨m⟩ := a
  obtain ⟨n⟩ := b
  refine congrArg Key.mk (OrderedMap.ext_find (fun k => Option.ext (fun v => ?_)))
  rw [OrderedMap.find_eq_some_iff, OrderedMap.find_eq_some_iff]
  exact (left k v).trans (right k v).symm

/-- Two FDB keys show the same bindings. -/
def SameBindings (left right : List (Bytes × Bytes)) : Prop :=
  ∀ key, HasBindings left key ↔ HasBindings right key

theorem sameBindings_iff (left right : List (Bytes × Bytes)) :
    SameBindings left right ↔ ofCombined left = ofCombined right := by
  constructor
  · intro same
    exact ((same _).mp (hasBindings_ofCombined left)).unique (hasBindings_ofCombined right)
  · intro same key
    constructor
    · intro own
      rw [own.unique (hasBindings_ofCombined left), same]
      exact hasBindings_ofCombined right
    · intro own
      rw [own.unique (hasBindings_ofCombined right), ← same]
      exact hasBindings_ofCombined left

theorem eq_of_items_perm {a b : Key} (h : a.items.Perm b.items) : a = b := by
  obtain ⟨m⟩ := a
  obtain ⟨n⟩ := b
  exact congrArg Key.mk (OrderedMap.eq_of_perm h)

end Key

structure Query where
  values : OrderedMap Bytes (List Bytes)
  deriving DecidableEq

namespace Query

instance : Inhabited Query := ⟨⟨OrderedMap.empty⟩⟩

def new : Query := ⟨OrderedMap.empty⟩

def ofPairs (pairs : List (Bytes × List Bytes)) : Query :=
  ⟨pairs.foldl (fun m b => m.emplace b.1 b.2) OrderedMap.empty⟩

/-- One pass of the loop in `Query(const std::string&)`. -/
def parseItem (split : Bytes → Bytes → List Bytes) (query : Query) (bit : Bytes) :
    Except Exception Query :=
  match split (ascii "=") bit with
  | [keyword, values] => .ok ⟨query.values.emplace keyword (split (ascii "/") values)⟩
  | _ => .error (.userError (ascii "Invalid key supplied"))

/-- `Query(const std::string& strKey)`. -/
def ofString (split : Bytes → Bytes → List Bytes) (strKey : Bytes) : Except Exception Query :=
  (split (ascii ",") strKey).foldlM (parseItem split) new

def has (query : Query) (name : Bytes) : Bool := (query.values.find name).isSome

def set (query : Query) (k : Bytes) (v : List Bytes) : Query :=
  ⟨query.values.insertOrAssign k v⟩

def append (query : Query) (k v : Bytes) : Query :=
  match query.values.find k with
  | none => query.set k [v]
  | some values => ⟨query.values.insertOrAssign k (values ++ [v])⟩

def get (query : Query) (name : Bytes) : Except Exception (List Bytes) :=
  match query.values.find name with
  | none => .error (.userError (name ++ ascii " not found in Query"))
  | some values => .ok values

def size (query : Query) : Nat := query.values.size

def erase (query : Query) (k : Bytes) : Query := ⟨query.values.erase k⟩

def clear (_ : Query) : Query := new

def items (query : Query) : List (Bytes × List Bytes) := query.values.bindings

end Query

end DasiKey
