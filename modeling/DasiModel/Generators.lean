import DasiModel.DasiKey
import DasiModel.Library.Cursors

/-!
# The generators behind list, retrieve, wipe and purge

An FDB iterator is what it will answer to successive calls of `next(elem)`: an
element, or an exception; after the last answer it returns false. The list,
wipe and purge generators hold one element fetched ahead of its use, the
retrieve result reads the whole stream when it is created.
-/

namespace Generators
open Texts Exceptions DasiKey Cursors

universe u v

abbrev FdbIterator (E : Type u) := List (Event E Exception)

/-- The operations of `dasi::APIGeneratorImpl<T>`. -/
class APIGeneratorImpl (G : Type u) (T : outParam (Type v)) where
  next : G → Except Exception Unit × G
  value : G → T
  done : G → Bool

/-- `dasi::DataLocation`, and the same three fields of an FDB field location.
A URI is used for its `asRawString()` only. -/
structure DataLocation where
  uri : Bytes
  offset : Int
  length : Int
  deriving DecidableEq

instance : Inhabited DataLocation := ⟨⟨[], 0, 0⟩⟩

structure ListElement where
  key : Key
  location : DataLocation
  timestamp : Int
  deriving DecidableEq

/-- A default-constructed element: empty key, default location, time 0. -/
instance : Inhabited ListElement := ⟨⟨Key.new, default, 0⟩⟩

/-- What the generators read of an `fdb5::ListElement`. -/
structure FdbListElement where
  combinedKey : List (Bytes × Bytes)
  timestamp : Int
  location : DataLocation
  deriving DecidableEq

structure FdbWipeElement where
  msg : Bytes
  deriving DecidableEq

/-- The assignments made for one FDB element: the key is rebuilt binding by
binding, time and location are copied. -/
def convert (elem : FdbListElement) : ListElement where
  key := Key.ofCombined elem.combinedKey
  timestamp := elem.timestamp
  location := elem.location

/-- How a generator turns an FDB element into its own. -/
class Assigns (E : Type u) (T : Type v) where
  assign : E → T → T

/-- `dasiElement_ = fdb5Element_.msg()`. -/
instance : Assigns FdbWipeElement Bytes := ⟨fun e _ => e.msg⟩

/-- `dasiElement_ = fdb5Element_`; a purge element is a string. -/
instance : Assigns Bytes Bytes := ⟨fun e _ => e⟩

instance : Assigns FdbListElement ListElement := ⟨fun e _ => convert e⟩

/-- The members of the generators that pull their elements one by one. -/
structure LazyGenerator (E : Type u) (T : Type v) where
  done : Bool
  iter : FdbIterator E
  dasiElement : T

namespace LazyGenerator
variable {E : Type u} {T : Type v} [Assigns E T]

/-- `next()`. An exception of the FDB iterator leaves `done_` and the element alone. -/
def next (g : LazyGenerator E T) : Except Exception Unit × LazyGenerator E T :=
  if g.done then (.ok (), g)
  else match g.iter with
  | .element e :: rest =>
    (.ok (), { g with iter := rest, dasiElement := Assigns.assign e g.dasiElement })
  | .failure x :: rest => (.error x, { g with iter := rest })
  | [] => (.ok (), { g with done := true })

/-- The constructor, which fetches the first element at once. -/
def create [Inhabited T] (iter : FdbIterator E) : Except Exception (LazyGenerator E T) :=
  match next ⟨false, iter, default⟩ with
  | (.ok (), g) => .ok g
  | (.error x, _) => .error x

theorem next_of_done {g : LazyGenerator E T} (h : g.done = true) : g.next = (.ok (), g) := by
  rw [next, if_pos h]

theorem next_of_nil {g : LazyGenerator E T} (h : g.done = false) (hi : g.iter = []) :
    g.next = (.ok (), { g with done := true }) := by
  simp [next, h, hi]

theorem next_of_element {g : LazyGenerator E T} {e : E} {rest : FdbIterator E}
    (h : g.done = false) (hi : g.iter = .element e :: rest) :
    g.next = (.ok (), { g with iter := rest, dasiElement := Assigns.assign e g.dasiElement }) := by
  simp [next, h, hi]

theorem next_of_failure {g : LazyGenerator E T} {x : Exception} {rest : FdbIterator E}
    (h : g.done = false) (hi : g.iter = .failure x :: rest) :
    g.next = (.error x, { g with iter := rest }) := by
  simp [next, h, hi]

instance : APIGeneratorImpl (LazyGenerator E T) T where
  next := next
  value := dasiElement
  done := done

end LazyGenerator

abbrev WipeGeneratorImpl := LazyGenerator FdbWipeElement Bytes

abbrev PurgeGeneratorImpl := LazyGenerator Bytes Bytes

abbrev ListGeneratorImpl := LazyGenerator FdbListElement ListElement

structure RetrieveResultImpl where
  values : List FdbListElement
  iter : Nat
  dasiElement : ListElement
  done : Bool

/-- `while (iter.next(elem)) { values_.push_back(elem); }`. -/
def drain {E : Type u} : FdbIterator E → Except Exception (List E)
  | [] => .ok []
  | .element e :: rest => (drain rest).map (e :: ·)
  | .failure x :: _ => .error x

namespace RetrieveResultImpl

/-- `iter_` is a position in `values_`, and `values_.end()` is their number. -/
def updateResult (r : RetrieveResultImpl) : RetrieveResultImpl :=
  match r.values[r.iter]? with
  | none => { r with done := true }
  | some elem => { r with done := false, dasiElement := convert elem }

def next (r : RetrieveResultImpl) : RetrieveResultImpl :=
  if r.done then r else updateResult { r with iter := r.iter + 1 }

def create (iter : FdbIterator FdbListElement) : Except Exception RetrieveResultImpl :=
  (drain iter).map (fun values => updateResult ⟨values, 0, default, false⟩)

def count (r : RetrieveResultImpl) : Nat := r.values.length

@[simp] theorem updateResult_values (r : RetrieveResultImpl) :
    r.updateResult.values = r.values := by
  rw [updateResult]
  split <;> rfl

@[simp] theorem updateResult_iter (r : RetrieveResultImpl) : r.updateResult.iter = r.iter := by
  rw [updateResult]
  split <;> rfl

@[simp] theorem updateResult_done (r : RetrieveResultImpl) :
    r.updateResult.done = decide (r.values.length ≤ r.iter) := by
  rw [updateResult]
  split
  · rename_i h
    exact (decide_eq_true (List.getElem?_eq_none_iff.mp h)).symm
  · rename_i e h
    have hlt := (List.getElem?_eq_some_iff.mp h).1
    exact (decide_eq_false (Nat.not_le_of_lt hlt)).symm

theorem updateResult_dasiElement {r : RetrieveResultImpl} {e : FdbListElement}
    (h : r.values[r.iter]? = some e) : r.updateResult.dasiElement = convert e := by
  rw [updateResult, h]

instance : APIGeneratorImpl RetrieveResultImpl ListElement where
  next r := (.ok (), r.next)
  value := dasiElement
  done := done

end RetrieveResultImpl

theorem drain_map_element {E : Type u} (values : List E) :
    drain (values.map Event.element) = .ok values := by
  induction values with
  | nil => rfl
  | cons e rest ih => simp only [List.map_cons, drain, ih, Except.map]

/-- A stream is read to its end only if it raises nowhere. -/
theorem drain_eq_ok {E : Type u} {iter : FdbIterator E} {values : List E}
    (h : drain iter = .ok values) : iter = values.map Event.element := by
  induction iter generalizing values with
  | nil =>
    cases h
    rfl
  | cons event rest ih =>
    cases event with
    | failure x => cases h
    | element e =>
      obtain ⟨tail, htail, rfl⟩ := of_map_eq_ok h
      rw [List.map_cons, ← ih htail]

end Generators
