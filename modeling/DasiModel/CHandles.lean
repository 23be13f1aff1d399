import DasiModel.Generators

/-!
# The iteration handles of the C API

`dasi_wipe_t`, `dasi_purge_t`, `dasi_list_t` and `dasi_retrieve_t` hold a
generator, an iterator that borrows it, and a flag telling that the first
element, fetched when the handle was made, has not been asked for yet. The
functions here are the bodies that `try_catch` runs, for a handle that is not
null; outputs that the caller left null are not produced.
-/

namespace CHandles
open Texts Exceptions DasiKey Generators Machines Cursors

universe u v w x

/-- The members `first`, `generator` and `iterator`; the iterator only borrows
the generator. -/
structure Handle (G : Type u) where
  first : Bool
  generator : G

section Iteration
variable {G : Type u} {T : Type v} [APIGeneratorImpl G T]

/-- The iterator compares equal to the sentinel `end()`. -/
def Handle.atEnd (h : Handle G) : Bool := APIGeneratorImpl.done h.generator

/-- `if (iterator == end()) { return DASI_ITERATION_COMPLETE; } return DASI_SUCCESS;`. -/
def Handle.endCode (h : Handle G) : Code := if h.atEnd then .iterationComplete else .success

/-- The common body of the `dasi_*_next` functions. -/
def Handle.next (h : Handle G) : Except Exception Code × Handle G :=
  if h.first then
    let h := { h with first := false }
    (.ok h.endCode, h)
  else
    match APIGeneratorImpl.next h.generator with
    | (.error x, g) => (.error x, { h with generator := g })
    | (.ok (), g) =>
      let h := { h with generator := g }
      (.ok h.endCode, h)

theorem Handle.next_of_error {g : G} {x : Exception}
    (h : (APIGeneratorImpl.next g).1 = .error x) :
    (Handle.mk false g).next = (.error x, ⟨false, (APIGeneratorImpl.next g).2⟩) := by
  simp only [Handle.next, Bool.false_eq_true, if_false]
  split
  · rename_i y g' heq
    rw [heq] at h ⊢
    cases h
    rfl
  · rename_i g' heq
    rw [heq] at h
    cases h

theorem Handle.next_of_ok {g : G} (h : (APIGeneratorImpl.next g).1 = .ok ()) :
    (Handle.mk false g).next = (.ok (Handle.mk false (APIGeneratorImpl.next g).2).endCode,
      ⟨false, (APIGeneratorImpl.next g).2⟩) := by
  simp only [Handle.next, Bool.false_eq_true, if_false]
  split
  · rename_i y g' heq
    rw [heq] at h
    cases h
  · rename_i g' heq
    rw [heq]

end Iteration

abbrev DasiWipe := Handle WipeGeneratorImpl

abbrev DasiPurge := Handle PurgeGeneratorImpl

structure DasiList extends Handle ListGeneratorImpl where
  uriCache : Bytes

/-- The data handle is kept with the flag telling that its closer is registered. -/
structure DasiRetrieve (D : Type u) extends Handle RetrieveResultImpl where
  dh : Option D
  closer : Bool

/-- The constructors of the handles, applied to what FDB returned. -/
def newDasiWipe (iter : FdbIterator FdbWipeElement) : Except Exception DasiWipe :=
  (LazyGenerator.create iter).map (fun g => ⟨true, g⟩)

def newDasiPurge (iter : FdbIterator Bytes) : Except Exception DasiPurge :=
  (LazyGenerator.create iter).map (fun g => ⟨true, g⟩)

def newDasiList (iter : FdbIterator FdbListElement) : Except Exception DasiList :=
  (LazyGenerator.create iter).map (fun g => ⟨⟨true, g⟩, []⟩)

def newDasiRetrieve {D : Type u} (iter : FdbIterator FdbListElement) :
    Except Exception (DasiRetrieve D) :=
  (RetrieveResultImpl.create iter).map (fun r => ⟨⟨true, r⟩, none, false⟩)

def dasiWipeNext (wipe : DasiWipe) : Except Exception Code × DasiWipe := wipe.next

def dasiPurgeNext (purge : DasiPurge) : Except Exception Code × DasiPurge := purge.next

/-- The cached URI is refreshed when the handle moved to an element. -/
def dasiListNext (list : DasiList) : Except Exception Code × DasiList :=
  match list.toHandle.next with
  | (.ok .success, h) =>
    (.ok .success, ⟨h, h.generator.dasiElement.location.uri⟩)
  | (result, h) => (result, { list with toHandle := h })

def dasiRetrieveNext {D : Type u} (retrieve : DasiRetrieve D) :
    Except Exception Code × DasiRetrieve D :=
  match retrieve.toHandle.next with
  | (result, h) => (result, { retrieve with toHandle := h })

/-- The common body of `dasi_wipe_get_value` and `dasi_purge_get_value`: the
string handed out if the caller asked for it. -/
def Handle.getValue {G : Type u} [APIGeneratorImpl G Bytes] (text : String) (h : Handle G)
    (value : Bool) : Except Exception (Option Bytes) := do
  assert (!h.atEnd) text
  return if value then some (APIGeneratorImpl.value h.generator) else none

def dasiWipeGetValue (wipe : DasiWipe) (value : Bool) : Except Exception (Option Bytes) :=
  wipe.getValue "wipe->iterator != wipe->generator.end()" value

def dasiPurgeGetValue (purge : DasiPurge) (value : Bool) : Except Exception (Option Bytes) :=
  purge.getValue "purge->iterator != purge->generator.end()" value

/-- Which outputs of an `attrs` call are not null. -/
structure Wanted where
  key : Bool
  timestamp : Bool
  uri : Bool
  offset : Bool
  length : Bool
  deriving DecidableEq

def Wanted.all : Wanted := ⟨true, true, true, true, true⟩

/-- The outputs written by an `attrs` call. -/
structure Attrs where
  key : Option Key
  timestamp : Option Int
  uri : Option Bytes
  offset : Option Int
  length : Option Int
  deriving DecidableEq

/-- The outputs of `attrs` for an element and a cached URI. -/
def Attrs.of (wanted : Wanted) (elem : ListElement) (uri : Bytes) : Attrs where
  key := if wanted.key then some elem.key else none
  timestamp := if wanted.timestamp then some elem.timestamp else none
  uri := if wanted.uri then some uri else none
  offset := if wanted.offset then some elem.location.offset else none
  length := if wanted.length then some elem.location.length else none

def dasiListAttrs (list : DasiList) (wanted : Wanted) : Except Exception Attrs := do
  assert (!list.atEnd) "list->iterator != list->generator.end()"
  return Attrs.of wanted list.generator.dasiElement list.uriCache

/-- There is no URI among the outputs of the retrieve handle. -/
def dasiRetrieveAttrs {D : Type u} (retrieve : DasiRetrieve D) (wanted : Wanted) :
    Except Exception Attrs := do
  assert (!retrieve.atEnd) "retrieve->iterator != retrieve->retrieve.end()"
  return Attrs.of { wanted with uri := false } retrieve.generator.dasiElement []

/-- `dasi_list_count`, for arguments that are not null. -/
def dasiListCount (_ : DasiList) : Except Exception Int :=
  .error (.eckit (ascii "dasi_list_count is not implemented yet."))

def dasiRetrieveCount {D : Type u} (retrieve : DasiRetrieve D) : Except Exception Int :=
  .ok retrieve.generator.count

end CHandles
