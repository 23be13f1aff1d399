import DasiModel.PythonRetrieve
import DasiModel.RucioRetrieval
import DasiModel.Library.ResultCursors

/-!
# Swapping the backends of retrieval

Both backends answer `iter`, `next` and `len` on the result of a query. The
result of the FDB backend is a forward cursor, filled when it is made; the one
of the Rucio backend is a rewinding cursor, filled by `iter`. An object is known
by its key or by its name, so what is observed of an item is its position.
-/

namespace Interchange
open Texts DasiKey Generators CHandles Machines Cursors RetrieveReading IterationProtocol PythonKey
open PythonIterators PythonRetrieve RucioRetrieval ResultCursors

universe u v w x y
variable {P : Type u} {D : Type v} {W : Type w} {F : Type x} {V : Type y}

/-- The key under which a retrieved item shows an element. -/
def ownKey (e : FdbListElement) : Key := Key.ofCombined e.combinedKey

section Steps

/-- A call on a `pydasi.Retrieve`; objects are known by their keys. -/
def retrieveStep (io : Eckit P D W) (keys : List Key) (retrieve : PyRetrieve D W) :
    Op → Observation × PyRetrieve D W
  | .iter => (.itself, retrieve)
  | .next =>
    match retrieve.next io with
    | (.ok item, retrieve) =>
      match item.read retrieve.memory with
      | some record => (.yielded (keys.idxOf record.key), retrieve)
      | none => (.raised, retrieve)
    | (.error .stopIteration, retrieve) => (.stopped, retrieve)
    | (.error _, retrieve) => (.raised, retrieve)
  | .len =>
    match retrieve.len with
    | .ok n => (.length n, retrieve)
    | .error _ => (.raised, retrieve)

/-- A call on a `RucioRetrieve`; objects are known by their names. -/
def rucioStep (names : List PyStr) (retrieve : RucioRetrieve F V) :
    Op → Observation × RucioRetrieve F V
  | .iter =>
    match retrieve.iter with
    | (.ok (), retrieve) => (.itself, retrieve)
    | (.error _, retrieve) => (.raised, retrieve)
  | .next =>
    match retrieve.next with
    | (.ok item, retrieve) => (.yielded (names.idxOf item.name), retrieve)
    | (.error .stopIteration, retrieve) => (.stopped, retrieve)
    | (.error _, retrieve) => (.raised, retrieve)
  | .len => (.length retrieve.len, retrieve)

end Steps

/-- Both backends find the same readable objects in one order. -/
structure SameMatches (settings : Settings F V) (entries : List DidEntry)
    (data : FdbListElement → Bytes) (values : List FdbListElement) : Prop where
  listed : settings.clients.listDids settings.scope settings.filters = .ok entries
  readable : List.Forall₂ (fun entry e =>
    settings.download entry.ownName = .ok (data e) ∧ data e ≠ []) entries values
  names : (entries.map DidEntry.ownName).Nodup
  keys : (values.map ownKey).Nodup

theorem idxOf_getElem_map {A : Type u} {B : Type v} [BEq B] [LawfulBEq B] {f : A → B} {l : List A}
    (distinct : (l.map f).Nodup) {k : Nat} {a : A} (h : l[k]? = some a) :
    (l.map f).idxOf (f a) = k := by
  obtain ⟨inside, rfl⟩ := List.getElem?_eq_some_iff.mp h
  have room : k < (l.map f).length := by rwa [List.length_map]
  have own := distinct.idxOf_getElem k room
  rwa [List.getElem_map] at own

section Simulations
variable {io : Eckit P D W} {data : FdbListElement → Bytes} {content : P → Bytes}
  {isOpen : D → Prop} {remaining : D → Bytes} {values : List FdbListElement}
  {settings : Settings F V} {entries : List DidEntry}

/-- The FDB backend's result is a forward cursor. -/
theorem retrieveStep_forward (eckit : ReadsFully io data content isOpen remaining)
    (lengths : TrueLengths data values) (nonempty : ∀ e ∈ values, data e ≠ [])
    (keys : (values.map ownKey).Nodup) {k : Nat} {retrieve : PyRetrieve D W}
    (position : PyRetrieveAt data isOpen remaining values k retrieve) (op : Op) :
    (retrieveStep io (values.map ownKey) retrieve op).1 = (forward values.length k op).1 ∧
    PyRetrieveAt data isOpen remaining values (forward values.length k op).2
      (retrieveStep io (values.map ownKey) retrieve op).2 := by
  cases op with
  | iter => exact ⟨rfl, position⟩
  | len =>
    rw [retrieveStep, len_at position]
    exact ⟨rfl, position⟩
  | next =>
    obtain ⟨moved, yields, stops⟩ := next_at eckit lengths position
    cases answer : retrieve.next io with
    | mk result retrieve' =>
      rw [answer] at moved yields stops
      rcases Nat.lt_or_ge k values.length with room | past
      · have own := List.getElem?_eq_getElem room
        obtain ⟨item, yielded, shows⟩ :=
          (yields _ own).2 (nonempty _ (List.getElem_mem room))
        cases yielded
        have index := idxOf_getElem_map keys own
        have shown : item.read retrieve'.memory = some (retrieved data values[k]) := shows
        simp only [retrieveStep, answer, shown, forward, nextAnswer, if_pos room]
        exact ⟨congrArg _ index, moved⟩
      · cases stops past
        simp only [retrieveStep, answer, forward, nextAnswer, if_neg (Nat.not_lt_of_le past)]
        exact ⟨trivial, moved⟩

/-- A Rucio result after `j` calls of `next` since the last `iter`. -/
def RucioRetrieveAt (settings : Settings F V) (entries : List DidEntry) (j : Option Nat)
    (retrieve : RucioRetrieve F V) : Prop :=
  retrieve.settings = settings ∧ match j with
    | none => retrieve.didList = []
    | some j => retrieve.didList = entries ∧ retrieve.index = min j entries.length

theorem readable_getElem (matching : SameMatches settings entries data values) {j : Nat}
    {entry : DidEntry} (h : entries[j]? = some entry) :
    ∃ bytes, settings.download entry.ownName = .ok bytes := by
  obtain ⟨room, rfl⟩ := List.getElem?_eq_some_iff.mp h
  have room' : j < values.length := matching.readable.length_eq ▸ room
  exact ⟨_, (matching.readable.get room room').1⟩

/-- The Rucio backend's result is a rewinding cursor. -/
theorem rucioStep_rewinding (matching : SameMatches settings entries data values) {j : Option Nat}
    {retrieve : RucioRetrieve F V} (position : RucioRetrieveAt settings entries j retrieve)
    (op : Op) :
    (rucioStep (entries.map DidEntry.ownName) retrieve op).1 =
      (rewinding entries.length j op).1 ∧
    RucioRetrieveAt settings entries (rewinding entries.length j op).2
      (rucioStep (entries.map DidEntry.ownName) retrieve op).2 := by
  obtain ⟨own, state⟩ := position
  cases op with
  | iter =>
    have listed : retrieve.iter = (.ok (), { retrieve with didList := entries, index := 0 }) :=
      retrieve.iter_listed (own ▸ matching.listed)
    rw [rucioStep, listed]
    exact ⟨by cases j <;> rfl, by cases j <;> exact ⟨own, rfl, (Nat.zero_min _).symm⟩⟩
  | len =>
    cases j with
    | none =>
      have none : retrieve.len = 0 := by rw [RucioRetrieve.len, state]; rfl
      exact ⟨congrArg _ none, own, state⟩
    | some j =>
      have all : retrieve.len = entries.length := by rw [RucioRetrieve.len, state.1]
      exact ⟨congrArg _ all, own, state⟩
  | next =>
    cases j with
    | none =>
      have past : retrieve.didList.length ≤ retrieve.index := by
        rw [state]
        exact Nat.zero_le _
      rw [rucioStep, RucioRetrieve.next_over past]
      exact ⟨rfl, own, state⟩
    | some j =>
      obtain ⟨filled, index⟩ := state
      rcases Nat.lt_or_ge j entries.length with room | past
      · rw [Nat.min_eq_left (Nat.le_of_lt room)] at index
        have entry : retrieve.didList[retrieve.index]? = some entries[j] := by
          rw [filled, index]
          exact List.getElem?_eq_getElem room
        obtain ⟨bytes, downloaded⟩ :=
          readable_getElem matching (List.getElem?_eq_getElem room)
        rw [← own] at downloaded
        rw [rucioStep, RucioRetrieve.next_downloaded entry downloaded]
        have position := idxOf_getElem_map matching.names (List.getElem?_eq_getElem room)
        simp only [rewinding, nextAnswer, if_pos room]
        refine ⟨congrArg _ position, own, filled, ?_⟩
        rw [index, Nat.min_eq_left (Nat.succ_le_of_lt room)]
      · rw [Nat.min_eq_right past] at index
        have ended : retrieve.didList.length ≤ retrieve.index := by rw [filled, index]
        rw [rucioStep, RucioRetrieve.next_over ended]
        simp only [rewinding, nextAnswer, if_neg (Nat.not_lt_of_le past)]
        refine ⟨trivial, own, filled, ?_⟩
        rw [index, Nat.min_eq_right (Nat.le_succ_of_le past)]

end Simulations

/-- The backends answer alike exactly if nothing matches, or the calls begin with `iter`
and no `iter` stands between two calls of `next`. -/
theorem interchangeable_iff {io : Eckit P D W} {data : FdbListElement → Bytes}
    {content : P → Bytes} {isOpen : D → Prop} {remaining : D → Bytes}
    (eckit : ReadsFully io data content isOpen remaining) {values : List FdbListElement}
    (lengths : TrueLengths data values) {retrieve : DasiRetrieve D}
    (created : newDasiRetrieve (values.map Event.element) = .ok retrieve)
    {settings : Settings F V} {entries : List DidEntry}
    (matching : SameMatches settings entries data values) (m : Memory) (w : W) (ops : List Op) :
    trace (retrieveStep io (values.map ownKey)) ⟨retrieve, m, w⟩ ops =
        trace (rucioStep (entries.map DidEntry.ownName)) (RucioRetrieve.new settings) ops ↔
      values.length = 0 ∨ (∀ op ∈ ops.head?, op = .iter) ∧ ¬ RewoundAndMoved ops := by
  have nonempty : ∀ e ∈ values, data e ≠ [] := by
    intro e he
    obtain ⟨i, room, rfl⟩ := List.getElem_of_mem he
    exact (matching.readable.get (matching.readable.length_eq ▸ room) room).2
  have left := trace_eq_of_simulation (R := fun r k => PyRetrieveAt data isOpen remaining values k r)
    (fun _ _ op position => retrieveStep_forward eckit lengths nonempty matching.keys position op)
    (pyRetrieveAt_new created m w) ops
  have right := trace_eq_of_simulation (R := fun r j => RucioRetrieveAt settings entries j r)
    (fun _ _ op position => rucioStep_rewinding matching position op)
    (show RucioRetrieveAt settings entries none (RucioRetrieve.new settings) from ⟨rfl, rfl⟩) ops
  rw [left, right, matching.readable.length_eq]
  exact trace_eq_iff values.length ops

section Samples

/-- Two objects, in both backends. -/
def sampleElements : List FdbListElement :=
  [⟨[(ascii "k", ascii "1")], 1, ⟨ascii "abc", 0, 3⟩⟩,
    ⟨[(ascii "k", ascii "2")], 2, ⟨ascii "de", 3, 2⟩⟩]

def sampleEntries : List DidEntry := [⟨some (py "x"), none⟩, ⟨some (py "y"), none⟩]

def sampleSettings : Settings Unit PyStr where
  clients := {
    listDids := fun _ _ => .ok sampleEntries
    temporaryDirectory := fun _ => .ok (py "/tmp/d")
    downloadDids := fun item => .ok ⟨[some (py "DONE")], .nil, fun path =>
      if path ≠ py "/tmp/d/" ++ item.did.drop 10 then none
      else if path = py "/tmp/d/x" then some (.ok (ascii "abc")) else some (.ok (ascii "de")), none⟩
    getMetadata := fun _ _ => .ok [] }
  scope := py "user.root"
  rse := py "MINIORSE"
  protocol := py "s3"
  filters := ()

theorem sameMatches_sample :
    SameMatches sampleSettings sampleEntries (fun e => e.location.uri) sampleElements where
  listed := rfl
  readable := .cons ⟨rfl, by decide⟩ (.cons ⟨rfl, by decide⟩ .nil)
  names := by decide
  keys := by decide

theorem interchangeable_iff_sample : ∃ retrieve : DasiRetrieve (Bool × Bytes),
    newDasiRetrieve (sampleElements.map Event.element) = .ok retrieve ∧
    (trace (retrieveStep (storeEckit id) (sampleElements.map ownKey)) ⟨retrieve, ⟨[], []⟩, ()⟩
        [Op.iter, .len, .next, .next, .next] =
      trace (rucioStep (sampleEntries.map DidEntry.ownName))
        (RucioRetrieve.new sampleSettings) [Op.iter, .len, .next, .next, .next] ↔
      sampleElements.length = 0 ∨
        (∀ op ∈ [Op.iter, .len, .next, .next, .next].head?, op = .iter) ∧
          ¬ RewoundAndMoved [Op.iter, .len, .next, .next, .next]) := by
  have created : newDasiRetrieve (D := Bool × Bytes) (sampleElements.map Event.element) =
      .ok _ := rfl
  exact ⟨_, created, interchangeable_iff storeEckit_fills (by decide) created sameMatches_sample
    ⟨[], []⟩ () _⟩

/-- A fresh result has length 0 and no first object with Rucio; a second `iter` starts over
with Rucio only. -/
theorem backends_differ : ∃ retrieve : DasiRetrieve (Bool × Bytes),
    newDasiRetrieve (sampleElements.map Event.element) = .ok retrieve ∧
    SameMatches sampleSettings sampleEntries (fun e => e.location.uri) sampleElements ∧
    (trace (retrieveStep (storeEckit id) (sampleElements.map ownKey)) ⟨retrieve, ⟨[], []⟩, ()⟩
        [Op.len, .next]).map Prod.snd = [.length 2, .yielded 0] ∧
    (trace (rucioStep [py "x", py "y"]) (RucioRetrieve.new sampleSettings)
        [Op.len, .next]).map Prod.snd = [.length 0, .stopped] ∧
    (trace (retrieveStep (storeEckit id) (sampleElements.map ownKey)) ⟨retrieve, ⟨[], []⟩, ()⟩
        [Op.iter, .next, .iter, .next]).map Prod.snd =
          [.itself, .yielded 0, .itself, .yielded 1] ∧
    (trace (rucioStep [py "x", py "y"]) (RucioRetrieve.new sampleSettings)
        [Op.iter, .next, .iter, .next]).map Prod.snd =
          [.itself, .yielded 0, .itself, .yielded 0] := by
  have created : newDasiRetrieve (D := Bool × Bytes) (sampleElements.map Event.element) =
      .ok _ := rfl
  exact ⟨_, created, sameMatches_sample, rfl, rfl, rfl, rfl⟩

end Samples

end Interchange
