import DasiModel.Session
import DasiModel.PythonKey
import DasiModel.StringParsers
import Mathlib.Algebra.BigOperators.Group.List.Basic

/-!
# Archiving from Python

`Dasi.archive` hands a pointer and a length to the C library. The pointer is to
the bytes of the buffer, the length is `len(data)`, which counts along the
first dimension. The key goes through `Key(key)`, and to C as NUL-terminated
strings.
-/

namespace PythonArchive
open Texts Exceptions DasiKey Session PythonKey OrderedMaps StringParsers

/-- A C-contiguous object with the buffer protocol. -/
structure Buffer where
  itemsize : Nat
  shape : List Nat
  bytes : Bytes
  /-- What `len()` says where there are no dimensions: of a `memoryview` it is one before
  Python 3.12, other objects and versions refuse. -/
  scalar : Option Nat
  positive : 1 ≤ itemsize
  whole : bytes.length = itemsize * shape.prod

/-- What the object counts as its length. -/
def Buffer.counted (data : Buffer) : Option Nat :=
  match data.shape with
  | [] => data.scalar
  | n :: _ => some n

/-- `len(data)` -/
def Buffer.len (data : Buffer) : Except PyException Int :=
  match data.counted with
  | some n => .ok n
  | none => .error (.typeError (py "len() of unsized object"))

/-- `Dasi.archive`, with the calls it makes of FDB. -/
def archive (split : Bytes → Bytes → List Bytes) (fdbArchive : Handed → Except Exception Unit)
    (key : KeyArg) (data : Buffer) : Except PyException Unit × List Handed :=
  match init split key with
  | .error x => (.error x, [])
  | .ok ckey =>
    match data.len with
    | .error x => (.error x, [])
    | .ok length =>
      let (result, calls) := dasiArchive (fun x => (.error x, []))
        (fun handed => (fdbArchive handed, [handed])) ckey data.bytes length
      (checkError "dasi_archive" result, calls)

/-- FDB was handed all the bytes, under the pairs of the key. -/
def StoresWhole (split : Bytes → Bytes → List Bytes) (key : KeyArg) (data : Buffer)
    (calls : List Handed) : Prop :=
  ∃ handed keywords, calls = [handed] ∧ pairs split key = some keywords ∧
    handed.key.Perm keywords ∧ handed.data = some data.bytes

/-- The length counts bytes: it does if the items are single bytes and all dimensions but
the first are one, or if the first dimension is zero. -/
def CountsBytes (data : Buffer) : Prop := ∀ n ∈ data.counted, n = data.bytes.length

instance (data : Buffer) : Decidable (CountsBytes data) :=
  inferInstanceAs (Decidable (∀ n ∈ data.counted, n = data.bytes.length))

/-- The length that goes to C is not beyond the bytes. -/
def Covered (data : Buffer) : Prop := ∀ n ∈ data.counted, n ≤ data.bytes.length

/-- Nothing of the key is lost on its way through C strings. What is neither a `dict` nor a
text nor a `Key` loses all of its pairs. -/
def KeyIntact : KeyArg → Prop
  | .dict items => ∀ encoded, items.mapM encodePair = .ok encoded → DictIntact encoded
  | .text key => strip isWhitespace key ≠ [] → ∀ str, encode (.text key) = .ok str →
      NulHarmless str
  | .other items => items = some []
  | _ => True

/-- What a call that returns normally has done. -/
theorem archive_returns {split : Bytes → Bytes → List Bytes}
    {fdbArchive : Handed → Except Exception Unit} {key : KeyArg} {data : Buffer}
    (returns : (archive split fdbArchive key data).1 = .ok ()) :
    ∃ ckey n, init split key = .ok ckey ∧ data.counted = some n ∧
      (archive split fdbArchive key data).2 = [⟨ckey.items, readRegion data.bytes n⟩] := by
  cases hkey : init split key with
  | error x =>
    simp only [archive, hkey] at returns
    cases returns
  | ok ckey =>
    cases hcounted : data.counted with
    | none =>
      simp only [archive, hkey, Buffer.len, hcounted] at returns
      cases returns
    | some n =>
      refine ⟨ckey, n, rfl, rfl, ?_⟩
      have nonnegative : (0 : Int) ≤ (n : Int) := Int.natCast_nonneg n
      simp only [archive, hkey, Buffer.len, hcounted, dasiArchive, assert, nonnegative,
        decide_true, if_true, Session.archive, Int.toNat_natCast]

section Keys
variable {split : Bytes → Bytes → List Bytes} {ckey : Key}

/-- A dictionary makes a key of its pairs if they are intact. -/
theorem dict_pairs_iff {items : List (PyObject × PyObject)}
    (made : init split (.dict items) = .ok ckey) :
    (∃ keywords, pairs split (.dict items) = some keywords ∧ ckey.items.Perm keywords) ↔
      KeyIntact (.dict items) := by
  have inserted : insert Key.new items = .ok ckey := made
  obtain ⟨encoded, hencoded, hvalues⟩ := insert_eq_ok inserted
  have hkeywords : pairs split (.dict items) = some encoded := congrArg Except.toOption hencoded
  have hitems : ckey.items = (OrderedMap.empty.assignAll (encoded.map cPair)).bindings :=
    congrArg OrderedMap.bindings hvalues
  constructor
  · rintro ⟨keywords, hpairs, same⟩ encoded' hencoded'
    rw [hkeywords] at hpairs
    rw [hencoded] at hencoded'
    cases hpairs
    cases hencoded'
    rw [hitems] at same
    exact (assigned_perm_iff_intact encoded).mp same
  · intro intact
    refine ⟨encoded, hkeywords, ?_⟩
    rw [hitems]
    exact (assigned_perm_iff_intact encoded).mpr (intact encoded hencoded)

/-- A text makes a key of its pairs if C sees all that matters of it. -/
theorem text_pairs_iff (cuts : CutsAndDrops split) {key : PyStr}
    (made : init split (.text key) = .ok ckey) :
    (∃ keywords, pairs split (.text key) = some keywords ∧ ckey.items.Perm keywords) ↔
      KeyIntact (.text key) := by
  by_cases blank : strip isWhitespace key = []
  · have hkey : init split (.text key) = .ok Key.new := if_neg (not_not.mpr blank)
    have hkeywords : pairs split (.text key) = some [] := if_neg (not_not.mpr blank)
    rw [hkey] at made
    cases made
    exact ⟨fun _ written => absurd blank written, fun _ => ⟨_, hkeywords, List.Perm.refl _⟩⟩
  · cases hstr : encode (.text key) with
    | error x =>
      rw [init, newKey, if_pos blank, hstr] at made
      cases made
    | ok str =>
      have hparse : Key.ofString split (cString str) = .ok ckey := by
        rw [init, newKey, if_pos blank, hstr] at made
        exact checkError_eq_ok made
      have hkeywords : pairs split (.text key) =
          (Key.ofString split str).toOption.map Key.items := by
        rw [pairs, if_pos blank, hstr]
        rfl
      have harmless := ofString_cString_iff cuts hparse
      constructor
      · rintro ⟨keywords, hpairs, same⟩ - str' hstr'
        cases hstr.symm.trans hstr'
        rw [hkeywords] at hpairs
        apply harmless.mp
        cases hwhole : Key.ofString split str with
        | error x =>
          rw [hwhole] at hpairs
          cases hpairs
        | ok key' =>
          rw [hwhole] at hpairs
          cases hpairs
          rw [Key.eq_of_items_perm same]
      · intro intact
        refine ⟨ckey.items, ?_, List.Perm.refl _⟩
        rw [hkeywords, harmless.mpr (intact blank str hstr)]
        rfl

/-- The key made of anything else is empty, whatever the pairs. -/
theorem other_pairs_iff {items : Option (List (PyObject × PyObject))}
    (made : init split (.other items) = .ok ckey) :
    (∃ keywords, pairs split (.other items) = some keywords ∧ ckey.items.Perm keywords) ↔
      KeyIntact (.other items) := by
  cases made
  constructor
  · rintro ⟨keywords, hpairs, same⟩
    obtain rfl : keywords = [] := List.nil_perm.mp same
    obtain ⟨items, rfl, encoded⟩ := Option.bind_eq_some_iff.mp hpairs
    cases items with
    | nil => rfl
    | cons item rest =>
      rw [List.mapM_cons] at encoded
      cases first : encodePair item with
      | error x =>
        rw [first] at encoded
        cases encoded
      | ok b =>
        rw [first] at encoded
        cases others : rest.mapM encodePair with
        | error x =>
          rw [others] at encoded
          cases encoded
        | ok bs =>
          rw [others] at encoded
          cases encoded
  · rintro rfl
    exact ⟨[], rfl, List.Perm.refl _⟩

/-- The key made from an argument has the pairs of the argument if it is intact. -/
theorem init_pairs_iff (cuts : CutsAndDrops split) {key : KeyArg}
    (made : init split key = .ok ckey) :
    (∃ keywords, pairs split key = some keywords ∧ ckey.items.Perm keywords) ↔
      KeyIntact key := by
  cases key with
  | key key =>
    cases made
    exact ⟨fun _ => trivial, fun _ => ⟨_, rfl, List.Perm.refl _⟩⟩
  | foreign cname => cases made
  | dict items => exact dict_pairs_iff made
  | text key => exact text_pairs_iff cuts made
  | other items => exact other_pairs_iff made

end Keys

/-- The whole buffer is stored under the key's pairs exactly when the length counts bytes and
nothing of the key is lost. -/
theorem storesWhole_iff {split : Bytes → Bytes → List Bytes} (cuts : CutsAndDrops split)
    {fdbArchive : Handed → Except Exception Unit} {key : KeyArg} {data : Buffer}
    (returns : (archive split fdbArchive key data).1 = .ok ()) :
    StoresWhole split key data (archive split fdbArchive key data).2 ↔
      CountsBytes data ∧ KeyIntact key := by
  obtain ⟨ckey, n, made, hcounted, hcalls⟩ := archive_returns returns
  have counts : CountsBytes data ↔ n = data.bytes.length := by
    simp only [CountsBytes, hcounted, Option.mem_def, Option.some.injEq, forall_eq']
  rw [counts, hcalls, ← readRegion_eq_whole_iff, ← init_pairs_iff cuts made]
  constructor
  · rintro ⟨handed, keywords, hhanded, hkeywords, same, hdata⟩
    cases hhanded
    exact ⟨hdata, keywords, hkeywords, same⟩
  · rintro ⟨hdata, keywords, hkeywords, same⟩
    exact ⟨_, keywords, rfl, hkeywords, same, hdata⟩

/-- Two items of four bytes each: an array of 32-bit integers. -/
private def twoIntegers : Buffer :=
  ⟨4, [2], [1, 0, 0, 0, 2, 0, 0, 0], none, by decide, by decide⟩

private def sampleKey : KeyArg := .dict [(.text (py "level"), .text (py "1"))]

theorem storesWhole_iff_sample : CutsAndDrops splitTokens ∧
    (archive splitTokens (fun _ => .ok ()) sampleKey twoIntegers).1 = .ok () ∧
    (StoresWhole splitTokens sampleKey twoIntegers
        (archive splitTokens (fun _ => .ok ()) sampleKey twoIntegers).2 ↔
      CountsBytes twoIntegers ∧ KeyIntact sampleKey) := by
  have cuts : CutsAndDrops splitTokens := fun _ _ => rfl
  have returns : (archive splitTokens (fun _ => .ok ()) sampleKey twoIntegers).1 = .ok () := rfl
  exact ⟨cuts, returns, storesWhole_iff cuts returns⟩

/-- Of the eight bytes FDB is handed the first two. -/
theorem integers_truncated :
    (archive splitTokens (fun _ => .ok ()) sampleKey twoIntegers).1 = .ok () ∧
    (archive splitTokens (fun _ => .ok ()) sampleKey twoIntegers).2 =
      [⟨[(ascii "level", ascii "1")], some [1, 0]⟩] ∧
    ¬ StoresWhole splitTokens sampleKey twoIntegers
      (archive splitTokens (fun _ => .ok ()) sampleKey twoIntegers).2 := by
  refine ⟨rfl, by decide, ?_⟩
  rintro ⟨handed, keywords, hhanded, -, -, hdata⟩
  cases hhanded
  revert hdata
  decide

end PythonArchive
