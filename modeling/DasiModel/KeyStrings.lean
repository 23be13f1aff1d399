import DasiModel.StringParsers

/-!
# Key strings

A key is read back from any string that lists its bindings, and whatever string is
accepted, the key read from it can be written. The query parser reads the same
keywords and values from a key string, and the two part ways at slashes only.
-/

namespace KeyStrings
open Texts Exceptions DasiKey OrderedMaps SegmentedPaths BindingTexts StringParsers

/-- A keyword and a value of a key string. -/
structure LegalPair (b : Bytes × Bytes) : Prop where
  keyword : Legal comma equals b.1
  value : Legal comma equals b.2
  single : slash ∉ b.2

/-- `k1=v1,...,kn=vn`. -/
def render (pairs : List (Bytes × Bytes)) : Bytes := text comma equals pairs

/-- `set(keyword, value)` for every pair, from left to right. -/
def setAll (pairs : List (Bytes × Bytes)) : Key :=
  pairs.foldl (fun key b => key.set b.1 b.2) Key.new

section RoundTrip
variable {split : Bytes → Bytes → List Bytes} {pairs : List (Bytes × Bytes)}

/-- The string of legal pairs is read as the initialiser list of these pairs. -/
theorem ofString_render (cuts : CutsAndDrops split) (legal : ∀ b ∈ pairs, LegalPair b) :
    Key.ofString split (render pairs) = .ok (Key.ofPairs pairs) := by
  have both : ∀ b ∈ pairs, Legal comma equals b.1 ∧ Legal comma equals b.2 := fun b hb =>
    ⟨(legal b hb).keyword, (legal b hb).value⟩
  rw [key_ofString_iff cuts, itemsOf, render, bindings_text comma_ne_equals both,
    segments_text comma_ne_equals both]
  refine ⟨?_, rfl⟩
  intro piece hpiece
  obtain ⟨b, hb, rfl⟩ := List.mem_map.mp hpiece
  exact ⟨b, binding_item (both b hb).1 (both b hb).2, (legal b hb).single⟩

/-- With distinct keywords the order of the pairs does not matter, nor does the way the
key is built. -/
theorem ofPairs_perm {pairs' : List (Bytes × Bytes)} (perm : pairs'.Perm pairs)
    (distinct : (pairs.map Prod.fst).Nodup) : Key.ofPairs pairs' = Key.ofPairs pairs := by
  have left := OrderedMap.emplaceAll_empty_eq_assignAll perm distinct
  have right := OrderedMap.emplaceAll_empty_eq_assignAll (List.Perm.refl pairs) distinct
  exact congrArg Key.mk (left.trans right.symm)

theorem setAll_perm {pairs' : List (Bytes × Bytes)} (perm : pairs'.Perm pairs)
    (distinct : (pairs.map Prod.fst).Nodup) : setAll pairs' = Key.ofPairs pairs := by
  have distinct' : (pairs'.map Prod.fst).Nodup := (perm.map Prod.fst).nodup_iff.mpr distinct
  have built := OrderedMap.emplaceAll_empty_eq_assignAll perm.symm distinct'
  exact congrArg Key.mk ((Key.ofCombined_values pairs').trans built.symm)

/-- The bindings of a key that was read from a string are legal. -/
theorem legal_of_ofString (cuts : CutsAndDrops split) {s : Bytes} {key : Key}
    (accepted : Key.ofString split s = .ok key) {b : Bytes × Bytes} (hb : b ∈ itemsOf s) :
    LegalPair b := by
  obtain ⟨keyword, value⟩ := legal_of_mem_bindings hb
  obtain ⟨piece, hpiece, read⟩ := List.mem_filterMap.mp hb
  obtain ⟨b', read', single⟩ := ((key_ofString_iff cuts s key).mp accepted).1 piece hpiece
  rw [read] at read'
  cases read'
  exact ⟨keyword, value, single⟩

theorem mem_itemsOf {s : Bytes} {b : Bytes × Bytes} (hb : b ∈ (Key.ofPairs (itemsOf s)).items) :
    b ∈ itemsOf s := by
  rw [Key.items, ← OrderedMap.find_eq_some_iff, key_find_ofPairs] at hb
  exact mem_of_lookup hb

end RoundTrip

/-- Key strings round trip, from the pairs and from the string. -/
theorem keyStrings_roundTrip {split : Bytes → Bytes → List Bytes} (cuts : CutsAndDrops split) :
    (∀ pairs : List (Bytes × Bytes), (pairs.map Prod.fst).Nodup → (∀ b ∈ pairs, LegalPair b) →
      ∀ written assigned : List (Bytes × Bytes), written.Perm pairs → assigned.Perm pairs →
        Key.ofString split (render written) = .ok (Key.ofPairs pairs) ∧
          setAll assigned = Key.ofPairs pairs) ∧
    (∀ s key, Key.ofString split s = .ok key → (∀ b ∈ key.items, LegalPair b) ∧
      ∀ written, written.Perm key.items → Key.ofString split (render written) = .ok key) := by
  constructor
  · intro pairs distinct legal written assigned hwritten hassigned
    have legal' : ∀ b ∈ written, LegalPair b := fun b hb => legal b (hwritten.mem_iff.mp hb)
    refine ⟨?_, setAll_perm hassigned distinct⟩
    rw [ofString_render cuts legal', ofPairs_perm hwritten distinct]
  · intro s key accepted
    have legal : ∀ b ∈ key.items, LegalPair b := by
      intro b hb
      obtain ⟨-, rfl⟩ := (key_ofString_iff cuts s key).mp accepted
      exact legal_of_ofString cuts accepted (mem_itemsOf hb)
    refine ⟨legal, fun written perm => ?_⟩
    rw [ofString_render cuts (fun b hb => legal b (perm.mem_iff.mp hb))]
    exact congrArg (Except.ok ∘ Key.mk) (OrderedMap.emplaceAll_empty_of_perm key.values perm)

private def twoPairs : List (Bytes × Bytes) := [(ascii "b", ascii "2"), (ascii "a/c", ascii "1")]

private theorem twoPairs_legal : ∀ b ∈ twoPairs, LegalPair b := by
  intro b hb
  simp only [twoPairs, List.mem_cons, List.not_mem_nil, or_false] at hb
  rcases hb with rfl | rfl
  · exact ⟨by decide, by decide, by decide⟩
  · exact ⟨by decide, by decide, by decide⟩

theorem keyStrings_roundTrip_sample : CutsAndDrops splitTokens ∧
    Key.ofString splitTokens (ascii "a/c=1,b=2") = .ok (Key.ofPairs twoPairs) ∧
    setAll twoPairs = Key.ofPairs twoPairs ∧
    ∃ key, Key.ofString splitTokens (ascii ",b==2,,a=1=,b=3") = .ok key ∧
      (∀ b ∈ key.items, LegalPair b) ∧ Key.ofString splitTokens (render key.items) = .ok key := by
  have cuts : CutsAndDrops splitTokens := fun _ _ => rfl
  obtain ⟨built, read⟩ := keyStrings_roundTrip cuts
  have accepted : Key.ofString splitTokens (ascii ",b==2,,a=1=,b=3") = .ok _ := rfl
  obtain ⟨legal, back⟩ := read _ _ accepted
  obtain ⟨parsed, assigned⟩ := built twoPairs (by decide) twoPairs_legal twoPairs.reverse twoPairs
    (List.reverse_perm twoPairs) (List.Perm.refl twoPairs)
  exact ⟨cuts, parsed, assigned, _, accepted, legal, back _ (List.Perm.refl _)⟩

section Agreement
variable {split : Bytes → Bytes → List Bytes}

/-- A key string is a query string with one value for each keyword. -/
theorem query_of_key (cuts : CutsAndDrops split) {s : Bytes} {key : Key}
    (accepted : Key.ofString split s = .ok key) : ∃ query, Query.ofString split s = .ok query ∧
      query.items = key.items.map (fun b => (b.1, [b.2])) := by
  obtain ⟨pieces, rfl⟩ := (key_ofString_iff cuts s key).mp accepted
  refine ⟨Query.ofPairs (valueItems s), (query_ofString_iff cuts s _).mpr ⟨?_, rfl⟩, ?_⟩
  · intro piece hpiece
    obtain ⟨b, read, -⟩ := pieces piece hpiece
    exact ⟨b, read⟩
  · have same : (Query.ofPairs (valueItems s)).values =
        (Key.ofPairs (itemsOf s)).values.map (fun v => [v]) := by
      apply OrderedMap.ext_find
      intro k
      rw [query_find_ofPairs, OrderedMap.find_map, key_find_ofPairs, valueItems, lookup_map]
      cases found : lookup k (itemsOf s) with
      | none => rfl
      | some v =>
        obtain ⟨-, value, single⟩ := legal_of_ofString cuts accepted (mem_of_lookup found)
        exact congrArg some (segments_single value.nonempty single)
    exact congrArg OrderedMap.bindings same

/-- What a query string has that no key string may have. -/
theorem slash_of_key_error (cuts : CutsAndDrops split) {s : Bytes} {query : Query} {x : Exception}
    (accepted : Query.ofString split s = .ok query) (refused : Key.ofString split s = .error x) :
    ∃ b ∈ itemsOf s, slash ∈ b.2 := by
  obtain ⟨lists, -⟩ := (query_ofString_iff cuts s query).mp accepted
  by_contra none
  push Not at none
  have pieces : ∀ piece ∈ segments comma s, ∃ b, binding equals piece = some b ∧ slash ∉ b.2 := by
    intro piece hpiece
    obtain ⟨b, read⟩ := lists piece hpiece
    exact ⟨b, read, none b (List.mem_filterMap.mpr ⟨piece, hpiece, read⟩)⟩
  rw [(key_ofString_iff cuts s _).mpr ⟨pieces, rfl⟩] at refused
  cases refused

/-- The two parsers accept the same strings up to slashes and read the same from them. -/
theorem parsers_agree {split : Bytes → Bytes → List Bytes} (cuts : CutsAndDrops split)
    (s : Bytes) :
    (∀ key, Key.ofString split s = .ok key → ∃ query, Query.ofString split s = .ok query ∧
      query.items = key.items.map (fun b => (b.1, [b.2]))) ∧
    (∀ query x, Query.ofString split s = .ok query → Key.ofString split s = .error x →
      ∃ b ∈ itemsOf s, slash ∈ b.2) ∧
    (∀ x, Query.ofString split s = .error x → ∃ y, Key.ofString split s = .error y) := by
  refine ⟨fun key => query_of_key cuts, fun query x => slash_of_key_error cuts, ?_⟩
  intro x refused
  cases parsed : Key.ofString split s with
  | error y => exact ⟨y, rfl⟩
  | ok key =>
    obtain ⟨query, accepted, -⟩ := query_of_key cuts parsed
    rw [accepted] at refused
    cases refused

end Agreement

theorem parsers_agree_sample : CutsAndDrops splitTokens ∧
    (∃ query, Query.ofString splitTokens (ascii "a=1,,b=2,a=3") = .ok query ∧
      query.items = [(ascii "a", [ascii "1"]), (ascii "b", [ascii "2"])]) ∧
    (∃ b ∈ itemsOf (ascii "a=1/2"), slash ∈ b.2) ∧
    ∃ y, Key.ofString splitTokens (ascii "a=1/2,b") = .error y := by
  have cuts : CutsAndDrops splitTokens := fun _ _ => rfl
  exact ⟨cuts, (parsers_agree cuts (ascii "a=1,,b=2,a=3")).1 _ rfl,
    (parsers_agree cuts (ascii "a=1/2")).2.1 _ _ rfl rfl,
    (parsers_agree cuts (ascii "a=1/2,b")).2.2 _ rfl⟩

end KeyStrings
