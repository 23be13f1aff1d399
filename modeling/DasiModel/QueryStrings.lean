import DasiModel.StringParsers
import DasiModel.Library.Multimaps

/-!
# Query strings

The string constructor of a query checks that an item has a keyword and a value
part, but not that the value part has a value token, and keeps of every keyword
only the first item. So an accepted string may leave a keyword without values, and
may lose values that it names.
-/

namespace QueryStrings
open Texts Exceptions DasiKey OrderedMaps SegmentedPaths BindingTexts Multimaps
open StringParsers

/-- `k1=v11/v12/...,k2=v21/...`. -/
def render (bindings : List (Bytes × List Bytes)) : Bytes :=
  text comma equals (bindings.map (fun b => (b.1, [slash].intercalate b.2)))

example : render [(ascii "a", [ascii "1", ascii "2"]), (ascii "b", [ascii "3"])] =
    ascii "a=1/2,b=3" := by decide

/-- A query of keywords that are restricted to values, all of them free of separators. -/
structure WellFormed (query : Query) : Prop where
  keywords : ∀ b ∈ query.items, Legal comma equals b.1
  restricted : ∀ b ∈ query.items, b.2 ≠ []
  values : ∀ b ∈ query.items, ∀ v ∈ b.2, Legal comma equals v ∧ slash ∉ v

/-- Written in any order, the query is read back. -/
def RoundTrips (split : Bytes → Bytes → List Bytes) (query : Query) : Prop :=
  ∀ bindings, bindings.Perm query.items → Query.ofString split (render bindings) = .ok query

/-- The first item of every keyword has more than slashes after the equals sign. -/
def FirstItemsHaveValues (s : Bytes) : Prop :=
  ∀ keyword value, lookup keyword (itemsOf s) = some value → ∃ c ∈ value, c ≠ slash

section RoundTrip
variable {split : Bytes → Bytes → List Bytes}

/-- Values joined by slashes make a value part. -/
theorem legal_intercalate {values : List Bytes} (restricted : values ≠ [])
    (legal : ∀ v ∈ values, Legal comma equals v) :
    Legal comma equals ([slash].intercalate values) := by
  have free (c : Byte) (other : c ≠ slash) (absent : ∀ v ∈ values, c ∉ v) :
      c ∉ [slash].intercalate values := by
    intro inside
    rcases mem_intercalate inside with same | ⟨v, hv, here⟩
    · exact other same
    · exact absent v hv here
  refine ⟨?_, ?_, ?_⟩
  · exact intercalate_ne_nil restricted (fun v hv => (legal v hv).nonempty)
  · exact free comma (by decide) (fun v hv => (legal v hv).outer_free)
  · exact free equals (by decide) (fun v hv => (legal v hv).inner_free)

theorem roundTrips_of_wellFormed (cuts : CutsAndDrops split) {query : Query}
    (wellFormed : WellFormed query) : RoundTrips split query := by
  intro bindings perm
  have own : ∀ b ∈ bindings, b ∈ query.items := fun b hb => perm.mem_iff.mp hb
  have legal : ∀ b ∈ bindings.map (fun b => (b.1, [slash].intercalate b.2)),
      Legal comma equals b.1 ∧ Legal comma equals b.2 := by
    rintro _ rendered
    obtain ⟨b, hb, rfl⟩ := List.mem_map.mp rendered
    exact ⟨wellFormed.keywords b (own b hb), legal_intercalate (wellFormed.restricted b (own b hb))
      (fun v hv => (wellFormed.values b (own b hb) v hv).1)⟩
  have tokens : valueItems (render bindings) = bindings := by
    rw [valueItems, itemsOf, render, bindings_text comma_ne_equals legal, List.map_map]
    refine (List.map_congr_left (fun b hb => ?_)).trans (List.map_id bindings)
    have pieces : AreSegments slash b.2 := fun v hv =>
      ⟨(wellFormed.values b (own b hb) v hv).1.nonempty, (wellFormed.values b (own b hb) v hv).2⟩
    exact Prod.ext rfl (segments_intercalate pieces)
  refine (query_ofString_iff cuts _ query).mpr ⟨listsBindings_text comma_ne_equals legal, ?_⟩
  rw [tokens]
  exact congrArg Query.mk (OrderedMap.emplaceAll_empty_of_perm query.values perm).symm

/-- The bindings of a query that was read from a string. -/
theorem mem_items_iff (s : Bytes) (b : Bytes × List Bytes) :
    b ∈ (Query.ofPairs (valueItems s)).items ↔
      ∃ value, lookup b.1 (itemsOf s) = some value ∧ segments slash value = b.2 := by
  rw [Query.items, ← OrderedMap.find_eq_some_iff, query_find_ofPairs, valueItems, lookup_map,
    Option.map_eq_some_iff]

end RoundTrip

/-- A query read from a string is well-formed and can be written exactly if every keyword
got values. -/
theorem wellFormed_roundTrips_iff {split : Bytes → Bytes → List Bytes} (cuts : CutsAndDrops split)
    {s : Bytes} {query : Query} (accepted : Query.ofString split s = .ok query) :
    (WellFormed query ∧ RoundTrips split query) ↔ FirstItemsHaveValues s := by
  obtain ⟨-, rfl⟩ := (query_ofString_iff cuts s query).mp accepted
  constructor
  · rintro ⟨wellFormed, -⟩ keyword value found
    have restricted := wellFormed.restricted (keyword, segments slash value)
      ((mem_items_iff s _).mpr ⟨value, found, rfl⟩)
    by_contra bare
    push Not at bare
    exact restricted ((segments_eq_nil_iff value).mpr bare)
  · intro have_values
    have wellFormed : WellFormed (Query.ofPairs (valueItems s)) := by
      refine ⟨?_, ?_, ?_⟩
      · intro b hb
        obtain ⟨value, found, -⟩ := (mem_items_iff s b).mp hb
        exact (legal_of_mem_bindings (mem_of_lookup found)).1
      · intro b hb none
        obtain ⟨value, found, tokens⟩ := (mem_items_iff s b).mp hb
        obtain ⟨c, hc, other⟩ := have_values b.1 value found
        exact other ((segments_eq_nil_iff value).mp (tokens.trans none) c hc)
      · intro b hb v hv
        obtain ⟨value, found, tokens⟩ := (mem_items_iff s b).mp hb
        rw [← tokens] at hv
        have legal := (legal_of_mem_bindings (mem_of_lookup found)).2
        obtain ⟨nonempty, free⟩ := areSegments_segments value v hv
        exact ⟨⟨nonempty, fun inside => legal.outer_free (mem_of_mem_segments hv inside),
          fun inside => legal.inner_free (mem_of_mem_segments hv inside)⟩, free⟩
    exact ⟨wellFormed, roundTrips_of_wellFormed cuts wellFormed⟩

theorem wellFormed_roundTrips_iff_sample : CutsAndDrops splitTokens ∧
    ∃ query, Query.ofString splitTokens (ascii ",a=1//2,,b=3") = .ok query ∧
      ((WellFormed query ∧ RoundTrips splitTokens query) ↔
        FirstItemsHaveValues (ascii ",a=1//2,,b=3")) := by
  have cuts : CutsAndDrops splitTokens := fun _ _ => rfl
  have accepted : Query.ofString splitTokens (ascii ",a=1//2,,b=3") = .ok _ := rfl
  exact ⟨cuts, _, accepted, wellFormed_roundTrips_iff cuts accepted⟩

/-- A keyword followed by a slash alone is accepted, without any value, and what it is
written as is refused. -/
theorem bare_keyword : ∃ query, Query.ofString splitTokens (ascii "a=/") = .ok query ∧
    query.items = [(ascii "a", [])] ∧ ¬ WellFormed query ∧
    Query.ofString splitTokens (render query.items) =
      .error (.userError (ascii "Invalid key supplied")) := by
  have accepted : Query.ofString splitTokens (ascii "a=/") = .ok _ := rfl
  refine ⟨_, accepted, rfl, ?_, rfl⟩
  intro wellFormed
  exact wellFormed.restricted (ascii "a", []) List.mem_cons_self rfl

/-- `append(keyword, value)` for every value, from left to right. -/
def appendAll (items : List (Bytes × List Bytes)) : Query :=
  items.foldl (fun query b => b.2.foldl (fun query v => query.append b.1 v) query) Query.new

/-- The query is what appending the value tokens would give, and has all of them. -/
structure KeepsValues (s : Bytes) (query : Query) : Prop where
  appended : query = appendAll (valueItems s)
  kept : ∀ b ∈ valueItems s, ∀ v ∈ b.2, ∃ values, query.get b.1 = .ok values ∧ v ∈ values

theorem append_values (query : Query) (k v : Bytes) :
    (query.append k v).values = push query.values k v := by
  rw [Query.append, push]
  cases query.values.find k with
  | none => rfl
  | some values => rfl

theorem appendAll_values (items : List (Bytes × List Bytes)) :
    (appendAll items).values = pushAll OrderedMap.empty items := by
  symm
  refine List.foldl_hom Query.values (fun query b => ?_)
  exact List.foldl_hom Query.values (fun query v => (append_values query b.1 v).symm)

theorem find_appendAll (items : List (Bytes × List Bytes)) (k : Bytes) :
    (appendAll items).values.find k = pushOnto none (gather k items) := by
  rw [appendAll_values, find_pushAll, OrderedMap.find_empty]

theorem appendAll_kept {items : List (Bytes × List Bytes)} {b : Bytes × List Bytes}
    (hb : b ∈ items) {v : Bytes} (hv : v ∈ b.2) :
    ∃ values, (appendAll items).get b.1 = .ok values ∧ v ∈ values := by
  have here := mem_gather hb hv
  have found : (appendAll items).values.find b.1 = some (gather b.1 items) := by
    rw [find_appendAll, pushOnto_none_eq_some_iff]
    exact ⟨List.ne_nil_of_mem here, rfl⟩
  refine ⟨gather b.1 items, ?_, here⟩
  simp only [Query.get, found]

/-- No value is dropped exactly if each keyword has its values in its first item, and
some there. -/
theorem keepsValues_iff {split : Bytes → Bytes → List Bytes} (cuts : CutsAndDrops split)
    {s : Bytes} {query : Query} (accepted : Query.ofString split s = .ok query) :
    KeepsValues s query ↔ FirstOnly (valueItems s) := by
  obtain ⟨-, rfl⟩ := (query_ofString_iff cuts s query).mp accepted
  rw [← lookup_eq_gather_iff]
  constructor
  · intro keeps k
    rw [← query_find_ofPairs, keeps.appended, find_appendAll]
  · intro same
    have appended : Query.ofPairs (valueItems s) = appendAll (valueItems s) := by
      refine congrArg Query.mk (OrderedMap.ext_find (fun k => ?_))
      exact (query_find_ofPairs _ k).trans ((same k).trans (find_appendAll _ k).symm)
    refine ⟨appended, fun b hb v hv => ?_⟩
    rw [appended]
    exact appendAll_kept hb hv

theorem keepsValues_iff_sample : CutsAndDrops splitTokens ∧
    ∃ query, Query.ofString splitTokens (ascii "a=1/2,b=3,a=//") = .ok query ∧
      (KeepsValues (ascii "a=1/2,b=3,a=//") query ↔
        FirstOnly (valueItems (ascii "a=1/2,b=3,a=//"))) := by
  have cuts : CutsAndDrops splitTokens := fun _ _ => rfl
  have accepted : Query.ofString splitTokens (ascii "a=1/2,b=3,a=//") = .ok _ := rfl
  exact ⟨cuts, _, accepted, keepsValues_iff cuts accepted⟩

/-- Of a keyword given twice the second value is dropped. -/
theorem second_value_dropped :
    ∃ query, Query.ofString splitTokens (ascii "a=1,a=2") = .ok query ∧
      query.items = [(ascii "a", [ascii "1"])] ∧
      (appendAll (valueItems (ascii "a=1,a=2"))).items = [(ascii "a", [ascii "1", ascii "2"])] ∧
      ¬ KeepsValues (ascii "a=1,a=2") query := by
  have accepted : Query.ofString splitTokens (ascii "a=1,a=2") = .ok _ := rfl
  refine ⟨_, accepted, rfl, by decide, ?_⟩
  intro keeps
  obtain ⟨values, found, inside⟩ := keeps.kept (ascii "a", [ascii "2"]) (by decide) (ascii "2")
    List.mem_cons_self
  cases found
  exact absurd inside (by decide)

end QueryStrings
