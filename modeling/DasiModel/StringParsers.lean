import DasiModel.DasiKey
import DasiModel.Library.BindingTexts

/-!
# Key and query strings

`Key(const std::string&)` and `Query(const std::string&)` are two loops over the
same items. What they accept and build is told here without the loops: a key
string must list bindings whose values have no slash, a query string only has to
list bindings, and both keep the first item of every keyword. A key string that was
cut at a NUL gives the same key only if what was cut off repeats keywords.
-/

namespace StringParsers
open Texts Exceptions DasiKey OrderedMaps SegmentedPaths BindingTexts

def comma : Byte := 0x2C

def equals : Byte := 0x3D

/-- What `StringTools::split` is relied on for. -/
def CutsAndDrops (split : Bytes → Bytes → List Bytes) : Prop :=
  ∀ delimiters text, split delimiters text = splitTokens delimiters text

/-- The items of a string that are a keyword and a value part, from left to right. -/
def itemsOf (s : Bytes) : List (Bytes × Bytes) := bindings comma equals s

/-- The same with the value tokens of every item. -/
def valueItems (s : Bytes) : List (Bytes × List Bytes) :=
  (itemsOf s).map (fun b => (b.1, segments slash b.2))

example : valueItems (ascii ",a=1//2,,b=/,a==3") =
    [(ascii "a", [ascii "1", ascii "2"]), (ascii "b", []), (ascii "a", [ascii "3"])] := by decide

theorem splitTokens_single (d : Byte) (text : Bytes) :
    splitTokens [d] text = segments d text := by
  have same : (fun b : Byte => decide (b ∈ [d])) = (· == d) := by
    funext b
    simp only [List.mem_singleton]
    rfl
  rw [splitTokens, segments, List.splitOn_eq_splitOnP, same]

theorem comma_ne_equals : comma ≠ equals := by decide

section Parsers
variable {split : Bytes → Bytes → List Bytes}

theorem key_parseItem_iff (cuts : CutsAndDrops split) (key : Key) (bit : Bytes) (key' : Key) :
    Key.parseItem split key bit = .ok key' ↔
      ∃ b, binding equals bit = some b ∧ slash ∉ b.2 ∧ key' = ⟨key.values.emplace b.1 b.2⟩ := by
  have pieces : split (ascii "=") bit = segments equals bit :=
    (cuts _ bit).trans (splitTokens_single equals bit)
  simp only [binding_eq_some_iff, Key.parseItem, pieces]
  constructor
  · intro parsed
    split at parsed
    · rename_i keyword value same
      split at parsed
      · cases parsed
      · rename_i free
        cases parsed
        exact ⟨(keyword, value), same, free, rfl⟩
    · cases parsed
  · rintro ⟨b, same, free, rfl⟩
    simp only [same, if_neg free]

theorem query_parseItem_iff (cuts : CutsAndDrops split) (query : Query) (bit : Bytes)
    (query' : Query) : Query.parseItem split query bit = .ok query' ↔
      ∃ b, binding equals bit = some b ∧ True ∧
        query' = ⟨query.values.emplace b.1 (segments slash b.2)⟩ := by
  have pieces : split (ascii "=") bit = segments equals bit :=
    (cuts _ bit).trans (splitTokens_single equals bit)
  have tokens (v : Bytes) : split (ascii "/") v = segments slash v :=
    (cuts _ v).trans (splitTokens_single slash v)
  simp only [binding_eq_some_iff, Query.parseItem, pieces, tokens, true_and]
  constructor
  · intro parsed
    split at parsed
    · rename_i keyword value same
      cases parsed
      exact ⟨(keyword, value), same, rfl⟩
    · cases parsed
  · rintro ⟨b, same, rfl⟩
    simp only [same]

theorem key_emplaced (pairs : List (Bytes × Bytes)) :
    pairs.foldl (fun key b => (⟨key.values.emplace b.1 b.2⟩ : Key)) Key.new = Key.ofPairs pairs :=
  List.foldl_hom Key.mk (fun _ _ => rfl)

theorem query_emplaced (pairs : List (Bytes × Bytes)) :
    pairs.foldl (fun query b => (⟨query.values.emplace b.1 (segments slash b.2)⟩ : Query))
      Query.new = Query.ofPairs (pairs.map (fun b => (b.1, segments slash b.2))) := by
  rw [Query.ofPairs, List.foldl_map]
  exact List.foldl_hom Query.mk (fun _ _ => rfl)

/-- What the key parser accepts, and the key it builds. -/
theorem key_ofString_iff (cuts : CutsAndDrops split) (s : Bytes) (key : Key) :
    Key.ofString split s = .ok key ↔
      (∀ piece ∈ segments comma s, ∃ b, binding equals piece = some b ∧ slash ∉ b.2) ∧
        key = Key.ofPairs (itemsOf s) := by
  have pieces : split (ascii ",") s = segments comma s :=
    (cuts _ s).trans (splitTokens_single comma s)
  rw [Key.ofString, pieces, foldlM_eq_ok_iff (key_parseItem_iff cuts), key_emplaced]
  rfl

/-- What the query parser accepts, and the query it builds. -/
theorem query_ofString_iff (cuts : CutsAndDrops split) (s : Bytes) (query : Query) :
    Query.ofString split s = .ok query ↔
      ListsBindings comma equals s ∧ query = Query.ofPairs (valueItems s) := by
  have pieces : split (ascii ",") s = segments comma s :=
    (cuts _ s).trans (splitTokens_single comma s)
  rw [Query.ofString, pieces, foldlM_eq_ok_iff (query_parseItem_iff cuts), query_emplaced]
  simp only [and_true]
  rfl

theorem key_find_ofPairs (pairs : List (Bytes × Bytes)) (k : Bytes) :
    (Key.ofPairs pairs).values.find k = lookup k pairs :=
  (OrderedMap.find_emplaceAll OrderedMap.empty pairs k).trans Option.none_or

theorem query_find_ofPairs (pairs : List (Bytes × List Bytes)) (k : Bytes) :
    (Query.ofPairs pairs).values.find k = lookup k pairs :=
  (OrderedMap.find_emplaceAll OrderedMap.empty pairs k).trans Option.none_or

end Parsers

section CutTexts
variable {split : Bytes → Bytes → List Bytes}

theorem itemsOf_append (before after : Bytes) :
    itemsOf (before ++ comma :: after) = itemsOf before ++ itemsOf after := by
  rw [itemsOf, bindings, segments_append_sep, List.filterMap_append]
  rfl

/-- Items that repeat keywords change nothing. -/
theorem ofPairs_append_repeated {pairs more : List (Bytes × Bytes)}
    (repeated : ∀ b ∈ more, b.1 ∈ pairs.map Prod.fst) :
    Key.ofPairs (pairs ++ more) = Key.ofPairs pairs := by
  refine congrArg Key.mk (OrderedMap.ext_find fun k => ?_)
  have left := key_find_ofPairs (pairs ++ more) k
  have right := key_find_ofPairs pairs k
  rw [lookup_append] at left
  refine left.trans (Eq.trans ?_ right.symm)
  cases first : lookup k pairs with
  | some v => rfl
  | none =>
    rw [Option.none_or, lookup_eq_none_iff]
    intro inside
    obtain ⟨b, hb, rfl⟩ := List.mem_map.mp inside
    exact (lookup_eq_none_iff _ _).mp first (repeated b hb)

/-- A NUL in a string changes nothing: no item that it is in or before says anything new. -/
def NulHarmless (s : Bytes) : Prop :=
  (0 : Byte) ∉ s ∨ ∃ before after, s = before ++ comma :: after ∧ (0 : Byte) ∉ before ∧
    ∀ piece ∈ segments comma after, ∃ b, binding equals piece = some b ∧ slash ∉ b.2 ∧
      b.1 ∈ (itemsOf before).map Prod.fst

theorem cString_append {before : Bytes} (whole : (0 : Byte) ∉ before) (after : Bytes) :
    cString (before ++ after) = before ++ cString after := by
  apply List.takeWhile_append_of_pos
  intro b hb
  rw [decide_eq_true_iff]
  rintro rfl
  exact whole hb

theorem cString_append_dropped (s : Bytes) : ∃ rest, s = cString s ++ rest :=
  ⟨_, List.takeWhile_append_dropWhile.symm⟩

/-- An item that was cut has the keyword of the item that it was cut from. -/
theorem keyword_of_append {piece more : Bytes} {b b' : Bytes × Bytes}
    (read : binding equals piece = some b) (read' : binding equals (piece ++ more) = some b') :
    b'.1 = b.1 := by
  rw [binding_eq_some_iff] at read read'
  obtain ⟨rest, same⟩ := segments_head_append read more
  rw [read'] at same
  exact (List.cons.inj same).1

theorem cString_cut {before : Bytes} (whole : (0 : Byte) ∉ before) (rest : Bytes) :
    cString (before ++ 0 :: rest) = before := by
  rw [cString_append whole]
  exact List.append_nil before

theorem mem_itemsOf_iff (s : Bytes) (b : Bytes × Bytes) :
    b ∈ itemsOf s ↔ ∃ piece ∈ segments comma s, binding equals piece = some b :=
  List.mem_filterMap

/-- The items of a string without NUL have none. -/
theorem whole_of_mem_itemsOf {s : Bytes} (whole : (0 : Byte) ∉ s) {b : Bytes × Bytes}
    (hb : b ∈ itemsOf s) : (0 : Byte) ∉ b.1 ∧ (0 : Byte) ∉ b.2 := by
  obtain ⟨piece, hpiece, read⟩ := (mem_itemsOf_iff s b).mp hb
  have tokens := (binding_eq_some_iff piece b).mp read
  have free : ∀ token ∈ segments equals piece, (0 : Byte) ∉ token := fun token htoken inside =>
    whole (mem_of_mem_segments hpiece (mem_of_mem_segments htoken inside))
  rw [tokens] at free
  exact ⟨free _ List.mem_cons_self, free _ (List.mem_cons_of_mem _ List.mem_cons_self)⟩

/-- One of the two parts of an item with a NUL has it. -/
theorem zero_mem_of_binding {piece : Bytes} {b : Bytes × Bytes}
    (read : binding equals piece = some b) (inside : (0 : Byte) ∈ piece) :
    (0 : Byte) ∈ b.1 ∨ (0 : Byte) ∈ b.2 := by
  obtain ⟨token, htoken, here⟩ := exists_mem_segments inside (by decide : (0 : Byte) ≠ equals)
  rw [(binding_eq_some_iff piece b).mp read] at htoken
  rcases List.mem_cons.mp htoken with rfl | htoken
  · exact .inl here
  · obtain rfl := List.mem_singleton.mp htoken
    exact .inr here

theorem mem_keywords_iff (pairs : List (Bytes × Bytes)) (k : Bytes) :
    k ∈ pairs.map Prod.fst ↔ (Key.ofPairs pairs).values.find k ≠ none := by
  rw [key_find_ofPairs, ne_eq, lookup_eq_none_iff, not_not]

/-- If cutting the text at the NUL does not change the key, the items from there on repeat
keywords of the items before. -/
theorem repeated_of_same {pairs : List (Bytes × Bytes)} {after : Bytes}
    (good : ∀ piece ∈ segments comma after, ∃ b, binding equals piece = some b)
    (first : comma ∉ cString after) (cut : (0 : Byte) ∈ after)
    (same : Key.ofPairs (pairs ++ itemsOf after) = Key.ofPairs (pairs ++ itemsOf (cString after))) :
    ∀ b ∈ itemsOf after, b.1 ∈ pairs.map Prod.fst := by
  obtain ⟨tail, rest, rfl, whole⟩ := List.eq_append_cons_of_mem cut
  rw [cString_cut whole] at first same
  obtain ⟨others, pieces⟩ := segments_free_append first (0 :: rest) (by simp [comma])
  have head := List.mem_cons_self (a := tail ++ (0 :: rest).takeWhile (· ≠ comma)) (l := others)
  rw [← pieces] at head
  obtain ⟨b, read⟩ := good _ head
  have items : ∃ more, itemsOf (tail ++ 0 :: rest) = b :: more := by
    rw [itemsOf, bindings, pieces, List.filterMap_cons_some read]
    exact ⟨_, rfl⟩
  obtain ⟨more, items⟩ := items
  have cut : (0 : Byte) ∈ tail ++ (0 :: rest).takeWhile (· ≠ comma) := by
    rw [List.takeWhile_cons_of_pos (by decide)]
    exact List.mem_append_right _ List.mem_cons_self
  -- the item with the NUL
  have own : b.1 ∈ pairs.map Prod.fst := by
    by_contra new
    have found : lookup b.1 (pairs ++ itemsOf tail) = some b.2 := by
      rw [← key_find_ofPairs, ← same, key_find_ofPairs, lookup_append, items,
        (lookup_eq_none_iff _ _).mpr new, Option.none_or, lookup, if_pos rfl]
    rcases List.mem_append.mp (mem_of_lookup found) with old | here
    · exact new (List.mem_map.mpr ⟨_, old, rfl⟩)
    · obtain ⟨keyword, value⟩ := whole_of_mem_itemsOf whole here
      exact (zero_mem_of_binding read cut).elim keyword value
  intro c hc
  have asked : c.1 ∈ (pairs ++ itemsOf (tail ++ 0 :: rest)).map Prod.fst :=
    List.mem_map.mpr ⟨c, List.mem_append_right _ hc, rfl⟩
  rw [mem_keywords_iff, same, ← mem_keywords_iff, List.map_append, List.mem_append] at asked
  rcases asked with old | cut_
  · exact old
  · obtain ⟨b', hb', keyword⟩ := List.mem_map.mp cut_
    obtain ⟨piece, hpiece, read'⟩ := (mem_itemsOf_iff _ b').mp hb'
    have some : tail ≠ [] := by
      rintro rfl
      cases hpiece
    rw [segments_single some first, List.mem_singleton] at hpiece
    subst hpiece
    rwa [keyword_of_append read' read, keyword] at own

/-- A string with a comma before its first NUL, cut at the last such comma. -/
theorem last_comma {s : Bytes} (cut : (0 : Byte) ∈ s) (inside : comma ∈ cString s) :
    ∃ before after, s = before ++ comma :: after ∧ (0 : Byte) ∉ before ∧
      comma ∉ cString after := by
  obtain ⟨lead, rest, rfl, whole⟩ := List.eq_append_cons_of_mem cut
  rw [cString_cut whole] at inside
  obtain ⟨tail, before, reversed, free⟩ :=
    List.eq_append_cons_of_mem (List.mem_reverse.mpr inside)
  obtain rfl : lead = before.reverse ++ comma :: tail.reverse := by
    rw [← List.reverse_reverse lead, reversed]
    simp
  rw [List.mem_append, List.mem_cons, not_or, not_or] at whole
  refine ⟨before.reverse, tail.reverse ++ 0 :: rest, by simp, whole.1, ?_⟩
  rwa [cString_cut whole.2.2, List.mem_reverse]

/-- If cutting the text changes nothing, the NUL is harmless. -/
theorem nulHarmless_of_same {s : Bytes}
    (all : ∀ piece ∈ segments comma s, ∃ b, binding equals piece = some b ∧ slash ∉ b.2)
    (same : Key.ofPairs (itemsOf (cString s)) = Key.ofPairs (itemsOf s)) : NulHarmless s := by
  by_cases none : (0 : Byte) ∉ s
  · exact .inl none
  · have cut := not_not.mp none
    have readable : ∀ piece ∈ segments comma s, ∃ b, binding equals piece = some b :=
      fun piece hpiece => (all piece hpiece).imp fun _ h => h.1
    by_cases first : comma ∈ cString s
    · obtain ⟨before, after, rfl, whole, first⟩ := last_comma cut first
      rw [cString_append whole, show cString (comma :: after) = comma :: cString after from rfl,
        itemsOf_append, itemsOf_append] at same
      have later : (0 : Byte) ∈ after :=
        (List.mem_cons.mp ((List.mem_append.mp cut).resolve_left whole)).resolve_left (by decide)
      have inside (piece) (h : piece ∈ segments comma after) :
          piece ∈ segments comma (before ++ comma :: after) := by
        rw [segments_append_sep]
        exact List.mem_append_right _ h
      have repeated := repeated_of_same (fun piece h => readable piece (inside piece h)) first
        later same.symm
      refine .inr ⟨before, after, rfl, whole, fun piece hpiece => ?_⟩
      obtain ⟨b, read, single⟩ := all piece (inside piece hpiece)
      exact ⟨b, read, single, repeated b ((mem_itemsOf_iff _ b).mpr ⟨piece, hpiece, read⟩)⟩
    · -- without a comma the item with the NUL is the first, and new
      have repeated := @repeated_of_same [] s readable first cut same.symm
      obtain ⟨piece, hpiece, -⟩ := exists_mem_segments cut (by decide : (0 : Byte) ≠ comma)
      obtain ⟨b, read⟩ := readable piece hpiece
      cases repeated b ((mem_itemsOf_iff _ b).mpr ⟨piece, hpiece, read⟩)

/-- The items of the whole text and of the cut one make the same key, and all can be read. -/
theorem NulHarmless.same {s : Bytes} (harmless : NulHarmless s)
    (good : ∀ piece ∈ segments comma (cString s), ∃ b, binding equals piece = some b ∧
      slash ∉ b.2) :
    (∀ piece ∈ segments comma s, ∃ b, binding equals piece = some b ∧ slash ∉ b.2) ∧
      Key.ofPairs (itemsOf (cString s)) = Key.ofPairs (itemsOf s) := by
  rcases harmless with none | ⟨before, after, rfl, whole, repeated⟩
  · rw [(cString_eq_self_iff s).mpr none] at good ⊢
    exact ⟨good, rfl⟩
  · have cut : cString (before ++ comma :: after) = before ++ comma :: cString after := by
      rw [cString_append whole]
      rfl
    rw [cut] at good ⊢
    rw [segments_append_sep] at good
    rw [segments_append_sep, itemsOf_append, itemsOf_append]
    constructor
    · intro piece hpiece
      rcases List.mem_append.mp hpiece with here | there
      · exact good piece (List.mem_append_left _ here)
      · obtain ⟨b, read, single, -⟩ := repeated piece there
        exact ⟨b, read, single⟩
    · rw [ofPairs_append_repeated, ofPairs_append_repeated]
      · intro b hb
        obtain ⟨piece, hpiece, read⟩ := (mem_itemsOf_iff _ b).mp hb
        obtain ⟨b', read', -, old⟩ := repeated piece hpiece
        rw [read] at read'
        cases read'
        exact old
      · intro b hb
        obtain ⟨piece, hpiece, read⟩ := (mem_itemsOf_iff _ b).mp hb
        obtain ⟨rest, dropped⟩ := cString_append_dropped after
        obtain ⟨more, grown⟩ := mem_segments_append hpiece rest
        rw [← dropped] at grown
        obtain ⟨b', read', -, old⟩ := repeated _ grown
        rwa [keyword_of_append read read'] at old

/-- What C makes of a text is what the whole text says exactly if a NUL in it is harmless. -/
theorem ofString_cString_iff (cuts : CutsAndDrops split) {s : Bytes} {key : Key}
    (parsed : Key.ofString split (cString s) = .ok key) :
    Key.ofString split s = .ok key ↔ NulHarmless s := by
  obtain ⟨good, rfl⟩ := (key_ofString_iff cuts _ _).mp parsed
  rw [key_ofString_iff cuts]
  constructor
  · rintro ⟨all, same⟩
    exact nulHarmless_of_same all same
  · intro harmless
    exact harmless.same good

end CutTexts

end StringParsers
