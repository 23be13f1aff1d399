import DasiModel.Library.OrderedMaps
import Mathlib.Data.Finmap
import Mathlib.Data.Finset.Sort

/-!
# Ordered maps as finite maps

What an ordered map holds, without its order, is a finite map; the order comes
back by sorting the keys. Lookups determine both, so an operation is compared
through the lookups of its result.
-/

namespace OrderedMaps

universe u v

section Lookups
variable {K : Type u} {V : Type v} [DecidableEq K]

theorem lookup_insert_eq (f : Finmap fun _ : K => V) (k j : K) (v : V) :
    (f.insert k v).lookup j = if j = k then some v else f.lookup j := by
  split
  · rename_i same
    rw [same, Finmap.lookup_insert]
  · rename_i other
    exact Finmap.lookup_insert_of_ne f other

theorem lookup_erase_eq (f : Finmap fun _ : K => V) (k j : K) :
    (f.erase k).lookup j = if j = k then none else f.lookup j := by
  split
  · rename_i same
    rw [same, Finmap.lookup_erase]
  · rename_i other
    exact Finmap.lookup_erase_ne other

end Lookups

variable {K : Type u} {V : Type v} [LinearOrder K]

/-- The finite map with the bindings of an ordered one. -/
def OrderedMap.contents (m : OrderedMap K V) : Finmap fun _ : K => V :=
  AList.toFinmap ⟨m.bindings.map (fun b => ⟨b.1, b.2⟩), by
    rw [List.NodupKeys, List.keys, List.map_map]
    exact m.keys_nodup⟩

@[simp] theorem OrderedMap.contents_empty : (empty : OrderedMap K V).contents = ∅ := rfl

variable [DecidableEq K]

/-- The bindings of a finite map, in increasing order of their keys. -/
def inOrder (f : Finmap fun _ : K => V) : List (K × V) :=
  f.keys.sort.filterMap (fun k => (f.lookup k).map (Prod.mk k))

theorem mem_inOrder {f : Finmap fun _ : K => V} {k : K} {v : V} :
    (k, v) ∈ inOrder f ↔ f.lookup k = some v := by
  simp only [inOrder, List.mem_filterMap, Finset.mem_sort, Finmap.mem_keys, Option.map_eq_some_iff]
  constructor
  · rintro ⟨j, -, w, found, same⟩
    obtain ⟨rfl, rfl⟩ := Prod.mk.inj same
    exact found
  · intro found
    exact ⟨k, Finmap.mem_of_lookup_eq_some found, v, found, rfl⟩

theorem inOrder_increasing (f : Finmap fun _ : K => V) : Increasing (inOrder f) := by
  refine (Finset.sortedLT_sort f.keys).pairwise.filterMap _ ?_
  intro k k' below b hb b' hb'
  obtain ⟨v, -, rfl⟩ := Option.map_eq_some_iff.mp hb
  obtain ⟨v', -, rfl⟩ := Option.map_eq_some_iff.mp hb'
  exact below

theorem keys_inOrder (f : Finmap fun _ : K => V) : (inOrder f).map Prod.fst = f.keys.sort := by
  have increasing : ((inOrder f).map Prod.fst).Pairwise (· < ·) :=
    List.pairwise_map.mpr (inOrder_increasing f)
  have sorted := (Finset.sortedLT_sort f.keys).pairwise
  refine List.Perm.eq_of_pairwise (fun a b _ _ hab hba => absurd (lt_trans hab hba) (lt_irrefl _))
    increasing sorted ?_
  refine (List.perm_ext_iff_of_nodup increasing.nodup sorted.nodup).mpr (fun k => ?_)
  simp only [List.mem_map, Finset.mem_sort, Finmap.mem_keys, Finmap.mem_iff]
  constructor
  · rintro ⟨⟨j, v⟩, inside, rfl⟩
    exact ⟨v, mem_inOrder.mp inside⟩
  · rintro ⟨v, found⟩
    exact ⟨(k, v), mem_inOrder.mpr found, rfl⟩

namespace OrderedMap
variable (m : OrderedMap K V)

theorem dlookup_map (k : K) (bindings : List (K × V)) :
    (bindings.map (fun b => (⟨b.1, b.2⟩ : Sigma fun _ : K => V))).dlookup k =
      lookup k bindings := by
  induction bindings with
  | nil => rfl
  | cons b rest ih =>
    rw [List.map_cons, lookup]
    split
    · rename_i same
      subst same
      exact List.dlookup_cons_eq _ _ _
    · rename_i other
      rw [← ih]
      exact List.dlookup_cons_ne _ _ (Ne.symm other)

@[simp] theorem lookup_contents (k : K) : m.contents.lookup k = m.find k :=
  dlookup_map k m.bindings

theorem mem_contents_iff (k : K) : k ∈ m.contents ↔ (m.find k).isSome = true := by
  rw [← Finmap.lookup_isSome, lookup_contents]

@[simp] theorem contents_insertOrAssign (k : K) (v : V) :
    (m.insertOrAssign k v).contents = m.contents.insert k v := by
  apply Finmap.ext_lookup
  intro j
  rw [lookup_contents, find_insertOrAssign, lookup_insert_eq, lookup_contents]
  split
  · rfl
  · rfl

@[simp] theorem contents_erase (k : K) : (m.erase k).contents = m.contents.erase k := by
  apply Finmap.ext_lookup
  intro j
  rw [lookup_contents, find_erase, lookup_erase_eq, lookup_contents]
  split
  · rfl
  · rfl

/-- Sorting the keys of the finite map gives the bindings back, in their order. -/
@[simp] theorem inOrder_contents : inOrder m.contents = m.bindings := by
  refine List.Perm.eq_of_pairwise (fun a b _ _ hab hba => absurd (lt_trans hab hba) (lt_irrefl _))
    (inOrder_increasing m.contents) m.increasing ?_
  have nodup : (inOrder m.contents).Nodup :=
    (inOrder_increasing m.contents).imp (fun below same => ne_of_lt below (congrArg Prod.fst same))
  refine (List.perm_ext_iff_of_nodup nodup m.bindings_nodup).mpr (fun b => ?_)
  rw [← m.find_eq_some_iff, ← lookup_contents]
  exact mem_inOrder

@[simp] theorem card_contents : m.contents.keys.card = m.size := by
  rw [← Finset.length_sort (· ≤ ·), ← keys_inOrder, inOrder_contents, List.length_map, size]

theorem contents_injective {m n : OrderedMap K V} (same : m.contents = n.contents) : m = n := by
  apply ext_find
  intro k
  rw [← lookup_contents, same, lookup_contents]

end OrderedMap

end OrderedMaps
