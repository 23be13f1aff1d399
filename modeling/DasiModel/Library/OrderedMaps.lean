import Mathlib.Data.List.Perm.Basic
import Mathlib.Data.List.Nodup
import Mathlib.Order.Lattice

/-!
# Ordered maps as strictly sorted binding lists

A map keeps its bindings in strictly increasing order of their keys, so two
maps with the same bindings are the same list. Assignment replaces, emplacement
keeps an existing binding; both insert at the position the order demands.
-/

namespace OrderedMaps

universe u v w
variable {K : Type u} {V : Type v} [LinearOrder K]

def lookup (k : K) : List (K × V) → Option V
  | [] => none
  | (k', v) :: rest => if k' = k then some v else lookup k rest

def assign (k : K) (v : V) : List (K × V) → List (K × V)
  | [] => [(k, v)]
  | (k', v') :: rest =>
    if k < k' then (k, v) :: (k', v') :: rest
    else if k = k' then (k, v) :: rest
    else (k', v') :: assign k v rest

def Increasing (bindings : List (K × V)) : Prop :=
  bindings.Pairwise (fun a b => a.1 < b.1)

theorem mem_assign {k : K} {v : V} {b : K × V} {bindings : List (K × V)}
    (h : b ∈ assign k v bindings) : b = (k, v) ∨ b ∈ bindings := by
  induction bindings with
  | nil => exact Or.inl (List.mem_singleton.mp h)
  | cons c rest ih =>
    rw [assign] at h
    split at h
    · exact (List.mem_cons.mp h)
    · split at h
      · rcases List.mem_cons.mp h with heq | hmem
        · exact Or.inl heq
        · exact Or.inr (List.mem_cons_of_mem c hmem)
      · rcases List.mem_cons.mp h with heq | hmem
        · exact Or.inr (heq ▸ List.mem_cons_self)
        · exact (ih hmem).imp id (List.mem_cons_of_mem c)

theorem assign_increasing {k : K} {v : V} {bindings : List (K × V)}
    (h : Increasing bindings) : Increasing (assign k v bindings) := by
  induction bindings with
  | nil => exact List.pairwise_singleton _ _
  | cons c rest ih =>
    obtain ⟨below, tail⟩ := List.pairwise_cons.mp h
    rw [assign]
    split
    · rename_i hlt
      refine List.pairwise_cons.mpr ⟨fun b hb => ?_, h⟩
      rcases List.mem_cons.mp hb with rfl | hb
      · exact hlt
      · exact lt_trans hlt (below b hb)
    · rename_i hle
      split
      · rename_i heq
        exact List.pairwise_cons.mpr ⟨fun b hb => heq ▸ below b hb, tail⟩
      · rename_i hne
        refine List.pairwise_cons.mpr ⟨fun b hb => ?_, ih tail⟩
        rcases mem_assign hb with rfl | hb
        · exact lt_of_le_of_ne (not_lt.mp hle) (Ne.symm hne)
        · exact below b hb

theorem lookup_assign (k j : K) (v : V) (bindings : List (K × V)) :
    lookup j (assign k v bindings) = if j = k then some v else lookup j bindings := by
  induction bindings with
  | nil => simp only [assign, lookup, eq_comm]
  | cons c rest ih =>
    rw [assign]
    split
    · simp only [lookup, eq_comm]
    · split
      · rename_i heq
        subst heq
        by_cases hj : c.1 = j
        · simp [lookup, hj]
        · simp [lookup, hj, Ne.symm hj]
      · rename_i hne
        rw [lookup, lookup, ih]
        by_cases hc : c.1 = j
        · simp [hc, show ¬ j = k from fun h => hne (h ▸ hc.symm)]
        · simp [hc]

/-- Among pairs with distinct keys, the first pair for a key is the only one. -/
theorem lookup_eq_some_iff_of_nodup {bindings : List (K × V)}
    (nodup : (bindings.map Prod.fst).Nodup) (k : K) (v : V) :
    lookup k bindings = some v ↔ (k, v) ∈ bindings := by
  induction bindings with
  | nil => simp [lookup]
  | cons c rest ih =>
    obtain ⟨fresh, tail⟩ := List.nodup_cons.mp nodup
    rw [lookup, List.mem_cons]
    split
    · rename_i heq
      constructor
      · intro hv
        exact Or.inl (Prod.ext heq.symm (Option.some.inj hv).symm)
      · rintro (rfl | hmem)
        · rfl
        · exact absurd (List.mem_map.mpr ⟨(k, v), hmem, heq.symm⟩) fresh
    · rename_i hne
      rw [ih tail]
      exact ⟨Or.inr, fun hor => hor.resolve_left (fun heq => hne (by rw [← heq]))⟩

theorem Increasing.keys_nodup {bindings : List (K × V)} (h : Increasing bindings) :
    (bindings.map Prod.fst).Nodup :=
  List.pairwise_map.mpr (h.imp (fun h => ne_of_lt h))

theorem lookup_eq_some_iff {bindings : List (K × V)} (h : Increasing bindings) (k : K) (v : V) :
    lookup k bindings = some v ↔ (k, v) ∈ bindings :=
  lookup_eq_some_iff_of_nodup h.keys_nodup k v

theorem lookup_append (k : K) (left right : List (K × V)) :
    lookup k (left ++ right) = (lookup k left).or (lookup k right) := by
  induction left with
  | nil => exact Option.none_or.symm
  | cons c rest ih =>
    rw [List.cons_append, lookup, lookup]
    split
    · rfl
    · exact ih

theorem lookup_eq_none_iff (k : K) (bindings : List (K × V)) :
    lookup k bindings = none ↔ k ∉ bindings.map Prod.fst := by
  induction bindings with
  | nil => simp [lookup]
  | cons c rest ih =>
    rw [lookup, List.map_cons, List.mem_cons, not_or]
    split
    · rename_i heq
      constructor
      · intro h
        cases h
      · rintro ⟨fresh, -⟩
        exact absurd heq.symm fresh
    · rename_i hne
      rw [ih]
      exact ⟨fun h => ⟨Ne.symm hne, h⟩, fun h => h.2⟩

/-- The pair found is the first one for its key. -/
theorem lookup_eq_some_iff_first (k : K) (v : V) (bindings : List (K × V)) :
    lookup k bindings = some v ↔ ∃ before after, bindings = before ++ (k, v) :: after ∧
      k ∉ before.map Prod.fst := by
  constructor
  · intro h
    induction bindings with
    | nil => cases h
    | cons c rest ih =>
      rw [lookup] at h
      split at h
      · rename_i heq
        cases h
        exact ⟨[], rest, by rw [← heq]; rfl, List.not_mem_nil⟩
      · rename_i hne
        obtain ⟨before, after, rfl, fresh⟩ := ih h
        refine ⟨c :: before, after, rfl, ?_⟩
        rw [List.map_cons, List.mem_cons, not_or]
        exact ⟨Ne.symm hne, fresh⟩
  · rintro ⟨before, after, rfl, fresh⟩
    rw [lookup_append, (lookup_eq_none_iff k before).mpr fresh, Option.none_or, lookup, if_pos rfl]

theorem mem_of_lookup {bindings : List (K × V)} {k : K} {v : V}
    (h : lookup k bindings = some v) : (k, v) ∈ bindings := by
  obtain ⟨before, after, rfl, -⟩ := (lookup_eq_some_iff_first k v bindings).mp h
  exact List.mem_append_right before List.mem_cons_self

theorem lookup_map {W : Type w} (f : V → W) (bindings : List (K × V)) (k : K) :
    lookup k (bindings.map (fun b => (b.1, f b.2))) = (lookup k bindings).map f := by
  induction bindings with
  | nil => rfl
  | cons c rest ih =>
    rw [List.map_cons, lookup, lookup, ih]
    split
    · rfl
    · rfl

/-- A map from `K` to `V`, iterated in increasing order of the keys. -/
structure OrderedMap (K : Type u) (V : Type v) [LinearOrder K] where
  bindings : List (K × V)
  increasing : Increasing bindings

namespace OrderedMap
variable (m : OrderedMap K V)

def empty : OrderedMap K V := ⟨[], List.Pairwise.nil⟩

instance : Inhabited (OrderedMap K V) := ⟨empty⟩

instance [DecidableEq V] : DecidableEq (OrderedMap K V) := fun a b =>
  decidable_of_iff (a.bindings = b.bindings)
    ⟨fun h => by cases a; cases b; cases h; rfl, fun h => h ▸ rfl⟩

def find (k : K) : Option V := lookup k m.bindings

def size : Nat := m.bindings.length

/-- Replace the binding of `k`, or add one. -/
def insertOrAssign (k : K) (v : V) : OrderedMap K V :=
  ⟨assign k v m.bindings, assign_increasing m.increasing⟩

/-- Add a binding of `k` unless there is one. -/
def emplace (k : K) (v : V) : OrderedMap K V :=
  if (m.find k).isSome then m else m.insertOrAssign k v

def erase (k : K) : OrderedMap K V :=
  ⟨m.bindings.filter (fun b => b.1 ≠ k), m.increasing.filter _⟩

/-- Assign every pair of a list, from left to right. -/
def assignAll (pairs : List (K × V)) : OrderedMap K V :=
  pairs.foldl (fun acc b => acc.insertOrAssign b.1 b.2) m

/-- Emplace every pair of a list, from left to right. -/
def emplaceAll (pairs : List (K × V)) : OrderedMap K V :=
  pairs.foldl (fun acc b => acc.emplace b.1 b.2) m

/-- Change the values and nothing else. -/
def map {W : Type w} (f : V → W) : OrderedMap K W :=
  ⟨m.bindings.map (fun b => (b.1, f b.2)), List.pairwise_map.mpr (m.increasing.imp (fun h => h))⟩

@[simp] theorem find_empty (k : K) : (empty : OrderedMap K V).find k = none := rfl

@[simp] theorem find_insertOrAssign (k j : K) (v : V) :
    (m.insertOrAssign k v).find j = if j = k then some v else m.find j :=
  lookup_assign k j v m.bindings

@[simp] theorem find_map {W : Type w} (f : V → W) (k : K) :
    (m.map f).find k = (m.find k).map f :=
  lookup_map f m.bindings k

theorem find_eq_some_iff (k : K) (v : V) : m.find k = some v ↔ (k, v) ∈ m.bindings :=
  lookup_eq_some_iff m.increasing k v

@[simp] theorem find_erase (k j : K) : (m.erase k).find j = if j = k then none else m.find j := by
  apply Option.ext
  intro v
  rw [find_eq_some_iff, erase, List.mem_filter]
  split
  · simp [*]
  · rw [find_eq_some_iff]
    simp [*]

@[simp] theorem find_emplace (k j : K) (v : V) :
    (m.emplace k v).find j = (m.find j).or (if j = k then some v else none) := by
  rw [emplace]
  split
  · rename_i present
    split
    · rename_i same
      rw [same, Option.or_of_isSome present]
    · rw [Option.or_none]
  · rename_i absent
    rw [find_insertOrAssign]
    split
    · rename_i same
      rw [same, Option.not_isSome_iff_eq_none.mp absent, Option.none_or]
    · rw [Option.or_none]

/-- Of the pairs emplaced the first for a key stays, unless there was a binding before. -/
theorem find_emplaceAll (pairs : List (K × V)) (k : K) :
    (m.emplaceAll pairs).find k = (m.find k).or (lookup k pairs) := by
  induction pairs generalizing m with
  | nil => exact (Option.or_none).symm
  | cons b rest ih =>
    have later := ih (m.emplace b.1 b.2)
    rw [find_emplace, Option.or_assoc] at later
    rw [lookup]
    refine later.trans (congrArg _ ?_)
    by_cases same : b.1 = k
    · simp [same]
    · simp [same, Ne.symm same]

theorem bindings_nodup : m.bindings.Nodup :=
  m.increasing.imp (fun {_ _} h heq => ne_of_lt h (congrArg Prod.fst heq))

theorem keys_nodup : (m.bindings.map Prod.fst).Nodup := m.increasing.keys_nodup

/-- Maps are determined by their bindings, in any order. -/
theorem eq_of_perm {m n : OrderedMap K V} (hperm : m.bindings.Perm n.bindings) : m = n := by
  have heq : m.bindings = n.bindings :=
    hperm.eq_of_pairwise (fun a b _ _ hab hba => absurd (lt_trans hab hba) (lt_irrefl _))
      m.increasing n.increasing
  cases m
  cases n
  cases heq
  rfl

/-- Maps are determined by their lookups. -/
theorem ext_find {m n : OrderedMap K V} (same : ∀ k, m.find k = n.find k) : m = n := by
  apply eq_of_perm
  refine (List.perm_ext_iff_of_nodup m.bindings_nodup n.bindings_nodup).mpr (fun b => ?_)
  rw [← find_eq_some_iff, ← find_eq_some_iff, same]

/-- Emplacing a map's own bindings, in any order, builds the map. -/
theorem emplaceAll_empty_of_perm {pairs : List (K × V)} (perm : pairs.Perm m.bindings) :
    (empty : OrderedMap K V).emplaceAll pairs = m := by
  have nodup : (pairs.map Prod.fst).Nodup := (perm.map Prod.fst).nodup_iff.mpr m.keys_nodup
  apply ext_find
  intro k
  rw [find_emplaceAll, find_empty, Option.none_or]
  apply Option.ext
  intro v
  rw [lookup_eq_some_iff_of_nodup nodup, perm.mem_iff, find_eq_some_iff]

/-- Assignment makes up no bindings. -/
theorem mem_assignAll {pairs : List (K × V)} {b : K × V}
    (h : b ∈ (m.assignAll pairs).bindings) : b ∈ m.bindings ∨ b ∈ pairs := by
  induction pairs generalizing m with
  | nil => exact Or.inl h
  | cons c rest ih =>
    rcases ih (m.insertOrAssign c.1 c.2) h with assigned | later
    · rcases mem_assign assigned with rfl | old
      · exact Or.inr List.mem_cons_self
      · exact Or.inl old
    · exact Or.inr (List.mem_cons_of_mem c later)

/-- The last of the pairs with a key decides. -/
theorem find_assignAll (pairs : List (K × V)) (k : K) :
    (m.assignAll pairs).find k = (lookup k pairs.reverse).or (m.find k) := by
  induction pairs generalizing m with
  | nil => exact Option.none_or.symm
  | cons b rest ih =>
    have later := ih (m.insertOrAssign b.1 b.2)
    rw [List.reverse_cons, lookup_append, Option.or_assoc]
    refine later.trans (congrArg _ ?_)
    rw [find_insertOrAssign, lookup]
    by_cases same : b.1 = k
    · rw [if_pos same, if_pos same.symm]
      rfl
    · rw [if_neg same, if_neg (Ne.symm same), lookup]
      rfl

theorem find_assignAll_of_not_mem {pairs : List (K × V)} {k : K}
    (absent : k ∉ pairs.map Prod.fst) : (m.assignAll pairs).find k = m.find k := by
  induction pairs generalizing m with
  | nil => rfl
  | cons b rest ih =>
    simp only [List.map_cons, List.mem_cons, not_or] at absent
    have hrest := ih (m.insertOrAssign b.1 b.2) absent.2
    simpa [assignAll, absent.1] using hrest

theorem find_assignAll_of_mem {pairs : List (K × V)} (nodup : (pairs.map Prod.fst).Nodup)
    {k : K} {v : V} (h : (k, v) ∈ pairs) : (m.assignAll pairs).find k = some v := by
  induction pairs generalizing m with
  | nil => cases h
  | cons b rest ih =>
    obtain ⟨fresh, nodup⟩ := List.nodup_cons.mp nodup
    rcases List.mem_cons.mp h with rfl | h
    · have hrest := (m.insertOrAssign k v).find_assignAll_of_not_mem fresh
      simpa [assignAll] using hrest
    · exact ih (m.insertOrAssign b.1 b.2) nodup h

/-- Assigning pairs with distinct keys to the empty map yields those pairs, reordered. -/
theorem assignAll_empty_perm {pairs : List (K × V)} (nodup : (pairs.map Prod.fst).Nodup) :
    ((empty : OrderedMap K V).assignAll pairs).bindings.Perm pairs := by
  refine (List.perm_ext_iff_of_nodup (bindings_nodup _) (List.Nodup.of_map _ nodup)).mpr
    (fun b => ?_)
  rw [← find_eq_some_iff]
  constructor
  · intro h
    by_cases hk : b.1 ∈ pairs.map Prod.fst
    · obtain ⟨c, hc, hcb⟩ := List.mem_map.mp hk
      have hv := find_assignAll_of_mem empty nodup (k := b.1) (v := c.2) (hcb ▸ hc)
      have heq : c = b := Prod.ext hcb (Option.some.inj (hv.symm.trans h))
      exact heq ▸ hc
    · rw [find_assignAll_of_not_mem empty hk] at h
      cases h
  · intro h
    exact find_assignAll_of_mem empty nodup h

/-- With distinct keys, emplacing and assigning build the same map. -/
theorem emplaceAll_empty_eq_assignAll {pairs pairs' : List (K × V)} (perm : pairs.Perm pairs')
    (nodup : (pairs'.map Prod.fst).Nodup) :
    (empty : OrderedMap K V).emplaceAll pairs = empty.assignAll pairs' :=
  emplaceAll_empty_of_perm _ (perm.trans (assignAll_empty_perm nodup).symm)

end OrderedMap

end OrderedMaps
