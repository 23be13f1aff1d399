import DasiModel.Library.FiniteMaps

/-!
# Finite maps in an encoding

A finite map is kept as an ordered map over codes: `f` encodes its keys and `g`
its values. As long as `f` tells apart the keys that are used, every operation
on the codes is the same operation on the map.
-/

namespace OrderedMaps

universe u v w x
variable {K : Type u} {K' : Type v} {V : Type w} {V' : Type x} [DecidableEq K] [LinearOrder K']

/-- `m` holds `d` in codes; keys are from `S`, values from `T`. -/
structure Encodes (f : K → K') (g : V → V') (S : Set K) (T : Set V) (m : OrderedMap K' V')
    (d : Finmap fun _ : K => V) : Prop where
  within : ∀ k v, d.lookup k = some v → k ∈ S ∧ v ∈ T
  found : ∀ k ∈ S, m.find (f k) = (d.lookup k).map g
  own : ∀ b x, m.find b = some x → ∃ k ∈ S, b = f k

namespace Encodes
variable {f : K → K'} {g : V → V'} {S : Set K} {T : Set V} {m : OrderedMap K' V'}
  {d : Finmap fun _ : K => V}

theorem empty : Encodes f g S T OrderedMap.empty ∅ where
  within := by
    intro k v found
    cases found
  found := fun _ _ => rfl
  own := by
    intro b x found
    cases found

theorem insert (encodes : Encodes f g S T m d) (distinct : Set.InjOn f S) {k : K} {v : V}
    (hk : k ∈ S) (hv : v ∈ T) :
    Encodes f g S T (m.insertOrAssign (f k) (g v)) (d.insert k v) where
  within := by
    intro j w found
    rw [lookup_insert_eq] at found
    by_cases same : j = k
    · rw [if_pos same] at found
      exact ⟨same ▸ hk, Option.some.inj found ▸ hv⟩
    · rw [if_neg same] at found
      exact encodes.within j w found
  found := by
    intro j hj
    rw [OrderedMap.find_insertOrAssign, lookup_insert_eq]
    by_cases same : j = k
    · rw [if_pos (congrArg f same), if_pos same, Option.map_some]
    · rw [if_neg (fun alike => same (distinct hj hk alike)), if_neg same]
      exact encodes.found j hj
  own := by
    intro b x found
    rw [OrderedMap.find_insertOrAssign] at found
    by_cases same : b = f k
    · exact ⟨k, hk, same⟩
    · rw [if_neg same] at found
      exact encodes.own b x found

theorem erase (encodes : Encodes f g S T m d) (distinct : Set.InjOn f S) {k : K} (hk : k ∈ S) :
    Encodes f g S T (m.erase (f k)) (d.erase k) where
  within := by
    intro j w found
    rw [lookup_erase_eq] at found
    by_cases same : j = k
    · rw [if_pos same] at found
      cases found
    · rw [if_neg same] at found
      exact encodes.within j w found
  found := by
    intro j hj
    rw [OrderedMap.find_erase, lookup_erase_eq]
    by_cases same : j = k
    · rw [if_pos (congrArg f same), if_pos same, Option.map_none]
    · rw [if_neg (fun alike => same (distinct hj hk alike)), if_neg same]
      exact encodes.found j hj
  own := by
    intro b x found
    rw [OrderedMap.find_erase] at found
    by_cases same : b = f k
    · rw [if_pos same] at found
      cases found
    · rw [if_neg same] at found
      exact encodes.own b x found

theorem isSome_find (encodes : Encodes f g S T m d) {k : K} (hk : k ∈ S) :
    (m.find (f k)).isSome = decide (k ∈ d) := by
  rw [encodes.found k hk, Option.isSome_map, Bool.eq_iff_iff, decide_eq_true_iff]
  exact Finmap.lookup_isSome

/-- As many codes as keys. -/
theorem size_eq (encodes : Encodes f g S T m d) (distinct : Set.InjOn f S) :
    m.size = d.keys.card := by
  have image : m.contents.keys = d.keys.image f := by
    ext b
    simp only [Finset.mem_image, Finmap.mem_keys, Finmap.mem_iff, OrderedMap.lookup_contents]
    constructor
    · rintro ⟨x, found⟩
      obtain ⟨k, hk, rfl⟩ := encodes.own b x found
      rw [encodes.found k hk] at found
      obtain ⟨v, hv, -⟩ := Option.map_eq_some_iff.mp found
      exact ⟨k, ⟨v, hv⟩, rfl⟩
    · rintro ⟨k, ⟨v, hv⟩, rfl⟩
      refine ⟨g v, ?_⟩
      rw [encodes.found k (encodes.within k v hv).1, hv, Option.map_some]
  have injective : Set.InjOn f (d.keys : Set K) := by
    intro k hk j hj alike
    obtain ⟨v, hv⟩ := Finmap.mem_iff.mp (Finmap.mem_keys.mp hk)
    obtain ⟨w, hw⟩ := Finmap.mem_iff.mp (Finmap.mem_keys.mp hj)
    exact distinct (encodes.within k v hv).1 (encodes.within j w hw).1 alike
  have card := OrderedMap.card_contents m
  rw [image, Finset.card_image_of_injOn injective] at card
  exact card.symm

/-- Where `g` tells apart the values too, maps are equal exactly if their codes are. -/
theorem codes_eq_iff (encodes : Encodes f g S T m d) {m' : OrderedMap K' V'}
    {d' : Finmap fun _ : K => V} (encodes' : Encodes f g S T m' d') (faithful : Set.InjOn g T) :
    m = m' ↔ d = d' := by
  constructor
  · rintro rfl
    apply Finmap.ext_lookup
    intro k
    by_cases hk : k ∈ S
    · have same := (encodes.found k hk).symm.trans (encodes'.found k hk)
      cases left : d.lookup k with
      | none =>
        rw [left, Option.map_none, eq_comm, Option.map_eq_none_iff] at same
        exact same.symm
      | some v =>
        rw [left, Option.map_some, eq_comm, Option.map_eq_some_iff] at same
        obtain ⟨w, right, alike⟩ := same
        rw [right, faithful (encodes'.within k w right).2 (encodes.within k v left).2 alike]
    · have absent : ∀ {e : Finmap fun _ : K => V}, Encodes f g S T m e → e.lookup k = none :=
        fun h => Option.eq_none_iff_forall_ne_some.mpr fun v hv => hk (h.within k v hv).1
      rw [absent encodes, absent encodes']
  · rintro rfl
    apply OrderedMap.ext_find
    intro b
    by_cases known : ∃ k ∈ S, b = f k
    · obtain ⟨k, hk, rfl⟩ := known
      rw [encodes.found k hk, encodes'.found k hk]
    · have absent : ∀ {n : OrderedMap K' V'}, Encodes f g S T n d → n.find b = none :=
        fun h => Option.eq_none_iff_forall_ne_some.mpr fun x hx => known (h.own b x hx)
      rw [absent encodes, absent encodes']

end Encodes

end OrderedMaps
