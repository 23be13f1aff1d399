import DasiModel.Library.OrderedMaps

/-!
# Maps to lists of values

A list of keys with values for them can be read in two ways. Either the first
pair of a key decides what it is bound to, or the values of all its pairs are
pushed one after the other. The two agree exactly when a pair has values if and
only if it is the first of its key.
-/

namespace Multimaps
open OrderedMaps

universe u v
variable {K : Type u} {V : Type v} [LinearOrder K]

/-- All values for a key, in order of occurrence. -/
def gather (k : K) (pairs : List (K × List V)) : List V :=
  pairs.flatMap (fun b => if b.1 = k then b.2 else [])

/-- A binding, or none, after more values have been pushed to it. -/
def pushOnto (old : Option (List V)) (new : List V) : Option (List V) :=
  if new.isEmpty then old else some (old.getD [] ++ new)

/-- Add a value at the end of what a key is bound to. -/
def push (m : OrderedMap K (List V)) (k : K) (v : V) : OrderedMap K (List V) :=
  m.insertOrAssign k ((m.find k).getD [] ++ [v])

/-- Push the values of every pair, from left to right. -/
def pushAll (m : OrderedMap K (List V)) (pairs : List (K × List V)) : OrderedMap K (List V) :=
  pairs.foldl (fun m b => b.2.foldl (fun m v => push m b.1 v) m) m

/-- A pair has values exactly if there is no earlier one for its key. -/
def FirstOnly (pairs : List (K × List V)) : Prop :=
  ∀ before b after, pairs = before ++ b :: after → (b.2 ≠ [] ↔ b.1 ∉ before.map Prod.fst)

section Gather

theorem gather_append (k : K) (left right : List (K × List V)) :
    gather k (left ++ right) = gather k left ++ gather k right := List.flatMap_append

theorem gather_cons (k : K) (b : K × List V) (rest : List (K × List V)) :
    gather k (b :: rest) = (if b.1 = k then b.2 else []) ++ gather k rest := List.flatMap_cons

theorem gather_eq_nil_iff (k : K) (pairs : List (K × List V)) :
    gather k pairs = [] ↔ ∀ b ∈ pairs, b.1 = k → b.2 = [] := by
  simp [gather]

theorem mem_gather {pairs : List (K × List V)} {b : K × List V} (hb : b ∈ pairs) {v : V}
    (hv : v ∈ b.2) : v ∈ gather b.1 pairs :=
  List.mem_flatMap.mpr ⟨b, hb, by rwa [if_pos rfl]⟩

theorem gather_eq_nil_of_not_mem {k : K} {pairs : List (K × List V)}
    (absent : k ∉ pairs.map Prod.fst) : gather k pairs = [] := by
  rw [gather_eq_nil_iff]
  intro b hb same
  exact absurd (List.mem_map.mpr ⟨b, hb, same⟩) absent

end Gather

section Pushing

theorem pushOnto_append (old : Option (List V)) (first second : List V) :
    pushOnto (pushOnto old first) second = pushOnto old (first ++ second) := by
  cases first with
  | nil => rfl
  | cons v rest =>
    cases second with
    | nil => simp [pushOnto]
    | cons w more => simp [pushOnto]

theorem pushOnto_none_eq_some_iff (new values : List V) :
    pushOnto none new = some values ↔ new ≠ [] ∧ new = values := by
  cases new with
  | nil => simp [pushOnto]
  | cons v rest => simp [pushOnto]

theorem find_push (m : OrderedMap K (List V)) (k j : K) (v : V) :
    (push m k v).find j = pushOnto (m.find j) (if k = j then [v] else []) := by
  rw [push, OrderedMap.find_insertOrAssign]
  by_cases same : k = j
  · subst same
    simp [pushOnto]
  · simp [pushOnto, same, Ne.symm same]

theorem find_pushes (m : OrderedMap K (List V)) (k j : K) (values : List V) :
    (values.foldl (fun m v => push m k v) m).find j =
      pushOnto (m.find j) (if k = j then values else []) := by
  induction values generalizing m with
  | nil => split <;> rfl
  | cons v rest ih =>
    rw [List.foldl_cons, ih, find_push, pushOnto_append]
    split
    · rfl
    · rfl

theorem find_pushAll (m : OrderedMap K (List V)) (pairs : List (K × List V)) (k : K) :
    (pushAll m pairs).find k = pushOnto (m.find k) (gather k pairs) := by
  induction pairs generalizing m with
  | nil => rfl
  | cons b rest ih =>
    have later := ih (b.2.foldl (fun m v => push m b.1 v) m)
    rw [find_pushes, pushOnto_append, ← gather_cons] at later
    exact later

end Pushing

/-- The first pair of every key tells all that pushing would. -/
theorem lookup_eq_gather_iff (pairs : List (K × List V)) :
    (∀ k, lookup k pairs = pushOnto none (gather k pairs)) ↔ FirstOnly pairs := by
  constructor
  · rintro same before b after rfl
    have here := same b.1
    rw [lookup_append, gather_append, gather_cons, if_pos rfl] at here
    cases first : lookup b.1 before with
    | some values =>
      -- an earlier pair of the key tells all values
      rw [first, Option.some_or, eq_comm, pushOnto_none_eq_some_iff] at here
      obtain ⟨left, right, rfl, -⟩ := (lookup_eq_some_iff_first b.1 values before).mp first
      rw [gather_append, gather_cons, if_pos rfl] at here
      have lengths := congrArg List.length here.2
      simp only [List.length_append] at lengths
      have nothing : b.2 = [] := List.length_eq_zero_iff.mp (by omega)
      simp [nothing]
    | none =>
      have fresh := (lookup_eq_none_iff b.1 before).mp first
      rw [first, Option.none_or, lookup, if_pos rfl, eq_comm, pushOnto_none_eq_some_iff,
        gather_eq_nil_of_not_mem fresh, List.nil_append] at here
      refine ⟨fun _ => fresh, fun _ none => ?_⟩
      exact here.1 (here.2.trans none)
  · intro first k
    cases found : lookup k pairs with
    | none =>
      have absent := (lookup_eq_none_iff k pairs).mp found
      rw [gather_eq_nil_of_not_mem absent]
      rfl
    | some values =>
      obtain ⟨before, after, rfl, fresh⟩ := (lookup_eq_some_iff_first k values pairs).mp found
      have nonempty : values ≠ [] := (first before (k, values) after rfl).mpr fresh
      have later : gather k after = [] := by
        rw [gather_eq_nil_iff]
        intro b hb same
        obtain ⟨between, rest, rfl⟩ := List.append_of_mem hb
        have repeated : b.1 ∈ (before ++ (k, values) :: between).map Prod.fst := by
          simp [same]
        by_contra some
        refine (first (before ++ (k, values) :: between) b rest ?_).mp some repeated
        simp
      rw [gather_append, gather_cons, if_pos rfl, later, gather_eq_nil_of_not_mem fresh]
      simp [pushOnto, nonempty]

end Multimaps
