import Mathlib.Logic.Function.Iterate
import Mathlib.Data.List.Basic
import Mathlib.Data.Nat.Init

/-!
# Pull iterators and the items they yield

An iterator is called again and again; each call yields an item or raises.
An item may share state with the iterator it came from, so what it shows is
read in the state of the moment. The rule at the end turns a frame condition on
single calls into independence over whole runs.
-/

namespace Iterators

universe u v w x
variable {S : Type u} {X : Type v} {A : Type w} {V : Type x}

/-- The state after `m` calls. -/
def stateAfter (next : S → Except X A × S) (s : S) (m : Nat) : S :=
  (fun s => (next s).2)^[m] s

/-- What the call after `i` calls returns. -/
def call (next : S → Except X A × S) (s : S) (i : Nat) : Except X A :=
  (next (stateAfter next s i)).1

@[simp] theorem stateAfter_zero (next : S → Except X A × S) (s : S) :
    stateAfter next s 0 = s := rfl

theorem stateAfter_succ (next : S → Except X A × S) (s : S) (m : Nat) :
    stateAfter next s (m + 1) = (next (stateAfter next s m)).2 :=
  Function.iterate_succ_apply' _ m s

/-- What holds at each position and moves with every call. -/
theorem stateAfter_position {next : S → Except X A × S} {At : Nat → S → Prop} {s : S}
    (advance : ∀ k s, At k s → At (k + 1) (next s).2) (start : At 0 s) (m : Nat) :
    At m (stateAfter next s m) := by
  induction m with
  | zero => exact start
  | succ m ih =>
    rw [stateAfter_succ]
    exact advance m _ ih

/-- What is shown from the front of a list of pending entries, and as `last` once there are
none. -/
theorem shown_of_pending {next : S → Except X A × S} {shown : S → V} {pending : S → List V}
    {last : V} {Valid : S → Prop}
    (shows : ∀ s, Valid s → shown s = (pending s).headD last)
    (moves : ∀ s, Valid s → Valid (next s).2 ∧ pending (next s).2 = (pending s).tail)
    {s : S} (start : Valid s) (i : Nat) :
    shown (stateAfter next s i) = (pending s)[i]?.getD last := by
  have position : Valid (stateAfter next s i) ∧
      pending (stateAfter next s i) = (pending s).drop i := by
    induction i with
    | zero => exact ⟨start, rfl⟩
    | succ i ih =>
      obtain ⟨valid, rest⟩ := moves _ ih.1
      rw [stateAfter_succ]
      exact ⟨valid, by rw [rest, ih.2, List.tail_drop]⟩
  rw [shows _ position.1, position.2, List.headD_eq_head?_getD, List.head?_drop]

theorem call_of_pending {next : S → Except X A × S} {pending : S → List (Except X A)}
    {last : Except X A} {Valid : S → Prop}
    (answers : ∀ s, Valid s → (next s).1 = (pending s).headD last)
    (moves : ∀ s, Valid s → Valid (next s).2 ∧ pending (next s).2 = (pending s).tail)
    {s : S} (start : Valid s) (i : Nat) : call next s i = (pending s)[i]?.getD last :=
  shown_of_pending answers moves start i

section Positions
variable {E : Type u} (answer answer' : E → Option V)

/-- The answers that entries get, each with the position behind its entry. -/
def answersAt : List E → Nat → List (V × Nat)
  | [], _ => []
  | e :: rest, k =>
    match answer e with
    | none => answersAt rest (k + 1)
    | some v => (v, k + 1) :: answersAt rest (k + 1)

theorem map_fst_answersAt (entries : List E) (k : Nat) :
    (answersAt answer entries k).map Prod.fst = entries.filterMap answer := by
  induction entries generalizing k with
  | nil => rfl
  | cons e rest ih =>
    rw [answersAt]
    cases here : answer e with
    | none => rw [List.filterMap_cons_none here, ih]
    | some v => rw [List.filterMap_cons_some here, List.map_cons, ih]

/-- Answers come behind the position they are looked for from. -/
theorem lt_of_mem_answersAt {entries : List E} {k : Nat} {a : V × Nat}
    (inside : a ∈ answersAt answer entries k) : k < a.2 := by
  induction entries generalizing k with
  | nil => cases inside
  | cons e rest ih =>
    rw [answersAt] at inside
    split at inside
    · have := ih inside
      omega
    · rcases List.mem_cons.mp inside with rfl | later
      · exact Nat.lt_succ_self k
      · have := ih later
        omega

/-- An answer here is not the first one of the entries behind, nor the end of them. -/
theorem headD_answersAt_ne (rest : List E) (k : Nat) {v last : V} (other : v ≠ last) :
    (answersAt answer rest (k + 1)).headD (last, k + 1 + rest.length) ≠ (v, k + 1) := by
  cases found : answersAt answer rest (k + 1) with
  | nil =>
    intro same
    exact other (congrArg Prod.fst same).symm
  | cons a later =>
    have behind : k + 1 < a.2 := lt_of_mem_answersAt answer (found ▸ List.mem_cons_self)
    rintro rfl
    exact Nat.lt_irrefl _ behind

variable {answer answer'}

/-- Where the answers and their positions are the same, each entry has the same answer, if
one in which they differ does not answer as the end does. -/
theorem eq_of_answersAt {last : V} {entries : List E} {k : Nat}
    (apart : ∀ e ∈ entries, answer e = answer' e ∨
      answer e ≠ some last ∧ answer' e ≠ some last)
    (same : ∀ i : Nat, (answersAt answer entries k)[i]?.getD (last, k + entries.length) =
      (answersAt answer' entries k)[i]?.getD (last, k + entries.length)) :
    ∀ e ∈ entries, answer e = answer' e := by
  induction entries generalizing k with
  | nil => exact fun _ inside => absurd inside List.not_mem_nil
  | cons e rest ih =>
    obtain ⟨here, later⟩ := List.forall_mem_cons.mp apart
    have total : k + (e :: rest).length = k + 1 + rest.length := by
      rw [List.length_cons]
      omega
    rw [total] at same
    have head (l : List (V × Nat)) (d : V × Nat) : l[0]?.getD d = l.headD d := by
      cases l <;> rfl
    have first := same 0
    rw [head, head] at first
    have equal : answer e = answer' e := by
      rcases here with equal | ⟨other, other'⟩
      · exact equal
      · cases found : answer e with
        | none =>
          cases found' : answer' e with
          | none => rfl
          | some v =>
            have ends : v ≠ last := fun h => other' (found'.trans (congrArg some h))
            simp only [answersAt, found, found'] at first
            exact absurd first (headD_answersAt_ne answer rest k ends)
        | some v =>
          have ends : v ≠ last := fun h => other (found.trans (congrArg some h))
          cases found' : answer' e with
          | none =>
            simp only [answersAt, found, found'] at first
            exact absurd first.symm (headD_answersAt_ne answer' rest k ends)
          | some v' =>
            simp only [answersAt, found, found', List.headD_cons, Prod.mk.injEq, and_true] at first
            exact congrArg some first
    refine List.forall_mem_cons.mpr ⟨equal, @ih (k + 1) later (fun i => ?_)⟩
    cases found : answer e with
    | none => simpa only [answersAt, ← equal, found] using same i
    | some v => simpa only [answersAt, ← equal, found, List.getElem?_cons_succ] using same (i + 1)

end Positions

/-- The items that `m` calls yielded. -/
def collected (next : S → Except X A × S) (s : S) (m : Nat) : List A :=
  (List.range m).filterMap (fun i => (call next s i).toOption)

/-- What the items of `m` calls showed, each read when it was yielded. -/
def readDuring (next : S → Except X A × S) (view : S → A → V) (s : S) (m : Nat) : List V :=
  (List.range m).filterMap
    (fun i => (call next s i).toOption.map (view (stateAfter next s (i + 1))))

/-- Items keep showing their own entry of `shown`, whatever is called later. -/
structure Independent (next : S → Except X A × S) (view : S → A → V) (s : S)
    (shown : List V) : Prop where
  keeps : ∀ i j a, i ≤ j → call next s i = .ok a →
    shown[i]? = some (view (stateAfter next s (j + 1)) a)
  collects : ∀ m, (collected next s m).map (view (stateAfter next s m)) =
    readDuring next view s m

/-- Collecting first and reading afterwards is no stronger a demand. -/
theorem independent_of_keeps {next : S → Except X A × S} {view : S → A → V} {s : S}
    {shown : List V}
    (keeps : ∀ i j a, i ≤ j → call next s i = .ok a →
      shown[i]? = some (view (stateAfter next s (j + 1)) a)) :
    Independent next view s shown := by
  refine ⟨keeps, ?_⟩
  intro m
  rw [collected, readDuring, List.map_filterMap]
  apply List.filterMap_congr
  intro i hi
  have hi := List.mem_range.mp hi
  cases hcall : call next s i with
  | error x => rfl
  | ok a =>
    obtain ⟨j, rfl⟩ : ∃ j, m = j + 1 := ⟨m - 1, by omega⟩
    have later := keeps i j a (by omega) hcall
    have first := keeps i i a (Nat.le_refl i) hcall
    exact later.symm.trans first

/-- If every yielded item shows its entry, and no call changes what a valid item
shows, then items are independent. -/
theorem independent_of_frame {next : S → Except X A × S} {view : S → A → V} {s : S}
    {shown : List V} (At : Nat → S → Prop) (Valid : S → A → Prop)
    (advance : ∀ k s, At k s → At (k + 1) (next s).2)
    (yields : ∀ k s a, At k s → (next s).1 = .ok a →
      Valid (next s).2 a ∧ shown[k]? = some (view (next s).2 a))
    (frame : ∀ s a, Valid s a → Valid (next s).2 a ∧ view (next s).2 a = view s a)
    (start : At 0 s) : Independent next view s shown := by
  apply independent_of_keeps
  intro i j a hij hcall
  suffices later : Valid (stateAfter next s (j + 1)) a ∧
      shown[i]? = some (view (stateAfter next s (j + 1)) a) from later.2
  induction j, hij using Nat.le_induction with
  | base =>
    rw [stateAfter_succ]
    exact yields i _ a (stateAfter_position advance start i) hcall
  | succ j _ ih =>
    obtain ⟨valid, shows⟩ := ih
    obtain ⟨valid', same⟩ := frame _ a valid
    rw [stateAfter_succ, same]
    exact ⟨valid', shows⟩

end Iterators
