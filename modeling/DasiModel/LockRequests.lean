import DasiModel.Policies

/-!
# What setPolicy asks of FDB

The loop over the section `access` carries an action, a set of identifiers and a
flag. From the second name on the action is the common one of all names before,
and a name that disagrees ends the loop; so what is left does not depend on the
order. Before the first name there is no action.
-/

namespace LockRequests
open Texts Exceptions DasiKey Generators Session Policies

universe u v
variable {D : Type u} {W : Type v} {conf : Configuration D} {fdb : FdbLocks W}
  {getBool : Bytes → Except Exception Bool}

/-- The section `access` of a dictionary, as its names are enumerated. -/
structure Maps (conf : Configuration D) (policyDict : D) (entries : List (Bytes × Bool)) :
    Prop where
  has : conf.has policyDict (ascii "access") = true
  keys : conf.keys (conf.getSubConfiguration policyDict (ascii "access")) = entries.map Prod.fst
  booleans : ∀ e ∈ entries,
    conf.getBool (conf.getSubConfiguration policyDict (ascii "access")) e.1 = .ok e.2

/-- The identifiers among these names. -/
def named (names : List Bytes) : Finset ControlIdentifier :=
  Finset.univ.filter (fun id => id.name ∈ names)

theorem mem_named {names : List Bytes} {id : ControlIdentifier} :
    id ∈ named names ↔ id.name ∈ names := by
  simp only [named, Finset.mem_filter, Finset.mem_univ, true_and]

theorem named_cons (s : Finset ControlIdentifier) (key : Bytes) (names : List Bytes) :
    s ∪ named (key :: names) = s ∪ named [key] ∪ named names := by
  ext id
  simp only [Finset.mem_union, mem_named, List.mem_cons, List.not_mem_nil, or_false, or_assoc]

structure ControlRequest where
  request : MarsRequest
  action : Option ControlAction
  identifiers : Finset ControlIdentifier
  deriving DecidableEq

/-- FDB with a record of the control requests it was given. -/
def recorded (fdb : FdbLocks W) : FdbLocks (List ControlRequest × W) where
  control request action identifiers w :=
    let answer := fdb.control request action identifiers w.2
    (answer.1, (w.1 ++ [⟨request, action, identifiers⟩], answer.2))
  status request w :=
    let answer := fdb.status request w.2
    (answer.1, (w.1, answer.2))

section Loop

theorem mem_test {s : Finset ControlIdentifier} {key name : Bytes} {id x : ControlIdentifier} :
    x ∈ (if key = name then s ∪ {id} else s) ↔ x ∈ s ∨ (x = id ∧ name = key) := by
  split
  · rename_i same
    rw [Finset.mem_union, Finset.mem_singleton, and_iff_left same.symm]
  · rename_i other
    rw [or_iff_left (fun h => other h.2.symm)]

/-- The four tests on a name add the identifier with that name. -/
theorem pass_of_getBool {s : Locking} {key : Bytes} {enable : Bool}
    (value : getBool key = .ok enable) :
    Locking.pass getBool s key =
      if s.foundAny ∧ some (Locking.actionFor enable) ≠ s.action then .error Locking.conflict
      else .ok ⟨true, s.identifiers ∪ named [key], some (Locking.actionFor enable)⟩ := by
  simp only [Locking.pass, value]
  congr 3
  ext id
  simp only [mem_test, Finset.mem_union, mem_named, List.mem_singleton]
  cases id <;> simp [ControlIdentifier.name]

/-- Names that agree with the action so far. -/
theorem loop_agree {entries : List (Bytes × Bool)} {b : Bool}
    (booleans : ∀ e ∈ entries, getBool e.1 = .ok e.2) (agree : ∀ e ∈ entries, e.2 = b)
    (identifiers : Finset ControlIdentifier) :
    (entries.map Prod.fst).foldlM (Locking.pass getBool)
        ⟨true, identifiers, some (Locking.actionFor b)⟩ =
      .ok ⟨true, identifiers ∪ named (entries.map Prod.fst), some (Locking.actionFor b)⟩ := by
  induction entries generalizing identifiers with
  | nil => simp [named, pure, Except.pure]
  | cons e rest ih =>
    obtain ⟨value, booleans⟩ := List.forall_mem_cons.mp booleans
    obtain ⟨rfl, agree⟩ := List.forall_mem_cons.mp agree
    have step := pass_of_getBool (s := ⟨true, identifiers, some (Locking.actionFor e.2)⟩) value
    rw [if_neg (fun h => h.2 rfl)] at step
    rw [List.map_cons, List.foldlM_cons, step,
      named_cons identifiers e.1 (rest.map Prod.fst)]
    exact ih booleans agree _

/-- A name that disagrees with the action so far. -/
theorem loop_differ {entries : List (Bytes × Bool)} {b : Bool}
    (booleans : ∀ e ∈ entries, getBool e.1 = .ok e.2) (differ : ∃ e ∈ entries, e.2 ≠ b)
    (identifiers : Finset ControlIdentifier) :
    (entries.map Prod.fst).foldlM (Locking.pass getBool)
        ⟨true, identifiers, some (Locking.actionFor b)⟩ = .error Locking.conflict := by
  induction entries generalizing identifiers with
  | nil =>
    obtain ⟨e, inside, -⟩ := differ
    cases inside
  | cons e rest ih =>
    obtain ⟨value, booleans⟩ := List.forall_mem_cons.mp booleans
    have step := pass_of_getBool (s := ⟨true, identifiers, some (Locking.actionFor b)⟩) value
    rw [List.map_cons, List.foldlM_cons, step]
    by_cases same : e.2 = b
    · subst same
      obtain ⟨later, inside, other⟩ := differ
      have inside : later ∈ rest := by
        rcases List.mem_cons.mp inside with rfl | inside
        · exact absurd rfl other
        · exact inside
      rw [if_neg (fun h => h.2 rfl)]
      exact ih booleans ⟨later, inside, other⟩ _
    · have changed : some (Locking.actionFor e.2) ≠ some (Locking.actionFor b) := by
        revert same
        cases e.2 <;> cases b <;> decide
      rw [if_pos ⟨rfl, changed⟩]
      rfl

/-- The loop from its start, over names that agree. -/
theorem loop_of_agree {entries : List (Bytes × Bool)} {b : Bool}
    (booleans : ∀ e ∈ entries, getBool e.1 = .ok e.2) (nonempty : entries ≠ [])
    (agree : ∀ e ∈ entries, e.2 = b) :
    (entries.map Prod.fst).foldlM (Locking.pass getBool) Locking.start =
      .ok ⟨true, named (entries.map Prod.fst), some (Locking.actionFor b)⟩ := by
  obtain ⟨e, rest, rfl⟩ := List.exists_cons_of_ne_nil nonempty
  obtain ⟨value, booleans⟩ := List.forall_mem_cons.mp booleans
  obtain ⟨rfl, agree⟩ := List.forall_mem_cons.mp agree
  have step := pass_of_getBool (s := Locking.start) value
  rw [if_neg (fun h => nomatch h.1)] at step
  have whole : ∅ ∪ named [e.1] ∪ named (rest.map Prod.fst) = named (e.1 :: rest.map Prod.fst) := by
    rw [← named_cons]
    ext id
    simp only [Finset.mem_union, Finset.notMem_empty, false_or]
  rw [List.map_cons, List.foldlM_cons, step, ← whole]
  exact loop_agree booleans agree _

/-- The loop from its start, over names that do not agree. -/
theorem loop_of_differ {entries : List (Bytes × Bool)}
    (booleans : ∀ e ∈ entries, getBool e.1 = .ok e.2)
    (differ : ¬ ∃ b, ∀ e ∈ entries, e.2 = b) :
    (entries.map Prod.fst).foldlM (Locking.pass getBool) Locking.start =
      .error Locking.conflict := by
  cases entries with
  | nil => exact absurd ⟨true, fun e inside => nomatch inside⟩ differ
  | cons e rest =>
    obtain ⟨value, booleans⟩ := List.forall_mem_cons.mp booleans
    have step := pass_of_getBool (s := Locking.start) value
    rw [if_neg (fun h => nomatch h.1)] at step
    have disagree : ∃ d ∈ rest, d.2 ≠ e.2 := by
      by_contra all
      push Not at all
      exact differ ⟨e.2, List.forall_mem_cons.mpr ⟨rfl, all⟩⟩
    rw [List.map_cons, List.foldlM_cons, step]
    exact loop_differ booleans disagree _

end Loop

section Requests
variable {here : Bytes} {query : Query} {policyDict : D} {entries : List (Bytes × Bool)} {w : W}

/-- What follows the loop. -/
def submit (conf : Configuration D) (fdb : FdbLocks W) (query : Query)
    (result : Except Exception Locking) (w : W) :
    Except Exception (PolicyStatusGeneratorImpl D) × W :=
  match result with
  | .error x => (.error x, w)
  | .ok locking =>
    match fdb.control (queryToMarsRequest query) locking.action locking.identifiers w with
    | (.error x, w') => (.error x, w')
    | (.ok iter, w') => (PolicyStatusGeneratorImpl.create conf iter [], w')

theorem setPolicy_of_maps (fdb : FdbLocks W) (maps : Maps conf policyDict entries) :
    ∃ getBool : Bytes → Except Exception Bool, (∀ e ∈ entries, getBool e.1 = .ok e.2) ∧
      ∀ w, setPolicy conf fdb here query policyDict w = submit conf fdb query
        ((entries.map Prod.fst).foldlM (Locking.pass getBool) Locking.start) w := by
  refine ⟨conf.getBool (conf.getSubConfiguration policyDict (ascii "access")), maps.booleans, ?_⟩
  intro w
  rw [setPolicy, if_pos maps.has, ← maps.keys]
  rfl

/-- One request is made when the loop ends, and it carries what the loop left. -/
theorem submit_ok (locking : Locking) :
    (submit conf (recorded fdb) query (.ok locking) ([], w)).2.1 =
      [⟨queryToMarsRequest query, locking.action, locking.identifiers⟩] := by
  simp only [submit, recorded, List.nil_append]
  split
  · rename_i answer
    exact (congrArg (fun r => r.2.1) answer).symm
  · rename_i answer
    exact (congrArg (fun r => r.2.1) answer).symm

/-- The control requests of one call of `setPolicy`. -/
def issued (conf : Configuration D) (fdb : FdbLocks W) (here : Bytes) (query : Query)
    (policyDict : D) (w : W) : List ControlRequest :=
  (setPolicy conf (recorded fdb) here query policyDict ([], w)).2.1

/-- The request for a section whose booleans are all `b`. -/
def lockRequest (query : Query) (names : List Bytes) (b : Bool) : ControlRequest :=
  ⟨queryToMarsRequest query, some (if b then .enable else .disable), named names⟩

/-- `setPolicy` applies exactly the policy it was given, or nothing. -/
structure AppliesExactly (conf : Configuration D) (fdb : FdbLocks W) (here : Bytes)
    (query : Query) (policyDict : D) (entries : List (Bytes × Bool)) (w : W) : Prop where
  issues_iff : issued conf fdb here query policyDict w ≠ [] ↔
    entries ≠ [] ∧ ∃ b, ∀ e ∈ entries, e.2 = b
  request : ∀ b, entries ≠ [] → (∀ e ∈ entries, e.2 = b) →
    issued conf fdb here query policyDict w = [lockRequest query (entries.map Prod.fst) b]
  refuses : ¬ (entries ≠ [] ∧ ∃ b, ∀ e ∈ entries, e.2 = b) →
    issued conf fdb here query policyDict w = [] ∧
      ∃ x, (setPolicy conf (recorded fdb) here query policyDict ([], w)).1 = .error x
  order_free : ∀ other order, Maps conf other order → order.Perm entries →
    setPolicy conf (recorded fdb) here query other ([], w) =
      setPolicy conf (recorded fdb) here query policyDict ([], w)
  action_set : ∀ r ∈ issued conf fdb here query policyDict w, r.action ≠ none

theorem issued_of_agree (maps : Maps conf policyDict entries) (nonempty : entries ≠ []) {b : Bool}
    (agree : ∀ e ∈ entries, e.2 = b) :
    issued conf fdb here query policyDict w = [lockRequest query (entries.map Prod.fst) b] := by
  obtain ⟨getBool, booleans, same⟩ := setPolicy_of_maps (recorded fdb) maps
  rw [issued, same, loop_of_agree booleans nonempty agree, submit_ok]
  rfl

theorem setPolicy_of_differ (maps : Maps conf policyDict entries)
    (differ : ¬ ∃ b, ∀ e ∈ entries, e.2 = b) :
    setPolicy conf fdb here query policyDict w = (.error Locking.conflict, w) := by
  obtain ⟨getBool, booleans, same⟩ := setPolicy_of_maps fdb maps
  rw [same, loop_of_differ booleans differ]
  rfl

/-- The names of a section may be enumerated in any order. -/
theorem setPolicy_of_perm (maps : Maps conf policyDict entries) (nonempty : entries ≠ [])
    {other : D} {order : List (Bytes × Bool)} (maps' : Maps conf other order)
    (perm : order.Perm entries) :
    setPolicy conf fdb here query other w = setPolicy conf fdb here query policyDict w := by
  have agreeing (b : Bool) : (∀ e ∈ order, e.2 = b) ↔ ∀ e ∈ entries, e.2 = b :=
    ⟨fun all e inside => all e (perm.mem_iff.mpr inside),
      fun all e inside => all e (perm.mem_iff.mp inside)⟩
  by_cases agree : ∃ b, ∀ e ∈ entries, e.2 = b
  · obtain ⟨b, agree⟩ := agree
    have some' : order ≠ [] := fun empty => nonempty (by simpa only [empty, List.nil_perm] using perm)
    have same_names : named (order.map Prod.fst) = named (entries.map Prod.fst) := by
      ext id
      rw [mem_named, mem_named]
      exact (perm.map Prod.fst).mem_iff
    obtain ⟨getBool, booleans, same⟩ := setPolicy_of_maps fdb maps
    obtain ⟨getBool', booleans', same'⟩ := setPolicy_of_maps fdb maps'
    rw [same, same', loop_of_agree booleans nonempty agree,
      loop_of_agree booleans' some' ((agreeing b).mpr agree), same_names]
  · have differ : ¬ ∃ b, ∀ e ∈ order, e.2 = b := by
      simpa only [agreeing] using agree
    rw [setPolicy_of_differ maps agree, setPolicy_of_differ maps' differ]

theorem issued_of_empty (maps : Maps conf policyDict []) :
    issued conf fdb here query policyDict w = [⟨queryToMarsRequest query, none, ∅⟩] := by
  obtain ⟨getBool, -, same⟩ := setPolicy_of_maps (recorded fdb) maps
  rw [issued, same]
  exact submit_ok Locking.start

/-- A section without names is the only one for which `setPolicy` does otherwise. -/
theorem setPolicy_appliesExactly_iff (maps : Maps conf policyDict entries) :
    AppliesExactly conf fdb here query policyDict entries w ↔ entries ≠ [] := by
  constructor
  · rintro exact rfl
    have first := exact.action_set ⟨queryToMarsRequest query, none, ∅⟩
      (by rw [issued_of_empty maps]; exact List.mem_singleton_self _)
    exact first rfl
  · intro nonempty
    by_cases agree : ∃ b, ∀ e ∈ entries, e.2 = b
    · have apply : ∀ b, (∀ e ∈ entries, e.2 = b) → issued conf fdb here query policyDict w =
          [lockRequest query (entries.map Prod.fst) b] :=
        fun b agree => issued_of_agree maps nonempty agree
      obtain ⟨b, all⟩ := agree
      refine ⟨⟨fun _ => ⟨nonempty, b, all⟩, fun _ => ?_⟩, fun b _ all => apply b all,
        fun refused => absurd ⟨nonempty, b, all⟩ refused,
        fun other order maps' perm => setPolicy_of_perm maps nonempty maps' perm, ?_⟩
      · rw [apply b all]
        exact List.cons_ne_nil _ _
      · intro r inside
        rw [apply b all, List.mem_singleton] at inside
        subst inside
        exact Option.some_ne_none _
    · have nothing : issued conf fdb here query policyDict w = [] := by
        rw [issued, setPolicy_of_differ maps agree]
      refine ⟨⟨fun some => absurd nothing some, fun h => absurd h.2 agree⟩,
        fun b _ all => absurd ⟨b, all⟩ agree,
        fun _ => ⟨nothing, Locking.conflict, by rw [setPolicy_of_differ maps agree]⟩,
        fun other order maps' perm => setPolicy_of_perm maps nonempty maps' perm, ?_⟩
      intro r inside
      rw [nothing] at inside
      cases inside

end Requests

/-- FDB without collections. -/
def emptyFdb : FdbLocks Unit := ⟨fun _ _ _ w => (.ok [], w), fun _ w => (.ok [], w)⟩

theorem setPolicy_disable_list :
    AppliesExactly nodeConfiguration emptyFdb [] Query.new
      [([ascii "access", ascii "list"], some false), ([ascii "access", ascii "flush"], some false)]
      [(ascii "list", false), (ascii "flush", false)] () :=
  (setPolicy_appliesExactly_iff ⟨by decide, by decide, by decide⟩).mpr (List.cons_ne_nil _ _)

/-- A request is issued for an empty section, with an action nobody set. -/
theorem setPolicy_empty_section :
    Maps nodeConfiguration [([ascii "access"], none)] [] ∧
      issued nodeConfiguration emptyFdb [] Query.new [([ascii "access"], none)] () =
        [⟨⟨ascii "retrieve", []⟩, none, ∅⟩] ∧
      ¬ AppliesExactly nodeConfiguration emptyFdb [] Query.new [([ascii "access"], none)] [] () := by
  refine ⟨⟨by decide, by decide, by decide⟩, by decide, ?_⟩
  intro exact
  exact exact.action_set ⟨⟨ascii "retrieve", []⟩, none, ∅⟩ (by decide) rfl

end LockRequests
