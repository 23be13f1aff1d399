import DasiModel.Library.Refinements
import Mathlib.Data.Set.Defs

/-!
# Tables of settings

Collections have settings. An assignment gives a value to some settings of all the
collections that a query finds, a report shows some settings of each of them. An
assignment that fails may have been carried out in part. Over any run, what the
reports show of a setting is what was assigned to it last.
-/

namespace SettingTables
open Refinements

universe u v w x y
variable {C : Type u} {I : Type v} {V : Type w} {Q : Type x} {X : Type y}

/-- The settings of the collections that exist. -/
abbrev Table (C : Type u) (I : Type v) (V : Type w) := C → Option (I → V)

namespace Table

def setting (table : Table C I V) (c : C) (i : I) : Option V := (table c).map (fun own => own i)

end Table

structure Assignment (I : Type v) (V : Type w) (Q : Type x) where
  query : Q
  names : I → Prop
  value : V

/-- The assignment gives its value to this setting. -/
def Assignment.Covers (finds : Q → C → Prop) (assignment : Assignment I V Q) (c : C) (i : I) :
    Prop :=
  finds assignment.query c ∧ assignment.names i

/-- Some settings that are covered may have been given the value, and no other is changed. -/
structure Partly (finds : Q → C → Prop) (assignment : Assignment I V Q)
    (table table' : Table C I V) : Prop where
  collections : ∀ c, (table' c).isSome = (table c).isSome
  each : ∀ c i, table'.setting c i = table.setting c i ∨
    assignment.Covers finds c i ∧ table'.setting c i = some assignment.value

/-- All settings that are covered have the value. -/
structure Wholly (finds : Q → C → Prop) (assignment : Assignment I V Q)
    (table table' : Table C I V) : Prop extends Partly finds assignment table table' where
  covered : ∀ c i, assignment.Covers finds c i → (table c).isSome →
    table'.setting c i = some assignment.value

inductive Request (I : Type v) (V : Type w) (Q : Type x) where
  /-- What stands for no assignment is `none`. -/
  | assign (assignment : Option (Assignment I V Q))
  | report (query : Q) (shown : I → Prop)

/-- The query of a request that reports, and the settings that it shows. -/
def Request.shows : Request I V Q → Option (Q × (I → Prop))
  | .assign none => none
  | .assign (some assignment) => some (assignment.query, fun _ => True)
  | .report query shown => some (query, shown)

/-- What is shown of the collections, and the failure that ended the report. -/
structure Answer (C : Type u) (I : Type v) (V : Type w) (X : Type y) where
  reports : List (C × (I → Option V))
  raised : Option X

/-- The reports show the table, and all of it that the query finds unless they fail. -/
structure Tells (finds : Q → C → Prop) (table : Table C I V) (query : Q) (shown : I → Prop)
    (answer : Answer C I V X) : Prop where
  found : ∀ report ∈ answer.reports, finds query report.1
  values : ∀ report ∈ answer.reports, ∀ i, shown i → report.2 i = table.setting report.1 i
  others : ∀ report ∈ answer.reports, ∀ i, ¬ shown i → report.2 i = none
  complete : answer.raised = none → ∀ c, (table c).isSome → finds query c →
    ∃ report ∈ answer.reports, report.1 = c

/-- What may be answered to a request, and the table afterwards. -/
inductive Allowed (finds : Q → C → Prop) (table : Table C I V) :
    Request I V Q → Answer C I V X → Table C I V → Prop where
  | assigned {assignment : Assignment I V Q} {answer : Answer C I V X} {table' : Table C I V}
    (made : Partly finds assignment table table')
    (whole : answer.raised = none → Wholly finds assignment table table')
    (tells : Tells finds table' assignment.query (fun _ => True) answer) :
    Allowed finds table (.assign (some assignment)) answer table'
  | refused {assignment : Option (Assignment I V Q)} {x : X} :
    Allowed finds table (.assign assignment) ⟨[], some x⟩ table
  | reported {query : Q} {shown : I → Prop} {answer : Answer C I V X}
    (tells : Tells finds table query shown answer) :
    Allowed finds table (.report query shown) answer table

/-- The request assigns nothing to this setting. -/
def Request.Spares (finds : Q → C → Prop) (c : C) (i : I) (request : Request I V Q) : Prop :=
  ∀ assignment, request = .assign (some assignment) → ¬ assignment.Covers finds c i

variable {finds : Q → C → Prop} {a b : Table C I V}

theorem Partly.spared {assignment : Assignment I V Q} (made : Partly finds assignment a b)
    {c : C} {i : I} (spared : ¬ assignment.Covers finds c i) :
    b.setting c i = a.setting c i := by
  rcases made.each c i with same | ⟨covered, -⟩
  · exact same
  · exact absurd covered spared

/-- A setting that is spared keeps its value. -/
theorem Allowed.keeps {request : Request I V Q} {answer : Answer C I V X}
    (allowed : Allowed finds a request answer b) {c : C} {i : I}
    (spares : request.Spares finds c i) : b.setting c i = a.setting c i := by
  cases allowed with
  | assigned made whole tells => exact made.spared (spares _ rfl)
  | refused => rfl
  | reported tells => rfl

theorem Allowed.collections {request : Request I V Q} {answer : Answer C I V X}
    (allowed : Allowed finds a request answer b) (c : C) : (b c).isSome = (a c).isSome := by
  cases allowed with
  | assigned made whole tells => exact made.collections c
  | refused => rfl
  | reported tells => rfl

/-- What a request shows is the table that it leaves. -/
theorem Allowed.tells {request : Request I V Q} {answer : Answer C I V X}
    (allowed : Allowed finds a request answer b) {query : Q} {shown : I → Prop}
    (shows : request.shows = some (query, shown)) : Tells finds b query shown answer := by
  cases allowed with
  | assigned made whole tells =>
    cases shows
    exact tells
  | refused =>
    refine ⟨List.forall_mem_nil _, List.forall_mem_nil _, List.forall_mem_nil _, ?_⟩
    intro complete
    cases complete
  | reported tells =>
    cases shows
    exact tells

/-- A request shows the value of a setting, in every report of the collection, and reports the
collection if it is found and nothing fails. -/
structure Showing (finds : Q → C → Prop) (c : C) (i : I) (value : V) (request : Request I V Q)
    (answer : Answer C I V X) : Prop where
  value : ∀ query shown, request.shows = some (query, shown) →
    ∀ report ∈ answer.reports, report.1 = c → shown i → report.2 i = some value
  there : ∀ query shown, request.shows = some (query, shown) → answer.raised = none →
    finds query c → ∃ report ∈ answer.reports, report.1 = c

theorem Allowed.showing {request : Request I V Q} {answer : Answer C I V X}
    (allowed : Allowed finds a request answer b) {c : C} {i : I} {value : V}
    (after : b.setting c i = some value) : Showing finds c i value request answer := by
  have exists_ : (b c).isSome := by
    obtain ⟨own, held, -⟩ := Option.map_eq_some_iff.mp after
    rw [held]
    rfl
  constructor
  · rintro query shown shows report inside rfl visible
    exact ((allowed.tells shows).values report inside i visible).trans after
  · intro query shown shows complete finding
    exact (allowed.tells shows).complete complete c exists_ finding

/-- What is not assigned to is shown as it was. -/
theorem spared_shown {run : List (Request I V Q × Answer C I V X)}
    (runs : Runs (Allowed finds) a run b) {c : C} {i : I} {value : V}
    (before : a.setting c i = some value) (spared : ∀ entry ∈ run, entry.1.Spares finds c i) :
    b.setting c i = some value ∧
      ∀ entry ∈ run, Showing finds c i value entry.1 entry.2 := by
  induction runs with
  | nil => exact ⟨before, List.forall_mem_nil _⟩
  | cons allowed _ ih =>
    obtain ⟨here, later⟩ := List.forall_mem_cons.mp spared
    have after := (allowed.keeps here).trans before
    obtain ⟨ended, shown⟩ := ih after later
    exact ⟨ended, List.forall_mem_cons.mpr ⟨allowed.showing after, shown⟩⟩

/-- What was assigned last is shown, by the assignment itself and from then on. -/
theorem assigned_shown {r₁ r₂ : List (Request I V Q × Answer C I V X)}
    {assignment : Assignment I V Q} {answer : Answer C I V X}
    (runs : Runs (Allowed finds) a (r₁ ++ (.assign (some assignment), answer) :: r₂) b)
    (done : answer.raised = none) {c : C} {i : I} (exists_ : (a c).isSome)
    (covers : assignment.Covers finds c i) (spared : ∀ entry ∈ r₂, entry.1.Spares finds c i) :
    b.setting c i = some assignment.value ∧
      ∀ entry ∈ (.assign (some assignment), answer) :: r₂,
        Showing finds c i assignment.value entry.1 entry.2 := by
  obtain ⟨a₁, first, second⟩ := runs.split
  have exists₁ : (a₁ c).isSome := by
    refine first.keeps (P := fun table => (table c).isSome) (Q := fun _ _ => True) ?_
      (fun _ _ => trivial) exists_
    intro table request answer table' allowed _ held
    rwa [allowed.collections c]
  cases second with
  | cons allowed later =>
    cases allowed with
    | refused => cases done
    | assigned made whole tells =>
      have after := (whole done).covered c i covers exists₁
      obtain ⟨ended, shown⟩ := spared_shown later after spared
      refine ⟨ended, List.forall_mem_cons.mpr ⟨?_, shown⟩⟩
      exact (Allowed.assigned made whole tells).showing after

end SettingTables
