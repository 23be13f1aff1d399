import DasiModel.Library.Machines

/-!
# Refinement of a specification that leaves choices

A specification says which answers and next states an input may have; a machine
has one of each. A view of the states of a machine under which every step is an
allowed one turns each of its runs into a run of the specification, so what all
runs of the specification keep is kept by the machine.
-/

namespace Refinements
open Machines

universe u v w x y
variable {S : Type u} {I : Type v} {O : Type w} {A : Type x} {J : Type y}

/-- The runs of a specification, with their inputs and answers. -/
inductive Runs (allowed : A → J → O → A → Prop) : A → List (J × O) → A → Prop where
  | nil (a : A) : Runs allowed a [] a
  | cons {a b c : A} {j : J} {o : O} {rest : List (J × O)} :
    allowed a j o b → Runs allowed b rest c → Runs allowed a ((j, o) :: rest) c

/-- The state between two parts of a run. -/
theorem Runs.split {allowed : A → J → O → A → Prop} {a c : A} {left right : List (J × O)}
    (runs : Runs allowed a (left ++ right) c) :
    ∃ b, Runs allowed a left b ∧ Runs allowed b right c := by
  induction left generalizing a with
  | nil => exact ⟨a, .nil a, runs⟩
  | cons entry rest ih =>
    cases runs with
    | cons step later =>
      obtain ⟨b, first, second⟩ := ih later
      exact ⟨b, .cons step first, second⟩

/-- What every allowed step keeps, every run keeps, if its inputs and answers are such. -/
theorem Runs.keeps {allowed : A → J → O → A → Prop} {P : A → Prop} {Q : J → O → Prop}
    (preserved : ∀ {a j o b}, allowed a j o b → Q j o → P a → P b) {a b : A}
    {run : List (J × O)} (runs : Runs allowed a run b) (given : ∀ entry ∈ run, Q entry.1 entry.2)
    (start : P a) : P b := by
  induction runs with
  | nil a => exact start
  | cons step _ ih =>
    obtain ⟨here, later⟩ := List.forall_mem_cons.mp given
    exact ih later (preserved step here start)

/-- Inputs that meet a condition in the state in which each of them is given. -/
def Throughout (step : S → I → O × S) (ok : S → I → Prop) : S → List I → Prop
  | _, [] => True
  | s, i :: rest => ok s i ∧ Throughout step ok (step s i).2 rest

theorem throughout_of_forall {step : S → I → O × S} {ok : I → Prop} (s : S) {inputs : List I}
    (given : ∀ i ∈ inputs, ok i) : Throughout step (fun _ i => ok i) s inputs := by
  induction inputs generalizing s with
  | nil => trivial
  | cons i rest ih =>
    obtain ⟨here, later⟩ := List.forall_mem_cons.mp given
    exact ⟨here, ih (step s i).2 later⟩

theorem after_keeps_of_throughout {step : S → I → O × S} {ok : S → I → Prop} {P : S → Prop}
    (preserved : ∀ s i, ok s i → P s → P (step s i).2) {s : S} {inputs : List I}
    (given : Throughout step ok s inputs) (start : P s) : P (after step s inputs) := by
  induction inputs generalizing s with
  | nil => exact start
  | cons i rest ih => exact ih given.2 (preserved s i given.1 start)

/-- A machine whose steps are allowed under a view has allowed runs. -/
theorem runs_of_view {step : S → I → O × S} {allowed : A → J → O → A → Prop} {view : S → A}
    {rename : I → J} {P : I → Prop}
    (allows : ∀ s i, P i → allowed (view s) (rename i) (step s i).1 (view (step s i).2))
    (s : S) {inputs : List I} (given : ∀ i ∈ inputs, P i) :
    Runs allowed (view s) ((trace step s inputs).map (fun entry => (rename entry.1, entry.2)))
      (view (after step s inputs)) := by
  induction inputs generalizing s with
  | nil => exact .nil _
  | cons i rest ih =>
    obtain ⟨here, later⟩ := List.forall_mem_cons.mp given
    exact .cons (allows s i here) (ih (step s i).2 later)

/-- A machine whose steps simulate allowed ones has the answers of an allowed run. -/
theorem runs_of_simulation {step : S → I → O × S} {allowed : A → J → O → A → Prop}
    {R : S → A → Prop} {rename : I → J} {P : I → Prop}
    (simulates : ∀ {s a} i, P i → R s a →
      ∃ b, allowed a (rename i) (step s i).1 b ∧ R (step s i).2 b)
    {s : S} {a : A} (start : R s a) {inputs : List I} (given : ∀ i ∈ inputs, P i) :
    ∃ b, Runs allowed a ((trace step s inputs).map (fun entry => (rename entry.1, entry.2))) b ∧
      R (after step s inputs) b := by
  induction inputs generalizing s a with
  | nil => exact ⟨a, .nil a, start⟩
  | cons i rest ih =>
    obtain ⟨here, later⟩ := List.forall_mem_cons.mp given
    obtain ⟨b, allows, related⟩ := simulates i here start
    obtain ⟨c, runs, ended⟩ := ih related later
    exact ⟨c, .cons allows runs, ended⟩

end Refinements
