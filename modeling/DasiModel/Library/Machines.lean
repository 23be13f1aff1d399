import Mathlib.Data.List.Basic

/-!
# Deterministic machines and their runs

A step takes a state and an input to an output and the next state. Runs are
folds over finite input lists; nothing is assumed about termination or about
which inputs are enabled. The three rules proved here are invariance, lockstep
simulation, and erasure of inputs that leave the rest of a run unobserved.
-/

namespace Machines

universe u v w x
variable {S : Type u} {T : Type v} {I : Type w} {O : Type x}

/-- The state reached after a finite list of inputs. -/
def after (step : S → I → O × S) : S → List I → S
  | s, [] => s
  | s, i :: rest => after step (step s i).2 rest

/-- Every input of the run, paired with the answer it received. -/
def trace (step : S → I → O × S) : S → List I → List (I × O)
  | _, [] => []
  | s, i :: rest => (i, (step s i).1) :: trace step (step s i).2 rest

@[simp] theorem after_nil (step : S → I → O × S) (s : S) : after step s [] = s := rfl

@[simp] theorem after_cons (step : S → I → O × S) (s : S) (i : I) (rest : List I) :
    after step s (i :: rest) = after step (step s i).2 rest := rfl

@[simp] theorem trace_nil (step : S → I → O × S) (s : S) : trace step s [] = [] := rfl

@[simp] theorem trace_cons (step : S → I → O × S) (s : S) (i : I) (rest : List I) :
    trace step s (i :: rest) = (i, (step s i).1) :: trace step (step s i).2 rest := rfl

theorem after_append (step : S → I → O × S) (s : S) (left right : List I) :
    after step s (left ++ right) = after step (after step s left) right := by
  induction left generalizing s with
  | nil => rfl
  | cons i rest ih => exact ih (step s i).2

theorem trace_append (step : S → I → O × S) (s : S) (left right : List I) :
    trace step s (left ++ right) =
      trace step s left ++ trace step (after step s left) right := by
  induction left generalizing s with
  | nil => rfl
  | cons i rest ih => simp only [List.cons_append, trace_cons, after_cons, ih]

theorem after_concat (step : S → I → O × S) (s : S) (history : List I) (i : I) :
    after step s (history ++ [i]) = (step (after step s history) i).2 := by
  rw [after_append]
  rfl

/-- The entry of a run at a position: the input there, answered in the state before. -/
theorem trace_getElem? (step : S → I → O × S) (s : S) (history : List I) (n : Nat) :
    (trace step s history)[n]? =
      history[n]?.map (fun i => (i, (step (after step s (history.take n)) i).1)) := by
  induction history generalizing s n with
  | nil => rfl
  | cons i rest ih =>
    cases n with
    | zero => rfl
    | succ n => simpa only [trace_cons, List.getElem?_cons_succ, List.take_succ_cons, after_cons]
        using ih (step s i).2 n

/-- What every step keeps, every run keeps. -/
theorem after_invariant {step : S → I → O × S} {P : S → Prop}
    (preserved : ∀ s i, P s → P (step s i).2) {s : S} (start : P s) (history : List I) :
    P (after step s history) := by
  induction history generalizing s with
  | nil => exact start
  | cons i rest ih => exact ih (preserved s i start)

/-- Two machines in lockstep on some of the inputs answer alike on these. -/
theorem trace_eq_of_simulation_on {left : S → I → O × S} {right : T → I → O × T}
    {R : S → T → Prop} {P : I → Prop}
    (lockstep : ∀ s t i, P i → R s t →
      (left s i).1 = (right t i).1 ∧ R (left s i).2 (right t i).2)
    {s : S} {t : T} (start : R s t) {history : List I} (given : ∀ i ∈ history, P i) :
    trace left s history = trace right t history := by
  induction history generalizing s t with
  | nil => rfl
  | cons i rest ih =>
    obtain ⟨here, later⟩ := List.forall_mem_cons.mp given
    obtain ⟨same, related⟩ := lockstep s t i here start
    simp only [trace_cons, same, ih related later]

/-- Two machines in lockstep answer alike, whatever the inputs. -/
theorem trace_eq_of_simulation {left : S → I → O × S} {right : T → I → O × T}
    {R : S → T → Prop}
    (lockstep : ∀ s t i, R s t → (left s i).1 = (right t i).1 ∧ R (left s i).2 (right t i).2)
    {s : S} {t : T} (start : R s t) (history : List I) :
    trace left s history = trace right t history :=
  trace_eq_of_simulation_on (P := fun _ => True) (fun s t i _ related => lockstep s t i related)
    start (fun _ _ => trivial)

/-- In lockstep the states stay related as well. -/
theorem after_related {left : S → I → O × S} {right : T → I → O × T} {R : S → T → Prop}
    (lockstep : ∀ s t i, R s t → (left s i).1 = (right t i).1 ∧ R (left s i).2 (right t i).2)
    {s : S} {t : T} (start : R s t) (history : List I) :
    R (after left s history) (after right t history) := by
  induction history generalizing s t with
  | nil => exact start
  | cons i rest ih => exact ih (lockstep s t i start).2

/-- Inputs whose steps stay inside the relation can be deleted from a run:
the remaining inputs receive the answers they had before. -/
theorem trace_filter_of_erasure {step : S → I → O × S} {keep : I → Bool}
    {R : S → S → Prop}
    (kept : ∀ s t i, keep i = true → R s t →
      (step s i).1 = (step t i).1 ∧ R (step s i).2 (step t i).2)
    (dropped : ∀ s t i, keep i = false → R s t → R (step s i).2 t)
    {s t : S} (start : R s t) (history : List I) :
    (trace step s history).filter (fun entry => keep entry.1) =
      trace step t (history.filter keep) := by
  induction history generalizing s t with
  | nil => rfl
  | cons i rest ih =>
    cases visible : keep i with
    | true =>
      obtain ⟨same, related⟩ := kept s t i visible start
      simp only [trace_cons, List.filter_cons, visible, if_true, same, ih related]
    | false =>
      simpa only [trace_cons, List.filter_cons, visible, Bool.false_eq_true, if_false] using
        ih (dropped s t i visible start)

end Machines
