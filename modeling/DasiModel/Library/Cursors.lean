import DasiModel.Library.Machines
import Mathlib.Data.List.Count

/-!
# Prefetching cursors over a finite list

A cursor is a machine some of whose inputs move it along a list. A move either
fails, delivers the next element, or finds the end. The position that matters
is the number of moves that did not fail: before the first of them the element
in hand is already the first one, afterwards it is the last one moved to.
Failures are paid for from a budget, so a cursor cannot fail forever.
-/

namespace Cursors
open Machines

universe u v w x
variable {H : Type u} {I : Type v} {O : Type w} {T : Type x}

/-- How a call that moves a cursor ends. -/
inductive Advance where
  | failed
  | delivered
  | complete
  deriving DecidableEq

/-- What a stream hands out on request: an element, or a failure to get one. -/
inductive Event (E : Type u) (X : Type v) where
  | element (e : E)
  | failure (x : X)

def elements {E : Type u} {X : Type v} : List (Event E X) → List E
  | [] => []
  | .element e :: rest => e :: elements rest
  | .failure _ :: rest => elements rest

def failures {E : Type u} {X : Type v} : List (Event E X) → Nat
  | [] => 0
  | .element _ :: rest => failures rest
  | .failure _ :: rest => failures rest + 1

@[simp] theorem elements_map_element {E : Type u} {X : Type v} (es : List E) :
    elements (es.map (Event.element (X := X))) = es := by
  induction es with
  | nil => rfl
  | cons e rest ih => simp only [List.map_cons, elements, ih]

@[simp] theorem failures_map_element {E : Type u} {X : Type v} (es : List E) :
    failures (es.map (Event.element (X := X))) = 0 := by
  induction es with
  | nil => rfl
  | cons e rest ih => simpa only [List.map_cons, failures] using ih

/-- The element in hand after `k` moves that did not fail. -/
def inHand (s : List T) (k : Nat) : Option T := s[k - 1]?

@[simp] theorem inHand_zero (s : List T) : inHand s 0 = s[0]? := rfl

@[simp] theorem inHand_succ (s : List T) (k : Nat) : inHand s (k + 1) = s[k]? := rfl

theorem inHand_map {U : Type u} (f : T → U) (s : List T) (k : Nat) :
    inHand (s.map f) k = (inHand s k).map f := by
  simp only [inHand, List.getElem?_map]

/-- A run of a cursor, seen as a list of answers to its moving inputs. -/
def moved (moves : I → Bool) (verdict : O → Advance) (entry : I × O) : Option Advance :=
  if moves entry.1 then some (verdict entry.2) else none

/-- Moves that did not fail. -/
def passes (moves : I → Bool) (verdict : O → Advance) (run : List (I × O)) : Nat :=
  run.countP (fun entry => moved moves verdict entry = some .delivered ∨
    moved moves verdict entry = some .complete)

def deliveries (moves : I → Bool) (verdict : O → Advance) (run : List (I × O)) : Nat :=
  run.countP (fun entry => moved moves verdict entry = some .delivered)

def misses (moves : I → Bool) (verdict : O → Advance) (run : List (I × O)) : Nat :=
  run.countP (fun entry => moved moves verdict entry = some .failed)

/-- One step of a cursor over `s`: `At k h` says that state `h` has made `k`
moves without failing, and `budget` bounds the failures still to come. -/
structure Tracks (step : H → I → O × H) (moves : I → Bool) (verdict : O → Advance)
    (budget : H → Nat) (s : List T) (At : Nat → H → Prop) : Prop where
  reads : ∀ {k h i}, At k h → moves i = false → (step h i).2 = h
  failed : ∀ {k h i}, At k h → moves i = true → verdict (step h i).1 = .failed →
    At k (step h i).2 ∧ budget (step h i).2 + 1 = budget h
  delivered : ∀ {k h i}, At k h → moves i = true → verdict (step h i).1 = .delivered →
    At (k + 1) (step h i).2 ∧ budget (step h i).2 = budget h ∧ k < s.length
  complete : ∀ {k h i}, At k h → moves i = true → verdict (step h i).1 = .complete →
    At (k + 1) (step h i).2 ∧ budget (step h i).2 = budget h ∧ s.length ≤ k

section Runs
variable {step : H → I → O × H} {moves : I → Bool} {verdict : O → Advance}
  {budget : H → Nat} {s : List T} {At : Nat → H → Prop}

/-- The counters of a whole run, from any position. -/
theorem Tracks.run_from (tracks : Tracks step moves verdict budget s At)
    {k : Nat} {h : H} (start : At k h) (history : List I) :
    let run := trace step h history
    At (k + passes moves verdict run) (after step h history) ∧
      min k s.length + deliveries moves verdict run =
        min (k + passes moves verdict run) s.length ∧
      misses moves verdict run + budget (after step h history) = budget h := by
  induction history generalizing k h with
  | nil => exact ⟨start, rfl, Nat.zero_add _⟩
  | cons i rest ih =>
    simp only [trace_cons, after_cons, passes, deliveries, misses, List.countP_cons, moved]
    simp only [passes, deliveries, misses, moved] at ih
    cases hm : moves i with
    | false =>
      have same := tracks.reads start hm
      simpa only [hm, same, Bool.false_eq_true, if_false, reduceCtorEq, or_self,
        decide_false, Nat.add_zero] using ih start
    | true =>
      cases hv : verdict (step h i).1 with
      | failed =>
        obtain ⟨stays, paid⟩ := tracks.failed start hm hv
        obtain ⟨position, delivered, missed⟩ := ih stays
        simp at position delivered missed ⊢
        exact ⟨position, delivered, by omega⟩
      | delivered =>
        obtain ⟨moves_on, paid, room⟩ := tracks.delivered start hm hv
        obtain ⟨position, delivered, missed⟩ := ih moves_on
        simp at position delivered missed ⊢
        exact ⟨by rwa [Nat.add_right_comm, Nat.add_assoc] at position, by omega, by omega⟩
      | complete =>
        obtain ⟨moves_on, paid, past⟩ := tracks.complete start hm hv
        obtain ⟨position, delivered, missed⟩ := ih moves_on
        simp at position delivered missed ⊢
        exact ⟨by rwa [Nat.add_right_comm, Nat.add_assoc] at position, by omega, by omega⟩

/-- A run from the start: position, number of elements handed out, failures. -/
theorem Tracks.run (tracks : Tracks step moves verdict budget s At)
    {h : H} (start : At 0 h) (history : List I) :
    let run := trace step h history
    At (passes moves verdict run) (after step h history) ∧
      deliveries moves verdict run = min (passes moves verdict run) s.length ∧
      misses moves verdict run + budget (after step h history) = budget h := by
  simpa only [Nat.zero_add, Nat.zero_min] using tracks.run_from start history

end Runs

end Cursors
