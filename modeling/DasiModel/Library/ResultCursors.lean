import DasiModel.Library.Machines
import Mathlib.Data.List.Sublists

/-!
# Two ways to walk through a result

A result of `n` objects answers `iter`, `next` and `len`. A forward cursor is
filled from the start and never goes back; a rewinding one is filled by `iter`
and goes back to the start with each further `iter`. Whether a sequence of calls
tells them apart is decided by the order of the calls alone.
-/

namespace ResultCursors
open Machines

inductive Op where
  | iter
  | next
  | len
  deriving DecidableEq

inductive Observation where
  /-- The call returned the result itself. -/
  | itself
  | yielded (position : Nat)
  | stopped
  | length (n : Int)
  | raised
  deriving DecidableEq

/-- The answer of a filled cursor to `next`. -/
def nextAnswer (n k : Nat) : Observation := if k < n then .yielded k else .stopped

/-- The state is the number of `next` calls. -/
def forward (n : Nat) (k : Nat) : Op → Observation × Nat
  | .iter => (.itself, k)
  | .next => (nextAnswer n k, k + 1)
  | .len => (.length n, k)

/-- The state is the number of `next` calls since the last `iter`, if there was one. -/
def rewinding (n : Nat) : Option Nat → Op → Observation × Option Nat
  | _, .iter => (.itself, some 0)
  | none, .next => (.stopped, none)
  | some j, .next => (nextAnswer n j, some (j + 1))
  | none, .len => (.length 0, none)
  | some j, .len => (.length n, some j)

/-- A filled cursor is rewound after it has moved, and then moved again. -/
def RewoundAndMoved (ops : List Op) : Prop := [Op.next, .iter, .next].Sublist ops

variable {n : Nat}

theorem nextAnswer_moved {k : Nat} (some : 0 < n) (moved : 0 < k) :
    nextAnswer n k ≠ nextAnswer n 0 := by
  rw [nextAnswer, nextAnswer, if_pos some]
  split
  · intro same
    cases same
    omega
  · exact Observation.noConfusion

/-- After a rewinding the next move tells the cursors apart. -/
theorem trace_eq_iff_of_rewound {k : Nat} (some : 0 < n) (moved : 0 < k) (ops : List Op) :
    trace (forward n) k ops = trace (rewinding n) (.some 0) ops ↔ ¬ [Op.next].Sublist ops := by
  induction ops with
  | nil => simp
  | cons op rest ih =>
    cases op with
    | iter => simpa [forward, rewinding] using ih
    | len => simpa [forward, rewinding] using ih
    | next =>
      have differ := nextAnswer_moved some moved
      simp [forward, rewinding, differ]

/-- In step, after a move: apart as soon as there is a rewinding and a further move. -/
theorem trace_eq_iff_of_moved {k : Nat} (some : 0 < n) (moved : 0 < k) (ops : List Op) :
    trace (forward n) k ops = trace (rewinding n) (.some k) ops ↔
      ¬ [Op.iter, .next].Sublist ops := by
  induction ops generalizing k with
  | nil => simp
  | cons op rest ih =>
    cases op with
    | iter =>
      have rewound := trace_eq_iff_of_rewound some moved rest
      simpa [forward, rewinding, List.cons_sublist_cons] using rewound
    | len => simpa [forward, rewinding, List.sublist_cons_iff] using ih moved
    | next => simpa [forward, rewinding, List.sublist_cons_iff] using ih (Nat.succ_pos k)

/-- In step, before the first move. -/
theorem trace_eq_iff_of_unmoved (some : 0 < n) (ops : List Op) :
    trace (forward n) 0 ops = trace (rewinding n) (.some 0) ops ↔ ¬ RewoundAndMoved ops := by
  induction ops with
  | nil => simp [RewoundAndMoved]
  | cons op rest ih =>
    cases op with
    | iter => simpa [forward, rewinding, RewoundAndMoved, List.sublist_cons_iff] using ih
    | len => simpa [forward, rewinding, RewoundAndMoved, List.sublist_cons_iff] using ih
    | next =>
      have moved := trace_eq_iff_of_moved some (Nat.succ_pos 0) rest
      simpa [forward, rewinding, RewoundAndMoved, List.cons_sublist_cons] using moved

/-- Whatever the calls, an empty result is walked through in one way. -/
theorem trace_eq_of_empty (ops : List Op) :
    trace (forward 0) 0 ops = trace (rewinding 0) none ops := by
  apply trace_eq_of_simulation (R := fun _ _ => True) _ trivial
  rintro k j op -
  cases op <;> cases j <;> simp [forward, rewinding, nextAnswer]

/-- From the start, the cursors answer alike exactly if the result is empty, or the calls
begin with `iter` and never rewind a cursor that has moved to move it again. -/
theorem trace_eq_iff (n : Nat) (ops : List Op) :
    trace (forward n) 0 ops = trace (rewinding n) none ops ↔
      n = 0 ∨ (∀ op ∈ ops.head?, op = .iter) ∧ ¬ RewoundAndMoved ops := by
  rcases Nat.eq_zero_or_pos n with rfl | some
  · exact iff_of_true (trace_eq_of_empty ops) (Or.inl rfl)
  · rw [or_iff_right (Nat.ne_of_gt some)]
    cases ops with
    | nil => simp [RewoundAndMoved]
    | cons op rest =>
      cases op with
      | iter =>
        have unmoved := trace_eq_iff_of_unmoved some rest
        simpa [forward, rewinding, RewoundAndMoved, List.sublist_cons_iff] using unmoved
      | len =>
        refine iff_of_false ?_ (by simp)
        simp [forward, rewinding]
        omega
      | next =>
        refine iff_of_false ?_ (by simp)
        simp [forward, rewinding, nextAnswer, some]

end ResultCursors
