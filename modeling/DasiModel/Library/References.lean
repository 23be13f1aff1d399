import Mathlib.Data.List.Basic
import Mathlib.Logic.Function.Basic

/-!
# Variables that refer to objects

Two variables may refer to one object; what a method does to it is seen through
both. Programs over objects that stay related answer alike.
-/

namespace References

universe u v w x
variable {N : Type u} {Q : Type v} {D : Type w} {A : Type x}

/-- Variables, and the objects by their position. -/
structure Scope (N : Type u) (Q : Type v) where
  names : N → Option Nat
  objects : List Q

namespace Scope

def start : Scope N Q := ⟨fun _ => none, []⟩

/-- A method of the object that a variable refers to, if it refers to one. -/
def call (s : Scope N Q) (name : N) (method : Q → A × Q) : Option A × Scope N Q :=
  match s.names name with
  | none => (none, s)
  | some i =>
    match s.objects[i]? with
    | none => (none, s)
    | some q => (some (method q).1, { s with objects := s.objects.set i (method q).2 })

variable [DecidableEq N]

/-- The variable refers to a new object. -/
def new (s : Scope N Q) (name : N) (q : Q) : Scope N Q :=
  ⟨Function.update s.names name (some s.objects.length), s.objects ++ [q]⟩

/-- The variable refers to whatever the other one refers to. -/
def same (s : Scope N Q) (name other : N) : Option Unit × Scope N Q :=
  match s.names other with
  | some i => (some (), { s with names := Function.update s.names name (some i) })
  | none => (none, s)

/-- The object made last, and called under its own name. -/
theorem call_new (s : Scope N Q) (name : N) (q : Q) (method : Q → A × Q) :
    (s.new name q).call name method = (some (method q).1, s.new name (method q).2) := by
  have last : (s.objects ++ [q])[s.objects.length]? = some q := by simp
  simp only [call, new, Function.update_self, last]
  rw [List.set_append_right _ _ (Nat.le_refl _), Nat.sub_self, List.set_cons_zero]

end Scope

/-- The variables refer alike, and what they refer to is related. -/
structure Related (R : Q → D → Prop) (s : Scope N Q) (t : Scope N D) : Prop where
  names : s.names = t.names
  length : s.objects.length = t.objects.length
  objects : ∀ {i : Nat} {q : Q} {d : D}, s.objects[i]? = some q → t.objects[i]? = some d → R q d

namespace Related
variable {R : Q → D → Prop} {s : Scope N Q} {t : Scope N D}

theorem start : Related R (Scope.start : Scope N Q) Scope.start where
  names := rfl
  length := rfl
  objects := by
    intro i q d hq
    cases hq

/-- Related objects answer alike, and so do the variables that refer to them. -/
theorem call (related : Related R s t) (name : N) {method : Q → A × Q} {method' : D → A × D}
    (agree : ∀ q d, R q d → (method q).1 = (method' d).1 ∧ R (method q).2 (method' d).2) :
    (s.call name method).1 = (t.call name method').1 ∧
      Related R (s.call name method).2 (t.call name method').2 := by
  have names := related.names
  have length := related.length
  cases hi : s.names name with
  | none =>
    have hi' : t.names name = none := by rw [← names, hi]
    simp only [Scope.call, hi, hi']
    exact ⟨trivial, related⟩
  | some i =>
    have hi' : t.names name = some i := by rw [← names, hi]
    by_cases room : i < s.objects.length
    · have hq := List.getElem?_eq_getElem room
      have hd := List.getElem?_eq_getElem (show i < t.objects.length by omega)
      obtain ⟨same, after⟩ := agree _ _ (related.objects hq hd)
      simp only [Scope.call, hi, hi', hq, hd]
      refine ⟨congrArg some same, names, ?_, ?_⟩
      · simp only [List.length_set, length]
      · intro j q d hj hj'
        rw [List.getElem?_set] at hj hj'
        by_cases here : i = j
        · rw [if_pos here, if_pos (by omega)] at hj
          rw [if_pos here, if_pos (by omega)] at hj'
          cases hj
          cases hj'
          exact after
        · rw [if_neg here] at hj hj'
          exact related.objects hj hj'
    · have hq : s.objects[i]? = none := List.getElem?_eq_none (by omega)
      have hd : t.objects[i]? = none := List.getElem?_eq_none (by omega)
      simp only [Scope.call, hi, hi', hq, hd]
      exact ⟨trivial, related⟩

variable [DecidableEq N]

theorem new (related : Related R s t) (name : N) {q : Q} {d : D} (one : R q d) :
    Related R (s.new name q) (t.new name d) where
  names := by simp only [Scope.new, related.names, related.length]
  length := by simp only [Scope.new, List.length_append, related.length, List.length_singleton]
  objects := by
    intro i q' d' hq hd
    have length := related.length
    simp only [Scope.new, List.getElem?_append] at hq hd
    by_cases old : i < s.objects.length
    · rw [if_pos old] at hq
      rw [if_pos (by omega)] at hd
      exact related.objects hq hd
    · rw [if_neg old, List.getElem?_singleton] at hq
      rw [if_neg (by omega), List.getElem?_singleton, ← length] at hd
      by_cases last : i - s.objects.length = 0
      · rw [if_pos last] at hq hd
        cases hq
        cases hd
        exact one
      · rw [if_neg last] at hq
        cases hq

theorem same (related : Related R s t) (name other : N) :
    (s.same name other).1 = (t.same name other).1 ∧
      Related R (s.same name other).2 (t.same name other).2 := by
  have names := related.names
  cases hi : s.names other with
  | none =>
    have hi' : t.names other = none := by rw [← names, hi]
    simp only [Scope.same, hi, hi']
    exact ⟨trivial, related⟩
  | some i =>
    have hi' : t.names other = some i := by rw [← names, hi]
    simp only [Scope.same, hi, hi']
    exact ⟨trivial, congrArg (Function.update · name (some i)) names, related.length,
      related.objects⟩

end Related

end References
