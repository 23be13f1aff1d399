import Mathlib.Logic.Basic

/-!
# Pre- and postconditions of bodies that may throw

A body runs on a state and ends with a value or an exception; the state it has
reached stays in both cases. A triple has one postcondition for each end.
-/

namespace Triples

universe u v
variable {S X A B : Type u}

/-- What holds before, after a normal end, and after an exception. -/
def Triple (P : S → Prop) (body : ExceptT X (StateM S) A) (Q : A → S → Prop)
    (E : X → S → Prop) : Prop :=
  ∀ s, P s → match body.run s with
    | (.ok a, s) => Q a s
    | (.error x, s) => E x s

namespace Triple
variable {P : S → Prop} {body : ExceptT X (StateM S) A} {Q : A → S → Prop} {E : X → S → Prop}

theorem of_ok (triple : Triple P body Q E) {s s' : S} {a : A} (start : P s)
    (ends : body.run s = (.ok a, s')) : Q a s' := by
  have holds := triple s start
  rwa [ends] at holds

theorem of_error (triple : Triple P body Q E) {s s' : S} {x : X} (start : P s)
    (ends : body.run s = (.error x, s')) : E x s' := by
  have holds := triple s start
  rwa [ends] at holds

protected theorem pure {a : A} (holds : ∀ s, P s → Q a s) :
    Triple P (pure a : ExceptT X (StateM S) A) Q E :=
  holds

protected theorem throw {x : X} (holds : ∀ s, P s → E x s) :
    Triple P (throw x : ExceptT X (StateM S) A) Q E :=
  holds

protected theorem get {Q : S → S → Prop} (holds : ∀ s, P s → Q s s) :
    Triple P (get : ExceptT X (StateM S) S) Q E :=
  holds

protected theorem modify {f : S → S} {Q : PUnit → S → Prop} (holds : ∀ s, P s → Q ⟨⟩ (f s)) :
    Triple P (modify f : ExceptT X (StateM S) PUnit) Q E :=
  holds

/-- What holds between two bodies. -/
protected theorem bind {next : A → ExceptT X (StateM S) B} {R : B → S → Prop}
    (first : Triple P body Q E) (then_ : ∀ a, Triple (Q a) (next a) R E) :
    Triple P (body >>= next) R E := by
  intro s start
  have run : (body >>= next).run s = match body.run s with
      | (.ok a, s) => (next a).run s
      | (.error x, s) => (.error x, s) := by
    change (match body s with | (r, s') => ExceptT.bindCont next r s') =
      (match body s with | (.ok a, s) => next a s | (.error x, s) => (.error x, s))
    rcases body s with ⟨x | a, s'⟩
    · rfl
    · rfl
  rw [run]
  cases ends : body.run s with
  | mk result s' =>
    cases result with
    | error x => exact first.of_error start ends
    | ok a => exact then_ a s' (first.of_ok start ends)

/-- A fact that does not depend on the state. -/
theorem assume {fact : Prop} (triple : fact → Triple P body Q E) :
    Triple (fun s => fact ∧ P s) body Q E :=
  fun s start => triple start.1 s start.2

theorem imp {P' : S → Prop} {Q' : A → S → Prop} {E' : X → S → Prop} (triple : Triple P body Q E)
    (before : ∀ s, P' s → P s) (after : ∀ a s, Q a s → Q' a s) (thrown : ∀ x s, E x s → E' x s) :
    Triple P' body Q' E' := by
  intro s start
  cases ends : body.run s with
  | mk result s' =>
    cases result with
    | error x => exact thrown x s' (triple.of_error (before s start) ends)
    | ok a => exact after a s' (triple.of_ok (before s start) ends)

end Triple

/-- A body that keeps a property of the state, however it ends. -/
abbrev Keeps (P : S → Prop) (body : ExceptT X (StateM S) A) : Prop :=
  Triple P body (fun _ => P) (fun _ => P)

namespace Keeps
variable {P : S → Prop} {body : ExceptT X (StateM S) A}

protected theorem pure (a : A) : Keeps P (pure a : ExceptT X (StateM S) A) := fun _ holds => holds

protected theorem throw (x : X) : Keeps P (throw x : ExceptT X (StateM S) A) := fun _ holds => holds

protected theorem get : Keeps P (get : ExceptT X (StateM S) S) := fun _ holds => holds

protected theorem modify {f : S → S} (keeps : ∀ s, P s → P (f s)) :
    Keeps P (modify f : ExceptT X (StateM S) PUnit) :=
  keeps

protected theorem bind {next : A → ExceptT X (StateM S) B} (first : Keeps P body)
    (then_ : ∀ a, Keeps P (next a)) : Keeps P (body >>= next) :=
  Triple.bind first then_

/-- The state that a body ends in. -/
theorem run (keeps : Keeps P body) {s : S} (start : P s) : P (body.run s).2 := by
  have holds := keeps s start
  cases ends : body.run s with
  | mk result s' =>
    rw [ends] at holds
    cases result with
    | ok a => exact holds
    | error x => exact holds

end Keeps

end Triples
