import Mathlib.Data.List.Basic

/-!
# Texts made of components and separators

A text is a first component followed by separators and further components.
Components may contain separators, so two ways of cutting can give one text.
`LinesUp` describes, without rendering, how the cuts of two such texts may lie
to each other: where they do not fall together, a separator of one is inside a
component of the other.
-/

namespace SeparatedTexts

universe u
variable {A : Type u}

/-- The text of a component and what follows it. -/
def render : List A → List (A × List A) → List A
  | c, [] => c
  | c, (s, d) :: rest => c ++ s :: render d rest

/-- Two ways of cutting that give the same text. -/
inductive LinesUp : List A → List (A × List A) → List A → List (A × List A) → Prop where
  /-- The last components are equal. -/
  | done (c : List A) : LinesUp c [] c []
  /-- Both have a cut here, at the same separator. -/
  | both (c : List A) (s : A) {d d' : List A} {rest rest' : List (A × List A)}
      (later : LinesUp d rest d' rest') : LinesUp c ((s, d) :: rest) c ((s, d') :: rest')
  /-- Only the left text is cut here: the separator is inside the right component. -/
  | left (c : List A) (s : A) {d e : List A} {rest rest' : List (A × List A)}
      (later : LinesUp d rest e rest') : LinesUp c ((s, d) :: rest) (c ++ s :: e) rest'
  /-- Only the right text is cut here. -/
  | right (c : List A) (s : A) {d e : List A} {rest rest' : List (A × List A)}
      (later : LinesUp e rest d rest') : LinesUp (c ++ s :: e) rest c ((s, d) :: rest')

theorem render_append (c : List A) (s : A) (e : List A) (rest : List (A × List A)) :
    render (c ++ s :: e) rest = c ++ s :: render e rest := by
  cases rest with
  | nil => rfl
  | cons next rest => simp only [render, List.append_assoc, List.cons_append]

theorem mem_render {a : A} {c : List A} {rest : List (A × List A)} (h : a ∈ render c rest) :
    a ∈ c ∨ ∃ b ∈ rest, a = b.1 ∨ a ∈ b.2 := by
  induction rest generalizing c with
  | nil => exact Or.inl h
  | cons next rest ih =>
    rcases List.mem_append.mp h with inside | later
    · exact Or.inl inside
    · rcases List.mem_cons.mp later with separator | later
      · exact Or.inr ⟨next, List.mem_cons_self, Or.inl separator⟩
      · rcases ih later with inside | ⟨b, hb, found⟩
        · exact Or.inr ⟨next, List.mem_cons_self, Or.inr inside⟩
        · exact Or.inr ⟨b, List.mem_cons_of_mem next hb, found⟩

theorem LinesUp.render_eq {c d : List A} {left right : List (A × List A)}
    (lined : LinesUp c left d right) : render c left = render d right := by
  induction lined with
  | done c => rfl
  | both c s later ih => simp only [render, ih]
  | left c s later ih => rw [render_append, render, ih]
  | right c s later ih => rw [render_append, render, ih]

/-- Equal texts line up; the induction is on the number of cuts left. -/
theorem linesUp_of_render_eq {c d : List A} {left right : List (A × List A)}
    (same : render c left = render d right) : LinesUp c left d right := by
  match left, right with
  | [], [] =>
    obtain rfl : c = d := same
    exact .done c
  | [], (s, e) :: rest =>
    obtain rfl : c = d ++ s :: render e rest := same
    exact .right d s (linesUp_of_render_eq rfl)
  | (s, e) :: rest, [] =>
    obtain rfl : d = c ++ s :: render e rest := same.symm
    exact .left c s (linesUp_of_render_eq rfl)
  | (s, e) :: rest, (s', e') :: rest' =>
    rw [render, render] at same
    rcases List.append_eq_append_iff.mp same with ⟨more, rfl, later⟩ | ⟨more, rfl, later⟩
    · -- the left component ends first
      cases more with
      | nil =>
        obtain ⟨rfl, tail⟩ := List.cons_eq_cons.mp later
        rw [List.append_nil]
        exact .both c s (linesUp_of_render_eq tail)
      | cons x more =>
        obtain ⟨rfl, tail⟩ := List.cons_eq_cons.mp later
        exact .left c s (linesUp_of_render_eq tail)
    · cases more with
      | nil =>
        obtain ⟨rfl, tail⟩ := List.cons_eq_cons.mp later
        rw [List.append_nil]
        exact .both d s' (linesUp_of_render_eq tail.symm)
      | cons x more =>
        obtain ⟨rfl, tail⟩ := List.cons_eq_cons.mp later
        exact .right d s' (linesUp_of_render_eq tail.symm)
termination_by left.length + right.length

theorem linesUp_iff_render_eq {c d : List A} {left right : List (A × List A)} :
    LinesUp c left d right ↔ render c left = render d right :=
  ⟨LinesUp.render_eq, linesUp_of_render_eq⟩

end SeparatedTexts
