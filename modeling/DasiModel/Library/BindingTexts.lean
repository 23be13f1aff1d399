import DasiModel.Library.SegmentedPaths

/-!
# Texts that list bindings

A text is cut at one separator into items, and an item at another one into a
keyword and a value. Empty pieces are dropped at both levels, so a text may be
written in many ways; the bindings that can be read are exactly those whose
keyword and value are not empty and free of the separators, and a list of such
bindings is read back from its text.
-/

namespace BindingTexts
open SegmentedPaths

universe u v w x
variable {A : Type u} (outer inner : A)

/-- A text that can be a keyword or a value. -/
structure Legal (s : List A) : Prop where
  nonempty : s ≠ []
  outer_free : outer ∉ s
  inner_free : inner ∉ s

/-- A keyword and its value in a text. -/
def item (b : List A × List A) : List A := b.1 ++ inner :: b.2

/-- The text that lists some bindings. -/
def text (bindings : List (List A × List A)) : List A :=
  [outer].intercalate (bindings.map (item inner))

variable [DecidableEq A]

instance decidableLegal (s : List A) : Decidable (Legal outer inner s) :=
  decidable_of_iff (s ≠ [] ∧ outer ∉ s ∧ inner ∉ s)
    ⟨fun h => ⟨h.1, h.2.1, h.2.2⟩, fun h => ⟨h.nonempty, h.outer_free, h.inner_free⟩⟩

/-- The keyword and the value of an item, if these are its pieces. -/
def binding (piece : List A) : Option (List A × List A) :=
  match segments inner piece with
  | [keyword, value] => some (keyword, value)
  | _ => none

/-- The bindings of a text, from left to right. -/
def bindings (t : List A) : List (List A × List A) :=
  (segments outer t).filterMap (binding inner)

/-- A text all of whose items are bindings. -/
def ListsBindings (t : List A) : Prop :=
  ∀ piece ∈ segments outer t, ∃ b, binding inner piece = some b

variable {outer inner}

theorem binding_eq_some_iff (piece : List A) (b : List A × List A) :
    binding inner piece = some b ↔ segments inner piece = [b.1, b.2] := by
  rw [binding]
  split
  · rename_i keyword value pieces
    rw [pieces, Option.some.injEq]
    constructor
    · rintro rfl
      rfl
    · intro same
      cases same
      rfl
  · rename_i other
    constructor
    · intro h
      cases h
    · intro pieces
      exact absurd pieces (other b.1 b.2)

/-- What is read from a text is legal. -/
theorem legal_of_mem_bindings {t : List A} {b : List A × List A}
    (h : b ∈ bindings outer inner t) : Legal outer inner b.1 ∧ Legal outer inner b.2 := by
  obtain ⟨piece, hpiece, read⟩ := List.mem_filterMap.mp h
  have pieces := (binding_eq_some_iff piece b).mp read
  have own : piece ≠ [] ∧ outer ∉ piece := areSegments_segments t piece hpiece
  have legal (s : List A) (hs : s ∈ segments inner piece) : Legal outer inner s :=
    ⟨(areSegments_segments piece s hs).1, fun inside => own.2 (mem_of_mem_segments hs inside),
      (areSegments_segments piece s hs).2⟩
  rw [pieces] at legal
  exact ⟨legal b.1 List.mem_cons_self, legal b.2 (List.mem_cons_of_mem _ List.mem_cons_self)⟩

theorem binding_item {b : List A × List A} (keyword : Legal outer inner b.1)
    (value : Legal outer inner b.2) : binding inner (item inner b) = some b := by
  rw [binding_eq_some_iff, item, segments_append_sep,
    segments_single keyword.nonempty keyword.inner_free,
    segments_single value.nonempty value.inner_free]
  rfl

section RoundTrip
variable {bs : List (List A × List A)}

/-- The items of the text of legal bindings are these bindings. -/
theorem segments_text (apart : outer ≠ inner)
    (legal : ∀ b ∈ bs, Legal outer inner b.1 ∧ Legal outer inner b.2) :
    segments outer (text outer inner bs) = bs.map (item inner) := by
  apply segments_intercalate
  intro piece hpiece
  obtain ⟨b, hb, rfl⟩ := List.mem_map.mp hpiece
  obtain ⟨keyword, value⟩ := legal b hb
  refine ⟨List.append_ne_nil_of_left_ne_nil keyword.nonempty _, ?_⟩
  rw [item, List.mem_append, List.mem_cons]
  rintro (inside | same | inside)
  · exact keyword.outer_free inside
  · exact apart same
  · exact value.outer_free inside

theorem listsBindings_text (apart : outer ≠ inner)
    (legal : ∀ b ∈ bs, Legal outer inner b.1 ∧ Legal outer inner b.2) :
    ListsBindings outer inner (text outer inner bs) := by
  intro piece hpiece
  rw [segments_text apart legal] at hpiece
  obtain ⟨b, hb, rfl⟩ := List.mem_map.mp hpiece
  exact ⟨b, binding_item (legal b hb).1 (legal b hb).2⟩

/-- Legal bindings are read back from their text. -/
theorem bindings_text (apart : outer ≠ inner)
    (legal : ∀ b ∈ bs, Legal outer inner b.1 ∧ Legal outer inner b.2) :
    bindings outer inner (text outer inner bs) = bs := by
  rw [bindings, segments_text apart legal, List.filterMap_map]
  have back : ∀ b ∈ bs, (binding inner ∘ item inner) b = some b := fun b hb =>
    binding_item (legal b hb).1 (legal b hb).2
  rw [List.filterMap_congr back]
  exact List.filterMap_some

end RoundTrip

section Folds
variable {S : Type v} {I : Type w} {X : Type x} {B : Type u}

/-- A loop that reads its inputs one by one, raises on those that it cannot read and puts
the others into a state, returns exactly if it can read all of them. -/
theorem foldlM_eq_ok_iff {step : S → I → Except X S} {read : I → Option B} {good : B → Prop}
    {put : S → B → S}
    (spec : ∀ s i s', step s i = .ok s' ↔ ∃ b, read i = some b ∧ good b ∧ s' = put s b)
    (inputs : List I) (s s' : S) : inputs.foldlM step s = .ok s' ↔
      (∀ i ∈ inputs, ∃ b, read i = some b ∧ good b) ∧
        s' = (inputs.filterMap read).foldl put s := by
  induction inputs generalizing s with
  | nil =>
    constructor
    · intro returned
      cases returned
      exact ⟨fun i h => absurd h List.not_mem_nil, rfl⟩
    · rintro ⟨-, rfl⟩
      rfl
  | cons i rest ih =>
    rw [List.foldlM_cons]
    constructor
    · intro returned
      cases here : step s i with
      | error x =>
        rw [here] at returned
        cases returned
      | ok s₁ =>
        rw [here] at returned
        obtain ⟨later, rfl⟩ := (ih s₁).mp returned
        obtain ⟨b, read_, good_, rfl⟩ := (spec s i s₁).mp here
        refine ⟨List.forall_mem_cons.mpr ⟨⟨b, read_, good_⟩, later⟩, ?_⟩
        rw [List.filterMap_cons_some read_, List.foldl_cons]
    · rintro ⟨all, result⟩
      obtain ⟨⟨b, read_, good_⟩, later⟩ := List.forall_mem_cons.mp all
      rw [List.filterMap_cons_some read_, List.foldl_cons] at result
      rw [(spec s i (put s b)).mpr ⟨b, read_, good_, rfl⟩]
      exact (ih (put s b)).mpr ⟨later, result⟩

end Folds

end BindingTexts
