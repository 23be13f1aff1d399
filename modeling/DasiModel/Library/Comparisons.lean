import Mathlib.Data.List.Lex
import Mathlib.Data.Prod.Lex

/-!
# Comparing sequences and pairs with "less"

Two sequences are compared element by element with one relation "less", asked in
both directions; pairs likewise. Over a linear order this is the lexicographic
order, and two questions "less" make a three-way comparison.
-/

namespace Comparisons

universe u v
variable {A : Type u} {B : Type v}

/-- The first of two sequences is less: at the first difference, or as a proper prefix. -/
def lexicographicalCompare (less : A → A → Bool) : List A → List A → Bool
  | _, [] => false
  | [], _ :: _ => true
  | a :: x, b :: y =>
    if less a b then true
    else if less b a then false
    else lexicographicalCompare less x y

/-- The first of two pairs is less: in its first part, or in the second if the first
parts do not differ. -/
def pairLess (less : A → A → Bool) (less' : B → B → Bool) (a b : A × B) : Bool :=
  less a.1 b.1 || (!less b.1 a.1 && less' a.2 b.2)

/-- The answer of two questions "less". -/
def threeWay (less : A → A → Bool) (a b : A) : Int :=
  if less a b then -1 else if less b a then 1 else 0

theorem lexicographicalCompare_map (f : A → B) (less : B → B → Bool) (x y : List A) :
    lexicographicalCompare less (x.map f) (y.map f) =
      lexicographicalCompare (fun a b => less (f a) (f b)) x y := by
  induction x generalizing y with
  | nil => cases y <;> rfl
  | cons a x ih =>
    cases y with
    | nil => rfl
    | cons b y => simp only [List.map_cons, lexicographicalCompare, ih]

section LinearOrders
variable [LinearOrder A] [LinearOrder B] {less : A → A → Bool} {less' : B → B → Bool}

theorem lexicographicalCompare_iff (asks : ∀ a b, less a b = true ↔ a < b) (x y : List A) :
    lexicographicalCompare less x y = true ↔ x < y := by
  induction x generalizing y with
  | nil =>
    cases y with
    | nil => simp [lexicographicalCompare]
    | cons b y => simp [lexicographicalCompare]
  | cons a x ih =>
    cases y with
    | nil => simp [lexicographicalCompare]
    | cons b y =>
      rw [lexicographicalCompare, List.cons_lt_cons_iff]
      rcases lt_trichotomy a b with below | rfl | above
      · simp [(asks a b).mpr below, below]
      · have neither : less a a = false := Bool.eq_false_iff.mpr (fun h => lt_irrefl a ((asks a a).mp h))
        simp [neither, ih]
      · have not_below : less a b = false :=
          Bool.eq_false_iff.mpr (fun h => lt_asymm above ((asks a b).mp h))
        simp [not_below, (asks b a).mpr above, lt_asymm above, above.ne']

theorem pairLess_iff (asks : ∀ a b, less a b = true ↔ a < b)
    (asks' : ∀ a b, less' a b = true ↔ a < b) (a b : A × B) :
    pairLess less less' a b = true ↔ toLex a < toLex b := by
  rw [pairLess, Bool.or_eq_true, Bool.and_eq_true, Bool.not_eq_true', Bool.eq_false_iff, ne_eq,
    asks, asks, asks', Prod.Lex.toLex_lt_toLex, not_lt]
  constructor
  · rintro (below | ⟨not_above, second⟩)
    · exact Or.inl below
    · exact (lt_or_eq_of_le not_above).imp id (fun same => ⟨same, second⟩)
  · rintro (below | ⟨same, second⟩)
    · exact Or.inl below
    · exact Or.inr ⟨same.le, second⟩

theorem threeWay_eq_zero_iff (asks : ∀ a b, less a b = true ↔ a < b) (a b : A) :
    threeWay less a b = 0 ↔ a = b := by
  rw [threeWay]
  split
  · rename_i below
    exact iff_of_false (by decide) ((asks a b).mp below).ne
  · rename_i not_below
    split
    · rename_i above
      exact iff_of_false (by decide) ((asks b a).mp above).ne'
    · rename_i not_above
      rw [asks, not_lt] at not_below not_above
      exact iff_of_true rfl (le_antisymm not_above not_below)

theorem threeWay_neg_iff (asks : ∀ a b, less a b = true ↔ a < b) (a b : A) :
    threeWay less a b < 0 ↔ a < b := by
  rw [← asks, threeWay]
  split
  · rename_i below
    exact iff_of_true (by decide) below
  · rename_i not_below
    refine iff_of_false ?_ not_below
    split <;> decide

theorem threeWay_swap (asks : ∀ a b, less a b = true ↔ a < b) (a b : A) :
    threeWay less b a = -threeWay less a b := by
  rw [threeWay, threeWay]
  rcases lt_trichotomy a b with below | rfl | above
  · have not_above : ¬ less b a = true := fun h => lt_asymm below ((asks b a).mp h)
    rw [if_pos ((asks a b).mpr below), if_neg not_above, if_pos ((asks a b).mpr below)]
    rfl
  · have neither : ¬ less a a = true := fun h => lt_irrefl a ((asks a a).mp h)
    rw [if_neg neither, if_neg neither]
    rfl
  · have not_below : ¬ less a b = true := fun h => lt_asymm above ((asks a b).mp h)
    rw [if_pos ((asks b a).mpr above), if_neg not_below, if_pos ((asks b a).mpr above)]

theorem threeWay_pos_iff (asks : ∀ a b, less a b = true ↔ a < b) (a b : A) :
    0 < threeWay less a b ↔ b < a := by
  rw [← threeWay_neg_iff asks b a, threeWay_swap asks a b]
  omega

theorem threeWay_trans (asks : ∀ a b, less a b = true ↔ a < b) {a b c : A}
    (left : threeWay less a b ≤ 0) (right : threeWay less b c ≤ 0) : threeWay less a c ≤ 0 := by
  rw [← not_lt, threeWay_pos_iff asks, not_lt] at *
  exact le_trans left right

end LinearOrders

end Comparisons
