import DasiModel.KeyMaps
import DasiModel.PythonDictionary
import DasiModel.Library.Comparisons

/-!
# The order of keys

`dasi_key_compare` asks twice whether one key is less. What a key holds is decided
by its history, and two keys that hold the same bindings are the same key; so the
answer 0 means equal bindings, however they were built.
-/

namespace KeyOrder
open Texts DasiKey OrderedMaps CApi NullPointers HandleMaps KeyMaps Comparisons

variable {F P D W : Type}

inductive Update where
  | set (k v : Bytes)
  | erase (k : Bytes)
  | clear
  deriving DecidableEq

def Update.run (key : Key) : Update → Key
  | .set k v => key.set k v
  | .erase k => key.erase k
  | .clear => key.clear

/-- The key that a history of updates makes of a new one. -/
def reached (history : List Update) : Key := history.foldl Update.run Key.new

/-- The bindings that a history leaves, told without the order of a map. -/
def held (history : List Update) : Finmap fun _ : Bytes => Bytes :=
  history.foldl (fun bindings update => match update with
    | .set k v => bindings.insert k v
    | .erase k => bindings.erase k
    | .clear => ∅) ∅

theorem contents_reached (history : List Update) : contents (reached history) = held history := by
  have general (key : Key) : contents (history.foldl Update.run key) =
      history.foldl (fun bindings update => match update with
        | .set k v => bindings.insert k v
        | .erase k => bindings.erase k
        | .clear => ∅) (contents key) := by
    induction history generalizing key with
    | nil => rfl
    | cons update rest ih =>
      have step : contents (update.run key) = match update with
          | .set k v => (contents key).insert k v
          | .erase k => (contents key).erase k
          | .clear => ∅ := by
        cases update with
        | set k v => exact OrderedMap.contents_insertOrAssign _ k v
        | erase k => exact OrderedMap.contents_erase _ k
        | clear => rfl
      rw [List.foldl_cons, List.foldl_cons, ih, step]
  exact general Key.new

/-- Keys with the same bindings are the same key. -/
theorem reached_eq_iff (history history' : List Update) :
    reached history = reached history' ↔ held history = held history' := by
  rw [← contents_reached, ← contents_reached]
  constructor
  · intro same
    rw [same]
  · intro same
    exact congrArg Key.mk (OrderedMap.contents_injective same)

section Operators

/-- `operator<` of `std::string`. -/
def stringLess (a b : Bytes) : Bool := lexicographicalCompare (fun x y => decide (x < y)) a b

/-- `Key::operator<`: `operator<` of `std::map`. -/
def operatorLess (a b : Key) : Bool :=
  lexicographicalCompare (pairLess stringLess stringLess) a.items b.items

/-- `Key::operator==`: as many bindings, and equal ones one by one. -/
def operatorEqual (a b : Key) : Bool := a.size == b.size && a.items == b.items

/-- `Key::operator>`. -/
def operatorGreater (a b : Key) : Bool := operatorLess b a

/-- `Key::operator!=`. -/
def operatorNotEqual (a b : Key) : Bool := !operatorEqual a b

theorem stringLess_iff (a b : Bytes) : stringLess a b = true ↔ a < b :=
  lexicographicalCompare_iff (fun _ _ => decide_eq_true_iff) a b

/-- The order that keys are compared by is the one of the map's own loop. -/
theorem operatorLess_eq_lt (a b : Key) : operatorLess a b = a.lt b := by
  rw [operatorLess, Key.lt, Bool.eq_iff_iff, decide_eq_true_iff]
  have asks (x y : Bytes ×ₗ Bytes) :
      pairLess stringLess stringLess (ofLex x) (ofLex y) = true ↔ x < y :=
    pairLess_iff stringLess_iff stringLess_iff (ofLex x) (ofLex y)
  rw [← lexicographicalCompare_iff asks, lexicographicalCompare_map]
  rfl

theorem operatorEqual_iff (a b : Key) : operatorEqual a b = true ↔ a = b := by
  rw [operatorEqual, Bool.and_eq_true, beq_iff_eq, beq_iff_eq]
  constructor
  · rintro ⟨-, same⟩
    exact Key.eq_of_items_perm (same ▸ List.Perm.refl _)
  · rintro rfl
    exact ⟨rfl, rfl⟩

end Operators

/-- The bindings of a key in their order, as a point of a linear order. -/
def rank (key : Key) : List (Bytes ×ₗ Bytes) := key.items.map toLex

theorem rank_injective : Function.Injective rank := by
  intro a b same
  have items := (List.map_injective_iff.mpr toLex.injective) same
  exact Key.eq_of_items_perm (items ▸ List.Perm.refl _)

theorem asks_rank (a b : Key) : a.lt b = true ↔ rank a < rank b := decide_eq_true_iff

/-- The number that `dasi_key_compare` writes. -/
def answer (env : Environment F P D W) (w : World F D W) (a b result : Address) : Int :=
  (runCall env (.keyCompare (some a) (some b) (some result)) w).2.numbers result

theorem answer_eq (env : Environment F P D W) {w : World F D W} {a b : Address} {k k' : Key}
    (left : w.keys a = some k) (right : w.keys b = some k') (result : Address) :
    answer env w a b result =
      threeWay (fun x y => decide (x < y)) (rank k) (rank k') := by
  rw [answer, compare_run env left right result]
  exact Function.update_self _ _ _

/-- On keys with any histories, `dasi_key_compare` succeeds, tells equal bindings from
others, is a total order, and agrees with the operators of `Key` and with Python's `==`. -/
theorem keyCompare_totalOrder (env : Environment F P D W) {w : World F D W} {a b c : Address}
    {first second third : List Update} (key_a : w.keys a = some (reached first))
    (key_b : w.keys b = some (reached second)) (key_c : w.keys c = some (reached third))
    (result : Address) :
    (runCall env (.keyCompare (some a) (some b) (some result)) w).1 = .returned .success ∧
    (answer env w a b result = 0 ↔ held first = held second) ∧
    answer env w b a result = -answer env w a b result ∧
    (answer env w a b result ≤ 0 → answer env w b c result ≤ 0 → answer env w a c result ≤ 0) ∧
    (answer env w a b result = 0 ↔ operatorEqual (reached first) (reached second) = true) ∧
    (answer env w a b result ≠ 0 ↔ operatorNotEqual (reached first) (reached second) = true) ∧
    (answer env w a b result < 0 ↔ operatorLess (reached first) (reached second) = true) ∧
    (0 < answer env w a b result ↔ operatorGreater (reached first) (reached second) = true) ∧
    (answer env w a b result = 0 ↔ PythonKey.eq (reached first) (reached second) = true) := by
  have asks (x y : List (Bytes ×ₗ Bytes)) : decide (x < y) = true ↔ x < y := decide_eq_true_iff
  have zero : answer env w a b result = 0 ↔ reached first = reached second := by
    rw [answer_eq env key_a key_b, threeWay_eq_zero_iff asks]
    exact rank_injective.eq_iff
  refine ⟨?_, zero.trans (reached_eq_iff first second), ?_, ?_, ?_, ?_, ?_, ?_, ?_⟩
  · rw [compare_run env key_a key_b result]
  · rw [answer_eq env key_a key_b, answer_eq env key_b key_a]
    exact threeWay_swap asks _ _
  · rw [answer_eq env key_a key_b, answer_eq env key_b key_c, answer_eq env key_a key_c]
    exact threeWay_trans asks
  · rw [zero, operatorEqual_iff]
  · rw [ne_eq, zero, ← operatorEqual_iff, operatorNotEqual, Bool.not_eq_true', Bool.eq_false_iff]
  · rw [answer_eq env key_a key_b, threeWay_neg_iff asks, operatorLess_eq_lt, asks_rank]
  · rw [answer_eq env key_a key_b, threeWay_pos_iff asks, operatorGreater, operatorLess_eq_lt,
      asks_rank]
  · rw [zero, PythonDictionary.eq_iff]

/-- Two histories of one key, and one of a key that begins like it. -/
def threeKeys : World Unit Unit Unit :=
  { oneQuery with keys := fun p =>
      if p = 1 then some (reached [.set (ascii "b") (ascii "2"), .set (ascii "a") (ascii "1")])
      else if p = 2 then some (reached [.set (ascii "c") [], .clear,
        .set (ascii "a") (ascii "0"), .set (ascii "b") (ascii "2"), .set (ascii "a") (ascii "1")])
      else if p = 3 then some (reached [.set (ascii "a") (ascii "1"), .set (ascii "b") (ascii "2"),
        .erase (ascii "b")])
      else none }

theorem keyCompare_sample : answer idle threeKeys 1 2 7 = 0 ∧ answer idle threeKeys 3 1 7 = -1 ∧
    (answer idle threeKeys 3 1 7 ≤ 0 → answer idle threeKeys 1 2 7 ≤ 0 →
      answer idle threeKeys 3 2 7 ≤ 0) :=
  ⟨by decide, by decide, (keyCompare_totalOrder idle (w := threeKeys) (a := 3) (b := 1) (c := 2)
    rfl rfl rfl 7).2.2.2.1⟩

end KeyOrder
