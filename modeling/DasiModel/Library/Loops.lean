import DasiModel.Library.Cursors

/-!
# Loops over streams that may fail

`visit` says what a loop is for: the body gets the elements one after the other
until the stream ends, the stream fails, or the body gives up. A loop that is
written over an iterator asks for the next element only when the body is done
with the last one. It does the same as `visit`, and leaves in the iterator what
was not asked for.
-/

namespace Loops
open Cursors

universe u v w x y z t
variable {S : Type u} {E : Type v} {A : Type w} {X : Type x} {Y : Type y} {B : Type z}

/-- How a loop ends: at the end of the stream, by its body, or by a failure of the stream. -/
inductive Ending (Y : Type y) (X : Type x) where
  | complete
  | stopped (y : Y)
  | failed (x : X)
  deriving DecidableEq

def Ending.map {X' : Type u} (raise : X → X') : Ending Y X → Ending Y X'
  | .complete => .complete
  | .stopped y => .stopped y
  | .failed x => .failed (raise x)

/-- How the loop ended, what the body made of its state, and the rest of the stream. -/
abbrev Outcome (Y : Type y) (X : Type x) (B : Type z) (S : Type u) := Ending Y X × B × S

/-- A body that returns something ends the loop with it. -/
def visit (body : B → E → Option Y × B) (b : B) :
    List (Event E X) → Outcome Y X B (List (Event E X))
  | [] => (.complete, b, [])
  | .failure x :: rest => (.failed x, b, rest)
  | .element e :: rest =>
    match body b e with
    | (some y, b) => (.stopped y, b, rest)
    | (none, b) => visit body b rest

/-- A loop that notes what it sees goes through all that comes before a failure. -/
theorem visit_collecting (view : E → A) (stream : List (Event E X)) (seen : List A) :
    ∃ values : List E,
      (stream = values.map .element ∧
        visit (Y := Y) (fun seen e => (none, seen ++ [view e])) seen stream =
          (.complete, seen ++ values.map view, [])) ∨
      ∃ x rest, stream = values.map .element ++ .failure x :: rest ∧
        visit (Y := Y) (fun seen e => (none, seen ++ [view e])) seen stream =
          (.failed x, seen ++ values.map view, rest) := by
  induction stream generalizing seen with
  | nil => exact ⟨[], .inl ⟨rfl, by rw [visit, List.map_nil, List.append_nil]⟩⟩
  | cons event rest ih =>
    cases event with
    | failure x =>
      exact ⟨[], .inr ⟨x, rest, rfl, by rw [visit, List.map_nil, List.append_nil]⟩⟩
    | element e =>
      have longer (values : List E) :
          seen ++ [view e] ++ values.map view = seen ++ (e :: values).map view := by
        rw [List.append_assoc, List.map_cons, List.singleton_append]
      obtain ⟨values, ⟨whole, visits⟩ | ⟨x, left, whole, visits⟩⟩ := ih (seen ++ [view e])
      · rw [longer] at visits
        exact ⟨e :: values, .inl ⟨by rw [whole, List.map_cons], visits⟩⟩
      · rw [longer] at visits
        exact ⟨e :: values, .inr ⟨x, left, by rw [whole, List.map_cons, List.cons_append], visits⟩⟩

/-- The elements before the first failure, and that failure. -/
def upToFailure : List (Event E X) → List E × Except X Unit
  | [] => ([], .ok ())
  | .failure x :: _ => ([], .error x)
  | .element e :: rest => (e :: (upToFailure rest).1, (upToFailure rest).2)

/-- How a loop ends that its body does not leave. -/
def Ending.ofResult : Except X Unit → Ending Y X
  | .ok () => .complete
  | .error x => .failed x

/-- A body that only notes what it sees gets all that comes before a failure. -/
theorem visit_noting (note : B → E → B) (stream : List (Event E X)) (b : B) :
    ∃ rest, visit (Y := Y) (fun b e => (none, note b e)) b stream =
      (.ofResult (upToFailure stream).2, (upToFailure stream).1.foldl note b, rest) := by
  induction stream generalizing b with
  | nil => exact ⟨[], rfl⟩
  | cons event rest ih =>
    cases event with
    | failure x => exact ⟨rest, rfl⟩
    | element e => exact ih (note b e)

/-- `while (the next element is there) { body }`; `none` if `fuel` rounds do not suffice. -/
def pullLoop (pull : S → Except X (Option A) × S) (body : B → A → Option Y × B) :
    Nat → S → B → Option (Outcome Y X B S)
  | 0, _, _ => none
  | fuel + 1, s, b =>
    match pull s with
    | (.error x, s) => some (.failed x, b, s)
    | (.ok none, s) => some (.complete, b, s)
    | (.ok (some a), s) =>
      match body b a with
      | (some y, b) => some (.stopped y, b, s)
      | (none, b) => pullLoop pull body fuel s b

/-- An outcome over a stream, with the exceptions that the layer above raises. -/
def Outcome.raising {X' : Type u} {R : Type v} (raise : X → X') (outcome : Outcome Y X B R) :
    Outcome Y X' B R :=
  (outcome.1.map raise, outcome.2)

@[simp] theorem Outcome.raising_id {R : Type v} (outcome : Outcome Y X B R) :
    outcome.raising id = outcome := by
  obtain ⟨ending, rest⟩ := outcome
  cases ending <;> rfl

/-- An outcome over an iterator, with the part of the stream that it still holds. -/
def Outcome.leaving {R : Type v} (left : S → R) (outcome : Outcome Y X B S) : Outcome Y X B R :=
  (outcome.1, outcome.2.1, left outcome.2.2)

/-- A loop did what `visit` does with a stream; `Rest` tells what was not asked for. -/
def Visits {X' : Type w} (raise : X → X') (Rest : List (Event E X) → S → Prop)
    (body : B → E → Option Y × B) (b : B) (stream : List (Event E X))
    (outcome : Option (Outcome Y X' B S)) : Prop :=
  ∃ s, outcome = some ((visit body b stream).1.map raise, (visit body b stream).2.1, s) ∧
    Rest (visit body b stream).2.2 s

theorem Visits.leaving {X' : Type w} {raise : X → X'} {Rest : List (Event E X) → S → Prop}
    {body : B → E → Option Y × B} {b : B} {stream : List (Event E X)}
    {outcome : Option (Outcome Y X' B S)} (visits : Visits raise Rest body b stream outcome)
    {left : S → List (Event E X)} (holds : ∀ {rest s}, Rest rest s → left s = rest) :
    outcome.map (Outcome.leaving left) = some ((visit body b stream).raising raise) := by
  obtain ⟨s, rfl, rest⟩ := visits
  simp only [Option.map_some, Outcome.leaving, Outcome.raising, holds rest]

section Pulling
variable {X' : Type u} {T : Type t} {pull : T → Except X' (Option A) × T} {view : E → A}
  {raise : X → X'} {At Rest : List (Event E X) → T → Prop}

/-- An iterator hands out a stream from the front: `At` says what is still to come, `Rest` the
same once it has been called. -/
structure Pulls (pull : T → Except X' (Option A) × T) (view : E → A) (raise : X → X')
    (At Rest : List (Event E X) → T → Prop) : Prop where
  called : ∀ {s stream}, Rest stream s → At stream s
  ended : ∀ {s}, At [] s → (pull s).1 = .ok none ∧ Rest [] (pull s).2
  fails : ∀ {s x rest}, At (.failure x :: rest) s →
    (pull s).1 = .error (raise x) ∧ Rest rest (pull s).2
  yields : ∀ {s e rest}, At (.element e :: rest) s →
    (pull s).1 = .ok (some (view e)) ∧ Rest rest (pull s).2

theorem pullLoop_of_ended {s : T} (h : (pull s).1 = .ok none) (body : B → A → Option Y × B)
    (fuel : Nat) (b : B) :
    pullLoop pull body (fuel + 1) s b = some (.complete, b, (pull s).2) := by
  cases hp : pull s with
  | mk answer s' =>
    rw [hp] at h
    cases h
    simp only [pullLoop, hp]

theorem pullLoop_of_failure {s : T} {x : X'} (h : (pull s).1 = .error x)
    (body : B → A → Option Y × B) (fuel : Nat) (b : B) :
    pullLoop pull body (fuel + 1) s b = some (.failed x, b, (pull s).2) := by
  cases hp : pull s with
  | mk answer s' =>
    rw [hp] at h
    cases h
    simp only [pullLoop, hp]

theorem pullLoop_of_element {s : T} {a : A} (h : (pull s).1 = .ok (some a))
    (body : B → A → Option Y × B) (fuel : Nat) (b : B) :
    pullLoop pull body (fuel + 1) s b =
      match body b a with
      | (some y, b) => some (.stopped y, b, (pull s).2)
      | (none, b) => pullLoop pull body fuel (pull s).2 b := by
  cases hp : pull s with
  | mk answer s' =>
    rw [hp] at h
    cases h
    simp only [pullLoop, hp]

/-- A pulling loop, given a round for each event and one more, visits the stream. -/
theorem Pulls.visits (pulls : Pulls pull view raise At Rest) (body : B → A → Option Y × B)
    {stream : List (Event E X)} {s : T} (start : At stream s) {fuel : Nat}
    (enough : stream.length < fuel) (b : B) :
    Visits raise Rest (fun b e => body b (view e)) b stream (pullLoop pull body fuel s b) := by
  induction stream generalizing s fuel b with
  | nil =>
    obtain ⟨fuel, rfl⟩ := Nat.exists_eq_add_one_of_ne_zero (Nat.ne_zero_of_lt enough)
    obtain ⟨answer, rest⟩ := pulls.ended start
    exact ⟨_, pullLoop_of_ended answer body fuel b, rest⟩
  | cons event rest ih =>
    obtain ⟨fuel, rfl⟩ := Nat.exists_eq_add_one_of_ne_zero (Nat.ne_zero_of_lt enough)
    have room : rest.length < fuel := by
      rw [List.length_cons] at enough
      omega
    cases event with
    | failure x =>
      obtain ⟨answer, later⟩ := pulls.fails start
      exact ⟨_, pullLoop_of_failure answer body fuel b, later⟩
    | element e =>
      obtain ⟨answer, later⟩ := pulls.yields start
      rw [pullLoop_of_element answer body fuel b]
      cases hb : body b (view e) with
      | mk gave b' =>
        cases gave with
        | none =>
          obtain ⟨s', hs', hrest⟩ := ih (pulls.called later) room b'
          refine ⟨s', ?_, ?_⟩
          · simpa only [visit, hb] using hs'
          · simpa only [visit, hb] using hrest
        | some y =>
          refine ⟨(pull s).2, ?_, ?_⟩
          · simp only [visit, hb, Ending.map]
          · simpa only [visit, hb] using later

/-- A loop that collects what it is shown. -/
theorem Pulls.collects (pulls : Pulls pull view raise At Rest) {stream : List (Event E X)} {s : T}
    (start : At stream s) {fuel : Nat} (enough : stream.length < fuel) (seen : List A) :
    ∃ later, pullLoop (Y := Y) pull (fun seen a => (none, seen ++ [a])) fuel s seen =
      some ((Ending.ofResult (upToFailure stream).2).map raise,
        seen ++ (upToFailure stream).1.map view, later) := by
  obtain ⟨later, loop, -⟩ := pulls.visits (Y := Y) (fun seen a => (none, seen ++ [a])) start
    enough seen
  obtain ⟨rest, visits⟩ := visit_noting (Y := Y) (fun seen e => seen ++ [view e]) stream seen
  have noted (es : List E) (seen : List A) :
      es.foldl (fun seen e => seen ++ [view e]) seen = seen ++ es.map view := by
    induction es generalizing seen with
    | nil => simp only [List.foldl_nil, List.map_nil, List.append_nil]
    | cons e rest ih =>
      rw [List.foldl_cons, ih, List.append_assoc, List.map_cons, List.singleton_append]
  rw [visits, noted] at loop
  exact ⟨later, loop⟩

end Pulling

section Ranges
variable {X' : Type u} {T : Type t}

/-- `for (; !done; next) { body }` over a generator that has its element in hand; `none` if
`fuel` rounds do not suffice. -/
def rangeFor (done : T → Bool) (value : T → A) (next : T → Except X' Unit × T)
    (body : B → A → Option Y × B) : Nat → T → B → Option (Outcome Y X' B T)
  | 0, _, _ => none
  | fuel + 1, s, b =>
    if done s then some (.complete, b, s)
    else match body b (value s) with
    | (some y, b) => some (.stopped y, b, s)
    | (none, b) =>
      match next s with
      | (.error x, s) => some (.failed x, b, s)
      | (.ok (), s) => rangeFor done value next body fuel s b

variable {done : T → Bool} {value : T → A} {next : T → Except X' Unit × T} {view : E → A}
  {raise : X → X'} {At Rest : List (Event E X) → T → Prop}

/-- A generator over a stream: `At stream s` has the head of `stream` in hand, `Rest stream s`
has all of it still to fetch. -/
structure Steps (done : T → Bool) (value : T → A) (next : T → Except X' Unit × T) (view : E → A)
    (raise : X → X') (At Rest : List (Event E X) → T → Prop) : Prop where
  ended : ∀ {s}, At [] s → done s = true ∧ Rest [] s
  holds : ∀ {s e rest}, At (.element e :: rest) s →
    done s = false ∧ value s = view e ∧ Rest rest s
  /-- A failure is raised when it is met, and is never in hand. -/
  sound : ∀ {s x rest}, ¬ At (.failure x :: rest) s
  moves : ∀ {s stream}, Rest stream s → (∀ x rest, stream ≠ .failure x :: rest) →
    (next s).1 = .ok () ∧ At stream (next s).2
  fails : ∀ {s x rest}, Rest (.failure x :: rest) s →
    (next s).1 = .error (raise x) ∧ Rest rest (next s).2

theorem rangeFor_of_stopped {s : T} (live : done s = false) {body : B → A → Option Y × B}
    {b b' : B} {y : Y} (gave : body b (value s) = (some y, b')) (fuel : Nat) :
    rangeFor done value next body (fuel + 1) s b = some (.stopped y, b', s) := by
  simp only [rangeFor, live, gave, Bool.false_eq_true, if_false]

theorem rangeFor_of_failure {s : T} (live : done s = false) {body : B → A → Option Y × B}
    {b b' : B} (went : body b (value s) = (none, b')) {x : X'} (h : (next s).1 = .error x)
    (fuel : Nat) :
    rangeFor done value next body (fuel + 1) s b = some (.failed x, b', (next s).2) := by
  cases hn : next s with
  | mk answer s' =>
    rw [hn] at h
    cases h
    simp only [rangeFor, live, went, hn, Bool.false_eq_true, if_false]

theorem rangeFor_of_next {s : T} (live : done s = false) {body : B → A → Option Y × B}
    {b b' : B} (went : body b (value s) = (none, b')) (h : (next s).1 = .ok ()) (fuel : Nat) :
    rangeFor done value next body (fuel + 1) s b =
      rangeFor done value next body fuel (next s).2 b' := by
  cases hn : next s with
  | mk answer s' =>
    rw [hn] at h
    cases h
    simp only [rangeFor, live, went, hn, Bool.false_eq_true, if_false]

/-- A range loop, given a round for each event and one more, visits the stream. -/
theorem Steps.visits (steps : Steps done value next view raise At Rest)
    (body : B → A → Option Y × B) {stream : List (Event E X)} {s : T} (start : At stream s)
    {fuel : Nat} (enough : stream.length < fuel) (b : B) :
    Visits raise Rest (fun b e => body b (view e)) b stream
      (rangeFor done value next body fuel s b) := by
  induction stream generalizing s fuel b with
  | nil =>
    obtain ⟨fuel, rfl⟩ := Nat.exists_eq_add_one_of_ne_zero (Nat.ne_zero_of_lt enough)
    obtain ⟨finished, rest⟩ := steps.ended start
    refine ⟨s, ?_, rest⟩
    simp only [rangeFor, finished, if_true, visit, Ending.map]
  | cons event rest ih =>
    obtain ⟨fuel, rfl⟩ := Nat.exists_eq_add_one_of_ne_zero (Nat.ne_zero_of_lt enough)
    have room : rest.length < fuel := by
      rw [List.length_cons] at enough
      omega
    cases event with
    | failure x => exact absurd start steps.sound
    | element e =>
      obtain ⟨live, shown, left⟩ := steps.holds start
      cases hb : body b (view e) with
      | mk gave b' =>
        have hbody : body b (value s) = (gave, b') := by rw [shown, hb]
        cases gave with
        | some y =>
          refine ⟨s, ?_, ?_⟩
          · rw [rangeFor_of_stopped live hbody fuel]
            simp only [visit, hb, Ending.map]
          · simpa only [visit, hb] using left
        | none =>
          by_cases breaks : ∃ x tail, rest = .failure x :: tail
          · -- the failure is raised by the increment, after the body
            obtain ⟨x, tail, rfl⟩ := breaks
            obtain ⟨answer, later⟩ := steps.fails left
            refine ⟨(next s).2, ?_, ?_⟩
            · rw [rangeFor_of_failure live hbody answer fuel]
              simp only [visit, hb, Ending.map]
            · simpa only [visit, hb] using later
          · obtain ⟨answer, later⟩ := steps.moves left
              (fun x tail h => breaks ⟨x, tail, h⟩)
            obtain ⟨s', hs', hrest⟩ := ih later room b'
            refine ⟨s', ?_, ?_⟩
            · rw [rangeFor_of_next live hbody answer fuel]
              simpa only [visit, hb] using hs'
            · simpa only [visit, hb] using hrest

end Ranges

end Loops
