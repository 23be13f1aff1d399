import DasiModel.CHandles

/-!
# The iteration protocol of the four handles

Calls of `next` and of the reading functions come in any order. The position
of a handle is the number of `next` calls that did not return an error; it
determines every code and every value read. For the lazy generators the
invariant ties the flag `first`, the element in hand and the rest of the FDB
stream to that position; the retrieve result only counts along its vector. Each
call of `next`, failing or not, answers to one event of the FDB stream.
-/

namespace IterationProtocol
open Texts Exceptions DasiKey Generators CHandles Machines Cursors

universe u v w x y

/-- The calls that iterate over a handle; reading calls carry what they ask for. -/
inductive Call (R : Type u) where
  | next
  | read (request : R)

inductive Answer (A : Type u) where
  | next (result : Except Exception Code)
  | read (result : Except Exception A)

def Call.moves {R : Type u} : Call R → Bool
  | .next => true
  | .read _ => false

def verdict {A : Type u} : Answer A → Advance
  | .next result => match tryCatchCode result with
    | .success => .delivered
    | .iterationComplete => .complete
    | _ => .failed
  | .read _ => .failed

/-- One call on a handle; a reading call gets the handle as `const`. -/
def step {H : Type u} {R : Type v} {A : Type w} (next : H → Except Exception Code × H)
    (read : H → R → Except Exception A) (h : H) : Call R → Answer A × H
  | .next => (.next (next h).1, (next h).2)
  | .read request => (.read (read h request), h)

/-- What a reading call answers after `k` moves along `s`. -/
def expected {R : Type u} {A : Type v} {T : Type w} (ended : String)
    (report : Nat → R → T → A) (s : List T) (k : Nat) (request : R) : Except Exception A :=
  match inHand s k with
  | some e => .ok (report k request e)
  | none => .error (.assertionFailed (ascii ended))

/-- What the fields of an FDB element say a reading call should answer. -/
def Expected {R : Type u} {A : Type v} {E : Type w} (ended : String)
    (Reports : Nat → R → E → A → Prop) (s : List E) (k : Nat) (request : R)
    (answer : Except Exception A) : Prop :=
  match inHand s k with
  | some e => ∃ a, answer = .ok a ∧ Reports k request e a
  | none => answer = .error (.assertionFailed (ascii ended))

/-- The answer of `next` to what the FDB iterator does: an element, an exception, or no more. -/
def answerTo {E : Type u} : Option (Event E Exception) → Except Exception Code
  | some (.element _) => .ok .success
  | some (.failure x) => .error x
  | none => .ok .iterationComplete

/-- The calls of `next`, whatever they answered. -/
def nextCalls {R : Type u} (history : List (Call R)) : Nat := history.countP Call.moves

/-- What any sequence of calls sees of an FDB stream. -/
structure Iterates {H : Type u} {R : Type v} {A : Type w} {E : Type x}
    (next : H → Except Exception Code × H) (read : H → R → Except Exception A)
    (ended : String) (Reports : Nat → R → E → A → Prop) (stream : FdbIterator E) (h₀ : H) :
    Prop where
  /-- The codes of the calls of `next` that do not fail, and the element they leave. -/
  advances : ∀ history : List (Call R),
    let k := passes Call.moves verdict (trace (step next read) h₀ history)
    let h := after (step next read) h₀ history
    (tryCatchCode (next h).1).isError = false →
      tryCatchCode (next h).1 =
        (if k < (elements stream).length then .success else .iterationComplete) ∧
        ∀ request, Expected ended Reports (elements stream) (k + 1) request
          (read (next h).2 request)
  /-- Each call of `next` answers to the next event of the stream. -/
  answers : ∀ history : List (Call R),
    (next (after (step next read) h₀ history)).1 = answerTo stream[nextCalls history]?
  /-- If the FDB iterator throws, the call returns the code of an error, and the element in
  hand stays. -/
  throws : ∀ (history : List (Call R)) (x : Exception),
    stream[nextCalls history]? = some (.failure x) →
    let h := after (step next read) h₀ history
    tryCatchCode (next h).1 = x.code ∧ x.code.isError = true ∧
      ∀ request, read (next h).2 request = read h request
  /-- A call of `next` that fails changes nothing that can be read. -/
  stays : ∀ history : List (Call R),
    let h := after (step next read) h₀ history
    (tryCatchCode (next h).1).isError = true →
      ∀ request, read (next h).2 request = read h request
  /-- Reading depends on the position and does not move it. -/
  reads : ∀ (history : List (Call R)) (request : R),
    let k := passes Call.moves verdict (trace (step next read) h₀ history)
    let h := after (step next read) h₀ history
    Expected ended Reports (elements stream) k request (read h request) ∧
      (step next read h (.read request)).2 = h
  /-- Every element is delivered once, and every failure is one of the stream's. -/
  counts : ∀ history : List (Call R),
    let run := trace (step next read) h₀ history
    deliveries Call.moves verdict run =
        min (passes Call.moves verdict run) (elements stream).length ∧
      misses Call.moves verdict run ≤ failures stream

section General
variable {H : Type u} {R : Type v} {A : Type w} {T : Type x}
  {next : H → Except Exception Code × H} {read : H → R → Except Exception A}

/-- All that a call of `next` can do at position `k`. -/
def NextSpec (At : Nat → H → Prop) (budget : H → Nat) (s : List T) (k : Nat) (h : H)
    (out : Except Exception Code × H) : Prop :=
  (∃ x, out.1 = .error x ∧ At k out.2 ∧ budget out.2 + 1 = budget h) ∨
  (out.1 = .ok .success ∧ At (k + 1) out.2 ∧ budget out.2 = budget h ∧ k < s.length) ∨
  (out.1 = .ok .iterationComplete ∧ At (k + 1) out.2 ∧ budget out.2 = budget h ∧ s.length ≤ k)

theorem verdict_next_failed_iff (result : Except Exception Code) :
    verdict (A := A) (.next result) = .failed ↔ (tryCatchCode result).isError = true := by
  simp only [verdict]
  cases tryCatchCode result <;> decide

theorem verdict_next_error (x : Exception) :
    verdict (A := A) (.next (.error x)) = .failed :=
  (verdict_next_failed_iff _).mpr x.code_isError

theorem tracks_of_nextSpec {At : Nat → H → Prop} {budget : H → Nat} {s : List T}
    (spec : ∀ {k h}, At k h → NextSpec At budget s k h (next h)) :
    Tracks (step next read) Call.moves verdict budget s At where
  reads := by
    intro k h i _ hread
    cases i with
    | next => cases hread
    | read request => rfl
  failed := by
    intro k h i position hmove hv
    cases i with
    | read request => cases hmove
    | next =>
      rcases spec position with ⟨x, -, stays, paid⟩ | ⟨hout, -⟩ | ⟨hout, -⟩
      · exact ⟨stays, paid⟩
      · simp [step, hout, verdict, tryCatchCode] at hv
      · simp [step, hout, verdict, tryCatchCode] at hv
  delivered := by
    intro k h i position hmove hv
    cases i with
    | read request => cases hmove
    | next =>
      rcases spec position with ⟨x, hout, -⟩ | ⟨-, moved, paid, room⟩ | ⟨hout, -⟩
      · simp [step, hout, verdict_next_error] at hv
      · exact ⟨moved, paid, room⟩
      · simp [step, hout, verdict, tryCatchCode] at hv
  complete := by
    intro k h i position hmove hv
    cases i with
    | read request => cases hmove
    | next =>
      rcases spec position with ⟨x, hout, -⟩ | ⟨hout, -⟩ | ⟨-, moved, paid, past⟩
      · simp [step, hout, verdict_next_error] at hv
      · simp [step, hout, verdict, tryCatchCode] at hv
      · exact ⟨moved, paid, past⟩

/-- What each call of `next` moves on depends on the number of these calls alone. -/
theorem after_nextCalls {Cursor : Nat → H → Prop}
    (advance : ∀ {n h}, Cursor n h → Cursor (n + 1) (next h).2) {h₀ : H} (start : Cursor 0 h₀)
    (history : List (Call R)) :
    Cursor (nextCalls history) (after (step next read) h₀ history) := by
  induction history using List.reverseRecOn with
  | nil => exact start
  | append_singleton history c ih =>
    rw [after_concat, nextCalls, List.countP_append]
    cases c with
    | next => exact advance ih
    | read request => exact ih

theorem expected_reports {E : Type y} {f : E → T} {ended : String} {report : Nat → R → T → A}
    {Reports : Nat → R → E → A → Prop}
    (reports : ∀ k request e, Reports k request e (report k request (f e))) (s : List E) (k : Nat)
    (request : R) :
    Expected ended Reports s k request (expected ended report (s.map f) k request) := by
  rw [Expected, expected, inHand_map]
  cases inHand s k with
  | none => rfl
  | some e => exact ⟨_, rfl, reports k request e⟩

/-- The step lemmas of a handle give the whole protocol. -/
theorem iterates_of_nextSpec {E : Type y} {At Cursor : Nat → H → Prop} (budget : H → Nat)
    {stream : FdbIterator E} {f : E → T} {ended : String} {report : Nat → R → T → A}
    {Reports : Nat → R → E → A → Prop} {h₀ : H}
    (reads : ∀ {k h}, At k h → ∀ request,
      read h request = expected ended report ((elements stream).map f) k request)
    (reports : ∀ k request e, Reports k request e (report k request (f e)))
    (spec : ∀ {k h}, At k h → NextSpec At budget ((elements stream).map f) k h (next h))
    (answered : ∀ {n h}, Cursor n h →
      (next h).1 = answerTo stream[n]? ∧ Cursor (n + 1) (next h).2)
    (start : At 0 h₀) (opened : Cursor 0 h₀) (paid : budget h₀ = failures stream) :
    Iterates next read ended Reports stream h₀ := by
  have tracks : Tracks (step next read) Call.moves verdict budget ((elements stream).map f) At :=
    tracks_of_nextSpec spec
  have shows : ∀ {k h}, At k h → ∀ request,
      Expected ended Reports (elements stream) k request (read h request) := by
    intro k h position request
    rw [reads position request]
    exact expected_reports reports _ _ _
  have advance : ∀ {n h}, Cursor n h → Cursor (n + 1) (next h).2 :=
    fun cursor => (answered cursor).2
  have answers : ∀ history : List (Call R),
      (next (after (step next read) h₀ history)).1 = answerTo stream[nextCalls history]? := by
    intro history
    have cursor : Cursor (nextCalls history) (after (step next read) h₀ history) :=
      after_nextCalls advance opened history
    exact (answered cursor).1
  have stays : ∀ history : List (Call R),
      let h := after (step next read) h₀ history
      (tryCatchCode (next h).1).isError = true →
        ∀ request, read (next h).2 request = read h request := by
    intro history h failing request
    have position := (tracks.run start history).1
    rcases spec position with ⟨x, hout, stays, -⟩ | ⟨hout, -⟩ | ⟨hout, -⟩
    · exact (reads stays request).trans (reads position request).symm
    · rw [hout] at failing
      cases failing
    · rw [hout] at failing
      cases failing
  refine ⟨?_, answers, ?_, stays, ?_, ?_⟩
  · intro history k h ok
    have position : At k h := (tracks.run start history).1
    rcases spec position with ⟨x, hout, -⟩ | ⟨hout, moved, -, room⟩ | ⟨hout, moved, -, past⟩
    · rw [hout, tryCatchCode, x.code_isError] at ok
      cases ok
    · rw [List.length_map] at room
      refine ⟨?_, shows moved⟩
      rw [hout, if_pos room]
      rfl
    · rw [List.length_map] at past
      refine ⟨?_, shows moved⟩
      rw [hout, if_neg (Nat.not_lt_of_le past)]
      rfl
  · intro history x thrown h
    have code : tryCatchCode (next h).1 = x.code := by
      rw [answers history, thrown]
      rfl
    exact ⟨code, x.code_isError, stays history (code ▸ x.code_isError)⟩
  · intro history request k h
    exact ⟨shows (tracks.run start history).1 request, rfl⟩
  · intro history run
    obtain ⟨-, delivered, missed⟩ := tracks.run start history
    rw [List.length_map] at delivered
    exact ⟨delivered, Nat.le.intro (missed.trans paid)⟩

end General

section Lazy
variable {E : Type u} {T : Type v} [Assigns E T] {f : E → T} {s : List T}

/-- A handle over a lazy generator after `k` moves along `s`. -/
structure LazyAt (f : E → T) (s : List T) (k : Nat) (h : Handle (LazyGenerator E T)) : Prop where
  first : h.first = decide (k = 0)
  past : h.generator.done = true → s.length ≤ k - 1
  live : h.generator.done = false → inHand s k = some h.generator.dasiElement ∧
    (elements h.generator.iter).map f = s.drop (max k 1)

def pendingFailures (h : Handle (LazyGenerator E T)) : Nat := failures h.generator.iter

omit [Assigns E T] in
/-- The end is reached exactly when the position has passed the last element. -/
theorem LazyAt.done_iff {k : Nat} {h : Handle (LazyGenerator E T)} (position : LazyAt f s k h) :
    h.generator.done = true ↔ s.length ≤ k - 1 := by
  constructor
  · exact position.past
  · intro hlen
    by_contra hd
    have hcurrent := (position.live (by simpa using hd)).1
    rw [inHand, List.getElem?_eq_none hlen] at hcurrent
    cases hcurrent

/-- The generator's own step, once the prefetched element has been asked for. -/
theorem generator_next (fresh : ∀ e t, Assigns.assign e t = f e) {k : Nat} (hk : 0 < k)
    {g : LazyGenerator E T} (position : LazyAt f s k ⟨false, g⟩) :
    (∃ x, g.next.1 = .error x ∧ LazyAt f s k ⟨false, g.next.2⟩ ∧
      failures g.next.2.iter + 1 = failures g.iter) ∨
    (g.next.1 = .ok () ∧ LazyAt f s (k + 1) ⟨false, g.next.2⟩ ∧
      failures g.next.2.iter = failures g.iter) := by
  have hfirst : (false : Bool) = decide (k + 1 = 0) := (decide_eq_false (by omega)).symm
  cases hdone : g.done with
  | true =>
    have hover : s.length ≤ k - 1 := position.past hdone
    rw [LazyGenerator.next_of_done hdone]
    refine Or.inr ⟨rfl, ⟨hfirst, fun _ => ?_, fun hlive => ?_⟩, rfl⟩
    · change s.length ≤ k
      omega
    · rw [hdone] at hlive
      cases hlive
  | false =>
    obtain ⟨hcurrent, hrest⟩ := position.live hdone
    rw [Nat.max_eq_left hk] at hrest
    cases hiter : g.iter with
    | nil =>
      have hlen : s.length ≤ k := by simpa [hiter, elements] using hrest.symm
      rw [LazyGenerator.next_of_nil hdone hiter]
      exact Or.inr ⟨rfl, ⟨hfirst, fun _ => hlen, fun hlive => by cases hlive⟩, by rw [hiter]⟩
    | cons event rest =>
      simp only [hiter] at hrest
      cases event with
      | failure x =>
        rw [LazyGenerator.next_of_failure hdone hiter]
        refine Or.inl ⟨x, rfl, ⟨position.first, fun hd => ?_, fun _ => ⟨hcurrent, ?_⟩⟩, rfl⟩
        · rw [hdone] at hd
          cases hd
        · rw [Nat.max_eq_left hk]
          exact hrest
      | element e =>
        have hcons : f e :: (elements rest).map f = s.drop k := hrest
        have hhead : s[k]? = some (f e) := by
          rw [← List.head?_drop, ← hcons, List.head?_cons]
        rw [LazyGenerator.next_of_element hdone hiter]
        refine Or.inr ⟨rfl, ⟨hfirst, fun hd => ?_, fun _ => ⟨?_, ?_⟩⟩, rfl⟩
        · rw [hdone] at hd
          cases hd
        · rw [fresh]
          exact hhead
        · have htail : (s.drop k).tail = (elements rest).map f := by rw [← hcons, List.tail_cons]
          rw [Nat.max_eq_left (by omega), ← htail, List.tail_drop]

/-- The verdict after a move that did not fail. -/
theorem nextSpec_of_moved {k : Nat} {h h' : Handle (LazyGenerator E T)}
    (moved : LazyAt f s (k + 1) h') (paid : pendingFailures h' = pendingFailures h) :
    NextSpec (LazyAt f s) pendingFailures s k h (.ok h'.endCode, h') := by
  have hend : h'.atEnd = true ↔ s.length ≤ k := moved.done_iff
  by_cases hlen : s.length ≤ k
  · refine Or.inr (Or.inr ⟨?_, moved, paid, hlen⟩)
    rw [Handle.endCode, if_pos (hend.mpr hlen)]
  · refine Or.inr (Or.inl ⟨?_, moved, paid, by omega⟩)
    rw [Handle.endCode, if_neg (fun he => hlen (hend.mp he))]

/-- All that `next` does on a handle over a lazy generator. -/
theorem lazy_nextSpec (fresh : ∀ e t, Assigns.assign e t = f e) {k : Nat}
    {h : Handle (LazyGenerator E T)} (position : LazyAt f s k h) :
    NextSpec (LazyAt f s) pendingFailures s k h h.next := by
  obtain ⟨first, g⟩ := h
  have hfirst : first = decide (k = 0) := position.first
  by_cases hk : k = 0
  · subst hk
    subst hfirst
    -- the element fetched by the constructor is handed out: nothing moves but the flag
    have moved : LazyAt f s 1 ⟨false, g⟩ := ⟨rfl, position.past, position.live⟩
    exact nextSpec_of_moved moved rfl
  · have hff : first = false := hfirst.trans (decide_eq_false hk)
    subst hff
    rcases generator_next fresh (Nat.pos_of_ne_zero hk) position with
      ⟨x, hout, stays, paid⟩ | ⟨hout, moved, paid⟩
    · rw [Handle.next_of_error hout]
      exact Or.inl ⟨x, rfl, stays, paid⟩
    · rw [Handle.next_of_ok hout]
      exact nextSpec_of_moved moved paid

/-- The state in which a constructor leaves a handle. -/
theorem lazyAt_create [Inhabited T] (fresh : ∀ e t, Assigns.assign e t = f e)
    {iter : FdbIterator E} {g : LazyGenerator E T} (h : LazyGenerator.create iter = .ok g) :
    LazyAt f ((elements iter).map f) 0 ⟨true, g⟩ ∧ failures g.iter = failures iter := by
  cases iter with
  | nil =>
    cases h
    exact ⟨⟨rfl, fun _ => Nat.le_refl 0, fun hlive => by cases hlive⟩, rfl⟩
  | cons event rest =>
    cases event with
    | failure x => cases h
    | element e =>
      cases h
      refine ⟨⟨rfl, nofun, fun _ => ⟨?_, rfl⟩⟩, rfl⟩
      simp [elements, fresh]

/-- A handle over a lazy generator after `n` calls of `next`, the failing ones included: one
event was read by the constructor, and one by each call but the first. -/
structure LazyCursor (stream : FdbIterator E) (n : Nat) (h : Handle (LazyGenerator E T)) :
    Prop where
  first : h.first = decide (n = 0)
  past : h.generator.done = true → stream.length ≤ n - 1
  live : h.generator.done = false → h.generator.iter = stream.drop (max n 1) ∧
    ∃ e rest, stream = .element e :: rest

omit [Assigns E T] in
theorem LazyCursor.endCode {stream : FdbIterator E} {n : Nat} {h : Handle (LazyGenerator E T)}
    [Assigns E T] (cursor : LazyCursor stream (n + 1) h) (moved : h.generator.done = false →
      ∃ e, stream[n]? = some (.element e)) :
    (.ok h.endCode : Except Exception Code) = answerTo stream[n]? := by
  cases done : h.generator.done with
  | true =>
    have past : stream.length ≤ n := cursor.past done
    have ended : h.atEnd = true := done
    rw [Handle.endCode, if_pos ended, List.getElem?_eq_none past]
    rfl
  | false =>
    obtain ⟨e, here⟩ := moved done
    have going : ¬ h.atEnd = true := Bool.eq_false_iff.mp done
    rw [Handle.endCode, if_neg going, here]
    rfl

/-- A call after the first one is a step of the generator. -/
theorem next_of_generator {g g' : LazyGenerator E T} (moved : g.next = (.ok (), g')) :
    (Handle.mk false g).next = (.ok (Handle.mk false g').endCode, ⟨false, g'⟩) := by
  have out := Handle.next_of_ok (congrArg Prod.fst moved)
  have left : (APIGeneratorImpl.next g).2 = g' := congrArg Prod.snd moved
  rwa [left] at out

theorem next_of_generator_error {g g' : LazyGenerator E T} {x : Exception}
    (thrown : g.next = (.error x, g')) :
    (Handle.mk false g).next = (.error x, ⟨false, g'⟩) := by
  have out := Handle.next_of_error (congrArg Prod.fst thrown)
  have left : (APIGeneratorImpl.next g).2 = g' := congrArg Prod.snd thrown
  rwa [left] at out

/-- Each call of `next` answers to the next event. -/
theorem lazyCursor_next {stream : FdbIterator E} {n : Nat} {h : Handle (LazyGenerator E T)}
    (cursor : LazyCursor stream n h) :
    h.next.1 = answerTo stream[n]? ∧ LazyCursor stream (n + 1) h.next.2 := by
  obtain ⟨first, g⟩ := h
  have lowered : (false : Bool) = decide (n + 1 = 0) := (decide_eq_false (by omega)).symm
  obtain ⟨flag, past, live⟩ := cursor
  simp only at flag past live
  by_cases start : n = 0
  · subst start
    subst flag
    have moved : LazyCursor stream (0 + 1) ⟨false, g⟩ := ⟨lowered, past, live⟩
    refine ⟨moved.endCode (fun going => ?_), moved⟩
    obtain ⟨-, e, rest, rfl⟩ := live going
    exact ⟨e, rfl⟩
  · obtain rfl : first = false := flag.trans (decide_eq_false start)
    cases done : g.done with
    | true =>
      have ended := past done
      have moved : LazyCursor stream (n + 1) (⟨false, g⟩ : Handle (LazyGenerator E T)) := by
        refine ⟨lowered, fun _ => ?_, fun going => ?_⟩
        · omega
        · rw [done] at going
          cases going
      rw [next_of_generator (LazyGenerator.next_of_done done)]
      refine ⟨moved.endCode (fun going => ?_), moved⟩
      rw [done] at going
      cases going
    | false =>
      obtain ⟨rest, whole⟩ := live done
      rw [Nat.max_eq_left (Nat.pos_of_ne_zero start)] at rest
      cases ahead : g.iter with
      | nil =>
        have ended : stream.length ≤ n := List.drop_eq_nil_iff.mp (rest.symm.trans ahead)
        have moved : LazyCursor stream (n + 1)
            (⟨false, { g with done := true }⟩ : Handle (LazyGenerator E T)) :=
          ⟨lowered, fun _ => ended, fun going => nomatch going⟩
        rw [next_of_generator (LazyGenerator.next_of_nil done ahead)]
        exact ⟨moved.endCode (fun going => nomatch going), moved⟩
      | cons event later =>
        have here : stream[n]? = some event := by
          rw [← List.head?_drop, ← rest, ahead, List.head?_cons]
        have behind : later = stream.drop (max (n + 1) 1) := by
          rw [Nat.max_eq_left (Nat.succ_pos n), ← List.tail_drop, ← rest, ahead, List.tail_cons]
        cases event with
        | failure x =>
          rw [next_of_generator_error (LazyGenerator.next_of_failure done ahead), here]
          refine ⟨rfl, lowered, fun ended => ?_, fun _ => ⟨behind, whole⟩⟩
          rw [done] at ended
          cases ended
        | element e =>
          have moved : LazyCursor stream (n + 1) ⟨false,
              { g with iter := later, dasiElement := Assigns.assign e g.dasiElement }⟩ := by
            refine ⟨lowered, fun ended => ?_, fun _ => ⟨behind, whole⟩⟩
            rw [done] at ended
            cases ended
          rw [next_of_generator (LazyGenerator.next_of_element done ahead)]
          exact ⟨moved.endCode (fun _ => ⟨e, here⟩), moved⟩

theorem lazyCursor_create [Inhabited T] {iter : FdbIterator E} {g : LazyGenerator E T}
    (h : LazyGenerator.create iter = .ok g) : LazyCursor iter 0 ⟨true, g⟩ := by
  cases iter with
  | nil =>
    cases h
    exact ⟨rfl, fun _ => Nat.le_refl 0, fun going => by cases going⟩
  | cons event rest =>
    cases event with
    | failure x => cases h
    | element e =>
      cases h
      exact ⟨rfl, nofun, fun _ => ⟨rfl, e, rest, rfl⟩⟩

/-- Reading the string of a wipe or purge handle. -/
theorem getValue_eq [Assigns E Bytes] {f : E → Bytes} {s : List Bytes} {text : String} {k : Nat}
    {h : Handle (LazyGenerator E Bytes)} (position : LazyAt f s k h) (value : Bool) :
    h.getValue text value =
      expected text (fun _ wanted e => if wanted then some e else none) s k value := by
  cases hd : h.generator.done with
  | true =>
    have hcurrent : inHand s k = none := List.getElem?_eq_none (position.past hd)
    simp [Handle.getValue, Handle.atEnd, APIGeneratorImpl.done, hd, expected, hcurrent, assert,
      bind, Except.bind]
  | false =>
    simp [Handle.getValue, Handle.atEnd, APIGeneratorImpl.done, hd, expected,
      (position.live hd).1, assert, bind, Except.bind, APIGeneratorImpl.value, pure, Except.pure]

end Lazy

section List
variable {s : List ListElement}

/-- The list handle also keeps the URI of the last element moved to. -/
structure ListAt (s : List ListElement) (k : Nat) (l : DasiList) : Prop where
  lazy : LazyAt convert s k l.toHandle
  cached : ∀ e, inHand s k = some e → l.uriCache = if k = 0 then [] else e.location.uri

/-- What `dasi_list_attrs` hands out: before the first move there is no URI yet. -/
def listReport (k : Nat) (wanted : Wanted) (e : ListElement) : Attrs :=
  Attrs.of wanted e (if k = 0 then [] else e.location.uri)

theorem list_nextSpec {k : Nat} {l : DasiList} (position : ListAt s k l) :
    NextSpec (ListAt s) (fun l => pendingFailures l.toHandle) s k l (dasiListNext l) := by
  obtain ⟨h, cache⟩ := l
  have spec := lazy_nextSpec (f := convert) (fun _ _ => rfl) position.lazy
  cases hout : h.next with
  | mk result h' =>
    simp only [hout] at spec
    rcases spec with ⟨x, hr, stays, paid⟩ | ⟨hr, moved, paid, room⟩ | ⟨hr, moved, paid, past⟩
    · cases hr
      simp only [dasiListNext, hout]
      exact Or.inl ⟨x, rfl, ⟨stays, position.cached⟩, paid⟩
    · cases hr
      simp only [dasiListNext, hout]
      refine Or.inr (Or.inl ⟨rfl, ⟨moved, ?_⟩, paid, room⟩)
      intro e he
      have hlive : h'.generator.done = false := by
        by_contra hd
        have hlen := moved.past (by simpa using hd)
        change s.length ≤ k at hlen
        omega
      have hcurrent := (moved.live hlive).1
      rw [he] at hcurrent
      cases hcurrent
      rfl
    · cases hr
      simp only [dasiListNext, hout]
      refine Or.inr (Or.inr ⟨rfl, ⟨moved, ?_⟩, paid, past⟩)
      intro e he
      rw [inHand_succ, List.getElem?_eq_none past] at he
      cases he

theorem dasiListAttrs_eq {k : Nat} {l : DasiList} (position : ListAt s k l) (wanted : Wanted) :
    dasiListAttrs l wanted =
      expected "list->iterator != list->generator.end()" listReport s k wanted := by
  cases hd : l.generator.done with
  | true =>
    have hcurrent : inHand s k = none := List.getElem?_eq_none (position.lazy.past hd)
    simp [dasiListAttrs, Handle.atEnd, APIGeneratorImpl.done, hd, expected, hcurrent, assert,
      bind, Except.bind]
  | false =>
    have hcurrent := (position.lazy.live hd).1
    simp [dasiListAttrs, Handle.atEnd, APIGeneratorImpl.done, hd, expected, hcurrent, assert,
      bind, Except.bind, pure, Except.pure, listReport, position.cached _ hcurrent]

end List

section Retrieve
variable {D : Type u} {values : List FdbListElement}

/-- The retrieve result counts along its vector and stops at its end. -/
structure RetrieveAt (values : List FdbListElement) (k : Nat)
    (h : Handle RetrieveResultImpl) : Prop where
  first : h.first = decide (k = 0)
  values_eq : h.generator.values = values
  iter_eq : h.generator.iter = min (k - 1) values.length
  done_eq : h.generator.done = decide (values.length ≤ k - 1)
  live : ∀ e, inHand values k = some e → h.generator.dasiElement = convert e

/-- What `dasi_retrieve_attrs` hands out. -/
def retrieveReport (_ : Nat) (wanted : Wanted) (e : ListElement) : Attrs :=
  Attrs.of { wanted with uri := false } e []

/-- The result's own step, once the first element has been asked for. -/
theorem result_next {k : Nat} (hk : 0 < k) {r : RetrieveResultImpl}
    (position : RetrieveAt values k ⟨false, r⟩) : RetrieveAt values (k + 1) ⟨false, r.next⟩ := by
  have hfirst : (false : Bool) = decide (k + 1 = 0) := (decide_eq_false (by omega)).symm
  obtain ⟨-, hvalues, hiter, hdone, -⟩ := position
  simp only at hvalues hiter hdone
  rw [RetrieveResultImpl.next]
  by_cases hover : values.length ≤ k - 1
  · have hd : r.done = true := hdone.trans (decide_eq_true hover)
    rw [if_pos hd]
    refine ⟨hfirst, hvalues, ?_, ?_, ?_⟩
    · change r.iter = min k values.length
      omega
    · change r.done = decide (values.length ≤ k)
      rw [hd, decide_eq_true (by omega)]
    · intro e he
      rw [inHand_succ, List.getElem?_eq_none (by omega)] at he
      cases he
  · have hd : ¬ r.done = true := by
      rw [hdone, decide_eq_false hover]
      decide
    have hmoved : r.iter + 1 = k := by omega
    rw [if_neg hd]
    refine ⟨hfirst, ?_, ?_, ?_, ?_⟩
    · rw [RetrieveResultImpl.updateResult_values]
      exact hvalues
    · rw [RetrieveResultImpl.updateResult_iter]
      change r.iter + 1 = min k values.length
      omega
    · rw [RetrieveResultImpl.updateResult_done]
      change decide (r.values.length ≤ r.iter + 1) = decide (values.length ≤ k)
      rw [hvalues, hmoved]
    · intro e he
      apply RetrieveResultImpl.updateResult_dasiElement
      change r.values[r.iter + 1]? = some e
      rw [hvalues, hmoved]
      exact he

theorem result_nextSpec {k : Nat} {h : Handle RetrieveResultImpl}
    (position : RetrieveAt values k h) :
    NextSpec (RetrieveAt values) (fun _ => 0) (values.map convert) k h h.next := by
  have verdict_of_moved : ∀ {h' : Handle RetrieveResultImpl}, RetrieveAt values (k + 1) h' →
      NextSpec (RetrieveAt values) (fun _ => 0) (values.map convert) k h (.ok h'.endCode, h') := by
    intro h' moved
    have hend : h'.atEnd = decide (values.length ≤ k) := moved.done_eq
    by_cases hlen : values.length ≤ k
    · refine Or.inr (Or.inr ⟨?_, moved, rfl, by simpa using hlen⟩)
      rw [Handle.endCode, hend, decide_eq_true hlen, if_pos rfl]
    · refine Or.inr (Or.inl ⟨?_, moved, rfl, by simpa using hlen⟩)
      rw [Handle.endCode, hend, decide_eq_false hlen, if_neg Bool.false_ne_true]
  obtain ⟨first, r⟩ := h
  have hfirst : first = decide (k = 0) := position.first
  by_cases hk : k = 0
  · subst hk
    subst hfirst
    obtain ⟨-, hvalues, hiter, hdone, hlive⟩ := position
    have moved : RetrieveAt values 1 ⟨false, r⟩ := ⟨rfl, hvalues, hiter, hdone, hlive⟩
    exact verdict_of_moved moved
  · have hff : first = false := hfirst.trans (decide_eq_false hk)
    subst hff
    rw [Handle.next_of_ok rfl]
    exact verdict_of_moved (result_next (Nat.pos_of_ne_zero hk) position)

theorem retrieve_nextSpec {k : Nat} {r : DasiRetrieve D} (position : RetrieveAt values k r.toHandle) :
    NextSpec (fun k (r : DasiRetrieve D) => RetrieveAt values k r.toHandle) (fun _ => 0)
      (values.map convert) k r (dasiRetrieveNext r) :=
  result_nextSpec position

theorem retrieveAt_create {iter : FdbIterator FdbListElement} {r : RetrieveResultImpl}
    (h : RetrieveResultImpl.create iter = .ok r) : RetrieveAt (elements iter) 0 ⟨true, r⟩ := by
  obtain ⟨values, hdrain, rfl⟩ := of_map_eq_ok h
  rw [drain_eq_ok hdrain, elements_map_element]
  refine ⟨rfl, ?_, ?_, ?_, fun e he => ?_⟩
  · exact RetrieveResultImpl.updateResult_values _
  · exact (RetrieveResultImpl.updateResult_iter _).trans (Nat.zero_min _).symm
  · exact RetrieveResultImpl.updateResult_done _
  · exact RetrieveResultImpl.updateResult_dasiElement he

theorem dasiRetrieveAttrs_eq {k : Nat} {r : DasiRetrieve D}
    (position : RetrieveAt values k r.toHandle) (wanted : Wanted) :
    dasiRetrieveAttrs r wanted = expected "retrieve->iterator != retrieve->retrieve.end()"
      retrieveReport (values.map convert) k wanted := by
  have hend : r.atEnd = decide (values.length ≤ k - 1) := position.done_eq
  by_cases hlen : values.length ≤ k - 1
  · have hcurrent : inHand values k = none := List.getElem?_eq_none hlen
    simp [dasiRetrieveAttrs, hend, hlen, expected, inHand_map, hcurrent, assert, bind, Except.bind]
  · obtain ⟨e, he⟩ : ∃ e, inHand values k = some e :=
      ⟨_, List.getElem?_eq_getElem (by omega)⟩
    simp [dasiRetrieveAttrs, hend, hlen, expected, inHand_map, he, position.live e he, assert,
      bind, Except.bind, pure, Except.pure, retrieveReport]

end Retrieve

section Reports

/-- The string of a wipe or purge element, if it is asked for. -/
def StringReport {E : Type u} (string : E → Bytes) (_ : Nat) (wanted : Bool) (e : E)
    (value : Option Bytes) : Prop := value = if wanted then some (string e) else none

/-- The outputs show the fields of an FDB element, its key binding by binding. -/
structure Shows (wanted : Wanted) (e : FdbListElement) (uri : Bytes) (attrs : Attrs) : Prop where
  key : wanted.key = true → ∃ key, attrs.key = some key ∧ Key.HasBindings e.combinedKey key
  noKey : wanted.key = false → attrs.key = none
  timestamp : attrs.timestamp = if wanted.timestamp then some e.timestamp else none
  uri : attrs.uri = if wanted.uri then some uri else none
  offset : attrs.offset = if wanted.offset then some e.location.offset else none
  length : attrs.length = if wanted.length then some e.location.length else none

theorem shows_of (wanted : Wanted) (e : FdbListElement) (uri : Bytes) :
    Shows wanted e uri (Attrs.of wanted (convert e) uri) where
  key asked := ⟨Key.ofCombined e.combinedKey, by rw [Attrs.of, if_pos asked]; rfl,
    Key.hasBindings_ofCombined _⟩
  noKey unasked := by rw [Attrs.of, unasked]; rfl
  timestamp := rfl
  uri := rfl
  offset := rfl
  length := rfl

/-- Before the first move a listing has no URI yet. -/
def ListReport (k : Nat) (wanted : Wanted) (e : FdbListElement) (attrs : Attrs) : Prop :=
  Shows wanted e (if k = 0 then [] else e.location.uri) attrs

/-- A retrieve result shows no URIs. -/
def RetrieveReport (_ : Nat) (wanted : Wanted) (e : FdbListElement) (attrs : Attrs) : Prop :=
  Shows { wanted with uri := false } e [] attrs

theorem listReport_shows (k : Nat) (wanted : Wanted) (e : FdbListElement) :
    ListReport k wanted e (listReport k wanted (convert e)) := shows_of _ _ _

theorem retrieveReport_shows (k : Nat) (wanted : Wanted) (e : FdbListElement) :
    RetrieveReport k wanted e (retrieveReport k wanted (convert e)) := shows_of _ _ _

end Reports

section Protocols

theorem wipe_iterates {ws : FdbIterator FdbWipeElement} {wipe : DasiWipe}
    (created : newDasiWipe ws = .ok wipe) :
    Iterates dasiWipeNext dasiWipeGetValue "wipe->iterator != wipe->generator.end()"
      (StringReport FdbWipeElement.msg) ws wipe := by
  obtain ⟨g, hg, rfl⟩ := of_map_eq_ok created
  obtain ⟨start, hfail⟩ := lazyAt_create (f := FdbWipeElement.msg) (fun _ _ => rfl) hg
  exact iterates_of_nextSpec pendingFailures (fun position => getValue_eq position)
    (fun _ _ _ => rfl) (fun position => lazy_nextSpec (fun _ _ => rfl) position)
    (fun cursor => lazyCursor_next cursor) start (lazyCursor_create hg) hfail

theorem purge_iterates {ps : FdbIterator Bytes} {purge : DasiPurge}
    (created : newDasiPurge ps = .ok purge) :
    Iterates dasiPurgeNext dasiPurgeGetValue "purge->iterator != purge->generator.end()"
      (StringReport id) ps purge := by
  obtain ⟨g, hg, rfl⟩ := of_map_eq_ok created
  obtain ⟨start, hfail⟩ := lazyAt_create (f := id) (fun _ _ => rfl) hg
  exact iterates_of_nextSpec pendingFailures (fun position => getValue_eq position)
    (fun _ _ _ => rfl) (fun position => lazy_nextSpec (fun _ _ => rfl) position)
    (fun cursor => lazyCursor_next cursor) start (lazyCursor_create hg) hfail

theorem listAt_new {ls : FdbIterator FdbListElement} {list : DasiList}
    (created : newDasiList ls = .ok list) :
    ListAt ((elements ls).map convert) 0 list ∧ pendingFailures list.toHandle = failures ls := by
  obtain ⟨g, hg, rfl⟩ := of_map_eq_ok created
  obtain ⟨start, hfail⟩ := lazyAt_create (f := convert) (fun _ _ => rfl) hg
  exact ⟨⟨start, fun _ _ => rfl⟩, hfail⟩

theorem dasiListNext_handle (list : DasiList) :
    (dasiListNext list).1 = list.toHandle.next.1 ∧
      (dasiListNext list).2.toHandle = list.toHandle.next.2 := by
  rw [dasiListNext]
  split <;> simp [*]

theorem list_iterates {ls : FdbIterator FdbListElement} {list : DasiList}
    (created : newDasiList ls = .ok list) :
    Iterates dasiListNext dasiListAttrs "list->iterator != list->generator.end()" ListReport
      ls list := by
  obtain ⟨start, hfail⟩ := listAt_new created
  have opened : LazyCursor ls 0 list.toHandle := by
    obtain ⟨g, hg, rfl⟩ := of_map_eq_ok created
    exact lazyCursor_create hg
  have answered : ∀ {n} {list : DasiList}, LazyCursor ls n list.toHandle →
      (dasiListNext list).1 = answerTo ls[n]? ∧
        LazyCursor ls (n + 1) (dasiListNext list).2.toHandle := by
    intro n list cursor
    obtain ⟨answer, handle⟩ := dasiListNext_handle list
    rw [answer, handle]
    exact lazyCursor_next cursor
  exact iterates_of_nextSpec (fun l : DasiList => pendingFailures l.toHandle)
    (fun position => dasiListAttrs_eq position) listReport_shows
    (fun position => list_nextSpec position) answered start opened hfail

theorem retrieveAt_new {D : Type u} {rs : FdbIterator FdbListElement} {retrieve : DasiRetrieve D}
    (created : newDasiRetrieve rs = .ok retrieve) :
    RetrieveAt (elements rs) 0 retrieve.toHandle := by
  obtain ⟨r, hr, rfl⟩ := of_map_eq_ok created
  exact retrieveAt_create hr

/-- The stream of a retrieve result that could be made raises nowhere. -/
theorem stream_of_retrieve {D : Type u} {rs : FdbIterator FdbListElement}
    {retrieve : DasiRetrieve D} (created : newDasiRetrieve rs = .ok retrieve) :
    rs = (elements rs).map Event.element := by
  obtain ⟨r, hr, -⟩ := of_map_eq_ok created
  obtain ⟨values, hdrain, -⟩ := of_map_eq_ok hr
  rw [drain_eq_ok hdrain, elements_map_element]

theorem retrieve_answered {D : Type u} {values : List FdbListElement} {k : Nat}
    {r : DasiRetrieve D} (position : RetrieveAt values k r.toHandle) :
    (dasiRetrieveNext r).1 = answerTo (values.map (Event.element (X := Exception)))[k]? ∧
      RetrieveAt values (k + 1) (dasiRetrieveNext r).2.toHandle := by
  rcases retrieve_nextSpec position with ⟨x, -, -, unpaid⟩ | ⟨answer, moved, -, room⟩ |
    ⟨answer, moved, -, past⟩
  · cases unpaid
  · rw [List.length_map] at room
    rw [answer, List.getElem?_map, List.getElem?_eq_getElem room]
    exact ⟨rfl, moved⟩
  · rw [List.length_map] at past
    rw [answer, List.getElem?_map, List.getElem?_eq_none past]
    exact ⟨rfl, moved⟩

theorem retrieve_iterates {D : Type u} {rs : FdbIterator FdbListElement}
    {retrieve : DasiRetrieve D} (created : newDasiRetrieve rs = .ok retrieve) :
    Iterates dasiRetrieveNext dasiRetrieveAttrs "retrieve->iterator != retrieve->retrieve.end()"
      RetrieveReport rs retrieve := by
  have start := retrieveAt_new created
  have whole := stream_of_retrieve created
  have paid : 0 = failures rs := by rw [whole, failures_map_element]
  have answered : ∀ {n} {r : DasiRetrieve D}, RetrieveAt (elements rs) n r.toHandle →
      (dasiRetrieveNext r).1 = answerTo rs[n]? ∧
        RetrieveAt (elements rs) (n + 1) (dasiRetrieveNext r).2.toHandle := by
    intro n r position
    have answer := retrieve_answered position
    rwa [← whole] at answer
  exact iterates_of_nextSpec (fun _ : DasiRetrieve D => 0)
    (fun position => dasiRetrieveAttrs_eq position) retrieveReport_shows
    (fun position => retrieve_nextSpec position) answered start start paid

/-- Without the URI, list and retrieve report the same of the same element. -/
theorem reports_agree (k : Nat) {wanted : Wanted} (noUri : wanted.uri = false) (e : ListElement) :
    listReport k wanted e = retrieveReport k wanted e := by
  simp [listReport, retrieveReport, Attrs.of, noUri]

/-- A listing and a retrieve result at one position of one stream report the same. -/
theorem attrs_agree {D : Type u} {ls rs : FdbIterator FdbListElement} {list : DasiList}
    {retrieve : DasiRetrieve D} {k : Nat} (position : ListAt ((elements ls).map convert) k list)
    (position' : RetrieveAt (elements rs) k retrieve.toHandle) (same : elements ls = elements rs)
    {wanted : Wanted} (noUri : wanted.uri = false) (attrs : Attrs) :
    dasiListAttrs list wanted = .ok attrs ↔ dasiRetrieveAttrs retrieve wanted = .ok attrs := by
  rw [dasiListAttrs_eq position, dasiRetrieveAttrs_eq position', same]
  simp only [expected]
  split
  · rw [reports_agree _ noUri]
  · constructor <;> intro h <;> cases h

theorem list_position {ls : FdbIterator FdbListElement} {list : DasiList}
    (created : newDasiList ls = .ok list) (history : List (Call Wanted)) :
    ListAt ((elements ls).map convert)
      (passes Call.moves verdict (trace (step dasiListNext dasiListAttrs) list history))
      (after (step dasiListNext dasiListAttrs) list history) := by
  have tracks : Tracks (step dasiListNext dasiListAttrs) Call.moves verdict
      (fun l => pendingFailures l.toHandle) ((elements ls).map convert)
      (ListAt ((elements ls).map convert)) :=
    tracks_of_nextSpec (fun position => list_nextSpec position)
  exact (tracks.run (listAt_new created).1 history).1

theorem retrieve_position {D : Type u} {rs : FdbIterator FdbListElement}
    {retrieve : DasiRetrieve D} (created : newDasiRetrieve rs = .ok retrieve)
    (history : List (Call Wanted)) :
    RetrieveAt (elements rs)
      (passes Call.moves verdict (trace (step dasiRetrieveNext dasiRetrieveAttrs) retrieve history))
      (after (step dasiRetrieveNext dasiRetrieveAttrs) retrieve history).toHandle := by
  have tracks : Tracks (step dasiRetrieveNext dasiRetrieveAttrs) Call.moves verdict
      (fun _ => 0) ((elements rs).map convert)
      (fun k (r : DasiRetrieve D) => RetrieveAt (elements rs) k r.toHandle) :=
    tracks_of_nextSpec (fun position => retrieve_nextSpec position)
  exact (tracks.run (retrieveAt_new created) history).1

/-- The count of a retrieve handle does not depend on the iteration. -/
theorem retrieve_count {D : Type u} {rs : FdbIterator FdbListElement} {retrieve : DasiRetrieve D}
    (created : newDasiRetrieve rs = .ok retrieve) (history : List (Call Wanted)) :
    dasiRetrieveCount (after (step dasiRetrieveNext dasiRetrieveAttrs) retrieve history) =
      .ok ((elements rs).length : Int) := by
  rw [dasiRetrieveCount, RetrieveResultImpl.count,
    (retrieve_position created history).values_eq]

/-- The iteration protocol of the C API, and the agreement of the lazy listing
with the eager retrieve result on one stream. -/
theorem handles_iterate {D : Type u} {ws : FdbIterator FdbWipeElement} {ps : FdbIterator Bytes}
    {ls rs : FdbIterator FdbListElement} {wipe : DasiWipe} {purge : DasiPurge} {list : DasiList}
    {retrieve : DasiRetrieve D} (hw : newDasiWipe ws = .ok wipe)
    (hp : newDasiPurge ps = .ok purge) (hl : newDasiList ls = .ok list)
    (hr : newDasiRetrieve rs = .ok retrieve) :
    Iterates dasiWipeNext dasiWipeGetValue "wipe->iterator != wipe->generator.end()"
      (StringReport FdbWipeElement.msg) ws wipe ∧
    Iterates dasiPurgeNext dasiPurgeGetValue "purge->iterator != purge->generator.end()"
      (StringReport id) ps purge ∧
    Iterates dasiListNext dasiListAttrs "list->iterator != list->generator.end()" ListReport
      ls list ∧
    Iterates dasiRetrieveNext dasiRetrieveAttrs "retrieve->iterator != retrieve->retrieve.end()"
      RetrieveReport rs retrieve ∧
    (∀ history : List (Call Wanted),
      dasiRetrieveCount (after (step dasiRetrieveNext dasiRetrieveAttrs) retrieve history) =
        .ok ((elements rs).length : Int)) ∧
    (elements ls = elements rs → ∀ listing retrieving : List (Call Wanted),
      passes Call.moves verdict (trace (step dasiListNext dasiListAttrs) list listing) =
        passes Call.moves verdict
          (trace (step dasiRetrieveNext dasiRetrieveAttrs) retrieve retrieving) →
      ∀ wanted : Wanted, wanted.uri = false → ∀ attrs,
        dasiListAttrs (after (step dasiListNext dasiListAttrs) list listing) wanted = .ok attrs ↔
        dasiRetrieveAttrs (after (step dasiRetrieveNext dasiRetrieveAttrs) retrieve retrieving)
          wanted = .ok attrs) := by
  refine ⟨wipe_iterates hw, purge_iterates hp, list_iterates hl, retrieve_iterates hr,
    retrieve_count hr, ?_⟩
  intro same listing retrieving aligned wanted noUri attrs
  have position := retrieve_position hr retrieving
  rw [← aligned] at position
  exact attrs_agree (list_position hl listing) position same noUri attrs

private def firstListed : FdbListElement :=
  ⟨[(ascii "level", ascii "1")], 7, ⟨ascii "file:/a", 0, 3⟩⟩

private def secondListed : FdbListElement :=
  ⟨[(ascii "level", ascii "2")], 8, ⟨ascii "file:/a", 3, 5⟩⟩

/-- Streams that raise once between two elements, and the same elements retrieved. -/
theorem handles_iterate_sample : ∃ (wipe : DasiWipe) (list : DasiList)
    (retrieve : DasiRetrieve Unit),
    newDasiWipe [.element ⟨ascii "a"⟩, .failure .other, .element ⟨ascii "b"⟩] = .ok wipe ∧
    newDasiList [.element firstListed, .failure .other, .element secondListed] = .ok list ∧
    newDasiRetrieve [.element firstListed, .element secondListed] = .ok retrieve ∧
    Iterates dasiWipeNext dasiWipeGetValue "wipe->iterator != wipe->generator.end()"
      (StringReport FdbWipeElement.msg)
      [.element ⟨ascii "a"⟩, .failure .other, .element ⟨ascii "b"⟩] wipe ∧
    Iterates dasiListNext dasiListAttrs "list->iterator != list->generator.end()" ListReport
      [.element firstListed, .failure .other, .element secondListed] list ∧
    Iterates dasiRetrieveNext dasiRetrieveAttrs "retrieve->iterator != retrieve->retrieve.end()"
      RetrieveReport [.element firstListed, .element secondListed] retrieve := by
  have hw : newDasiWipe [.element ⟨ascii "a"⟩, .failure .other, .element ⟨ascii "b"⟩] =
      .ok _ := rfl
  have hp : newDasiPurge [] = .ok _ := rfl
  have hl : newDasiList [.element firstListed, .failure .other, .element secondListed] =
      .ok _ := rfl
  have hr : newDasiRetrieve (D := Unit) [.element firstListed, .element secondListed] =
      .ok _ := rfl
  have h := handles_iterate hw hp hl hr
  exact ⟨_, _, _, hw, hl, hr, h.1, h.2.2.1, h.2.2.2.1⟩

end Protocols

end IterationProtocol
