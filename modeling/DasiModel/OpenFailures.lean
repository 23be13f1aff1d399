import DasiModel.RetrieveReading

/-!
# Reads that fail to open

The first read of a retrieve handle obtains a data handle, opens it and sets the
closer. Obtaining may fail any number of times and nothing is kept of it; a
failed opening leaves the unopened handle behind, and later reads take it for an
open one.
-/

namespace OpenFailures
open Texts Exceptions DasiKey Generators CHandles Machines Cursors RetrieveReading

universe u v w
variable {P : Type u} {D : Type v} {W : Type w}

/-- What eckit is relied on for: opening that returns opens, and reading does not close. -/
structure OpensForReading (io : Eckit P D W) (isOpen : D → Prop) : Prop where
  opens (d : D) (w : W) {d' : D} {w' : W} : io.openForRead d w = (.ok (), d', w') → isOpen d'
  reads (d : D) (n : Nat) (w : W) {result : Except Exception Bytes} {d' : D} {w' : W} :
    isOpen d → io.read d n w = (result, d', w') → isOpen d'

/-- The handle can be read from, now or after a failure. -/
structure Retryable (io : Eckit P D W) (isOpen : D → Prop) (state : DasiRetrieve D × W) : Prop where
  /-- What is stored was opened, and will be closed. -/
  stored : ∀ d, state.1.dh = some d → isOpen d ∧ state.1.closer = true
  /-- A read that gets no open handle raises, and might as well not have been called. -/
  failed : ∀ length : Int, 0 < length → ∀ x r w, handleToRead io state.1 state.2 = (.error x, r, w) →
    (dasiRetrieveRead io state.1 state.2 length).1 = .error x ∧
    (dasiRetrieveRead io state.1 state.2 length).2.1 = state.1
  /-- Reads are issued on open handles only. -/
  issued : ∀ d r w, handleToRead io state.1 state.2 = (.ok d, r, w) → isOpen d

/-- If a read is to open a handle here, opening does not raise. -/
def Opens (io : Eckit P D W) (state : DasiRetrieve D × W) : Prop :=
  state.1.dh = none → ∀ d w, dataHandle io state.1.generator state.2 = (.ok d, w) →
    (io.openForRead d w).1 = .ok ()

section Steps
variable {io : Eckit P D W} {isOpen : D → Prop}

/-- The invariant of the stored handle. -/
def Stored (isOpen : D → Prop) (retrieve : DasiRetrieve D) : Prop :=
  ∀ d, retrieve.dh = some d → isOpen d ∧ retrieve.closer = true

/-- Obtaining a handle: an error changes nothing, and otherwise it is open and the closer set. -/
theorem handleToRead_spec (eckit : OpensForReading io isOpen) {state : DasiRetrieve D × W}
    (stored : Stored isOpen state.1) (opens : Opens io state) :
    (∃ x w, handleToRead io state.1 state.2 = (.error x, state.1, w)) ∨
    ∃ d r w, handleToRead io state.1 state.2 = (.ok d, r, w) ∧ isOpen d ∧ r.closer = true := by
  obtain ⟨retrieve, w⟩ := state
  simp only [handleToRead]
  cases hd : retrieve.dh with
  | some d =>
    obtain ⟨opened, closes⟩ := stored d hd
    exact .inr ⟨d, retrieve, w, rfl, opened, closes⟩
  | none =>
    rcases made : dataHandle io retrieve.generator w with ⟨x | d, w'⟩
    · exact .inl ⟨x, w', rfl⟩
    · have returned := opens hd d w' made
      rcases hopen : io.openForRead d w' with ⟨x | _, d', w''⟩
      · rw [hopen] at returned
        cases returned
      · refine .inr ⟨d', { retrieve with closer := true }, w'', ?_, eckit.opens d w' hopen, rfl⟩
        simp only [hopen, hd]

theorem readFrom_stored (eckit : OpensForReading io isOpen) {retrieve : DasiRetrieve D} {d : D}
    (opened : isOpen d) (closes : retrieve.closer = true) (w : W) (length : Int) :
    Stored isOpen (readFrom io retrieve d w length).2.1 := by
  rcases read : io.read d length.toNat w with ⟨_ | bytes, d', w'⟩
  · simp only [readFrom, read]
    rintro e ⟨⟩
    exact ⟨eckit.reads d _ w opened read, closes⟩
  · simp only [readFrom, read]
    rintro e ⟨⟩
    exact ⟨eckit.reads d _ w opened read, closes⟩

/-- A call keeps the invariant if it is not a read whose opening raises. -/
theorem step_stored (eckit : OpensForReading io isOpen) {state : DasiRetrieve D × W}
    (stored : Stored isOpen state.1) (opens : Opens io state) (c : RetrieveCall) :
    Stored isOpen (retrieveStep io state c).2.1 := by
  cases c with
  | next => exact stored
  | attrs wanted => exact stored
  | count => exact stored
  | read length =>
    simp only [retrieveStep]
    by_cases positive : 0 < length
    · rw [dasiRetrieveRead_eq io state.1 state.2 positive]
      rcases handleToRead_spec eckit stored opens with
        ⟨x, w, failed⟩ | ⟨d, r, w, made, opened, closes⟩
      · simpa only [failed] using stored
      · simp only [made]
        exact readFrom_stored eckit opened closes w length
    · simpa only [dasiRetrieveRead_refused io state.1 positive state.2] using stored

theorem retryable_of_stored (eckit : OpensForReading io isOpen) {state : DasiRetrieve D × W}
    (stored : Stored isOpen state.1) (opens : Opens io state) : Retryable io isOpen state := by
  have spec := handleToRead_spec eckit stored opens
  refine ⟨stored, ?_, ?_⟩
  · intro length positive x r w failed
    rw [dasiRetrieveRead_eq io state.1 state.2 positive, failed]
    rcases spec with ⟨y, w', failed'⟩ | ⟨d, _, _, made, -⟩
    · rw [failed] at failed'
      cases failed'
      exact ⟨rfl, rfl⟩
    · rw [failed] at made
      cases made
  · intro d r w made
    rcases spec with ⟨x, w', failed⟩ | ⟨d', _, _, made', opened, -⟩
    · rw [made] at failed
      cases failed
    · rw [made] at made'
      cases made'
      exact opened

/-- A failed opening is not forgotten. -/
theorem opens_of_retryable {state : DasiRetrieve D × W} (retryable : Retryable io isOpen state) :
    Opens io state := by
  intro hd d w made
  rcases hopen : io.openForRead d w with ⟨x | _, d', w'⟩
  · have failed : handleToRead io state.1 state.2 = (.error x, { state.1 with dh := some d' }, w') := by
      simp only [handleToRead, hd, made, hopen]
    have same := (retryable.failed 1 Int.one_pos x _ _ failed).2
    rw [dasiRetrieveRead_eq io state.1 state.2 Int.one_pos, failed] at same
    have kept := congrArg CHandles.DasiRetrieve.dh same
    rw [hd] at kept
    cases kept
  · rfl

theorem stored_new {iter : FdbIterator FdbListElement} {retrieve : DasiRetrieve D}
    (created : newDasiRetrieve iter = .ok retrieve) : Stored isOpen retrieve := by
  obtain ⟨r, -, rfl⟩ := of_map_eq_ok created
  intro d hd
  cases hd

end Steps

/-- Through any run of calls the handle stays retryable exactly if no opening raises. -/
theorem retryable_iff_opens {P : Type u} {D : Type v} {W : Type w} {io : Eckit P D W}
    {isOpen : D → Prop} (eckit : OpensForReading io isOpen) {iter : FdbIterator FdbListElement}
    {retrieve : DasiRetrieve D} (created : newDasiRetrieve iter = .ok retrieve) (w : W)
    (history : List RetrieveCall) :
    (∀ n, Retryable io isOpen (after (retrieveStep io) (retrieve, w) (history.take n))) ↔
      ∀ n, Opens io (after (retrieveStep io) (retrieve, w) (history.take n)) := by
  constructor
  · intro retryable n
    exact opens_of_retryable (retryable n)
  · intro opens n
    have stored : Stored isOpen (after (retrieveStep io) (retrieve, w) (history.take n)).1 := by
      induction n with
      | zero => exact stored_new created
      | succ n ih =>
        rw [List.take_add_one]
        cases history[n]? with
        | none => simpa only [Option.toList_none, List.append_nil] using ih
        | some c =>
          rw [Option.toList_some, after_concat]
          exact step_stored eckit ih (opens n) c
    exact retryable_of_stored eckit stored (opens n)

/-- A store whose next openings fail, as many as the outside says. -/
def flakyEckit : Eckit Bytes (Bool × Bytes) Nat where
  locationDataHandle e w := (.ok e.location.uri, w)
  gather _ parts w := (.ok (false, parts.flatten), w)
  openForRead d
    | 0 => (.ok (), (true, d.2), 0)
    | w + 1 => (.error .other, d, w)
  read d n w := if d.1 then (.ok (d.2.take n), (true, d.2.drop n), w) else (.error .other, d, w)

theorem flakyEckit_opens : OpensForReading flakyEckit (fun d => d.1 = true) where
  opens d w d' w' opened := by
    cases w with
    | zero =>
      cases opened
      rfl
    | succ w => cases opened
  reads := by
    rintro ⟨_, rest⟩ n w result d' w' ⟨⟩ read
    cases read
    rfl

private def threeBytes : FdbListElement := ⟨[], 0, ⟨ascii "abc", 0, 3⟩⟩

theorem retryable_iff_opens_sample : ∃ retrieve : DasiRetrieve (Bool × Bytes),
    newDasiRetrieve ([threeBytes].map Event.element) = .ok retrieve ∧
    ((∀ n, Retryable flakyEckit (fun d => d.1 = true)
        (after (retrieveStep flakyEckit) (retrieve, 2) ([.read 1, .next, .read 1].take n))) ↔
      ∀ n, Opens flakyEckit
        (after (retrieveStep flakyEckit) (retrieve, 2) ([.read 1, .next, .read 1].take n))) := by
  have created : newDasiRetrieve (D := Bool × Bytes) ([threeBytes].map Event.element) = .ok _ := rfl
  exact ⟨_, created, retryable_iff_opens flakyEckit_opens created 2 [.read 1, .next, .read 1]⟩

/-- One failed opening: the unopened handle stays, and the next call reads from it
although opening would succeed by then. -/
theorem unopened_stored : ∃ retrieve : DasiRetrieve (Bool × Bytes),
    newDasiRetrieve ([threeBytes].map Event.element) = .ok retrieve ∧
    (after (retrieveStep flakyEckit) (retrieve, 1) [.read 1]).1.dh = some (false, ascii "abc") ∧
    (after (retrieveStep flakyEckit) (retrieve, 1) [.read 1]).1.closer = false ∧
    handleToRead flakyEckit (after (retrieveStep flakyEckit) (retrieve, 1) [.read 1]).1 0 =
      (.ok (false, ascii "abc"),
        (after (retrieveStep flakyEckit) (retrieve, 1) [.read 1]).1, 0) ∧
    ¬ Retryable flakyEckit (fun d => d.1 = true)
      (after (retrieveStep flakyEckit) (retrieve, 1) [.read 1]) := by
  have created : newDasiRetrieve (D := Bool × Bytes) ([threeBytes].map Event.element) = .ok _ := rfl
  refine ⟨_, created, rfl, rfl, rfl, ?_⟩
  intro retryable
  have unclosed := (retryable.stored _ rfl).2
  cases unclosed

end OpenFailures
