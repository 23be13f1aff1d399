import DasiModel.IterationProtocol

/-!
# Listing records

`dasi_list_attrs` takes the URI from a cache that `dasi_list_next` refreshes, and
everything else from the element in hand. Once the handle has moved, a report is
about one element; before that the first element is reported without its URI.
-/

namespace ListingRecords
open Texts Exceptions DasiKey Generators CHandles IterationProtocol Machines Cursors

/-- One call on a list handle. -/
abbrev listStep : DasiList → Call Wanted → Answer Attrs × DasiList :=
  step dasiListNext dasiListAttrs

/-- Every successful report of the run is about one element of the stream. -/
def Coherent (values : List FdbListElement) (run : List (Call Wanted × Answer Attrs)) : Prop :=
  ∀ (n : Nat) wanted attrs, run[n]? = some (Call.read wanted, Answer.read (.ok attrs)) →
    ∃ e ∈ values, Shows wanted e e.location.uri attrs

/-- An element without URI that the wanted outputs cannot tell from another one. -/
structure Confusable (wanted : Wanted) (first e : FdbListElement) : Prop where
  unlocated : e.location.uri = []
  key : wanted.key = true → Key.SameBindings e.combinedKey first.combinedKey
  timestamp : wanted.timestamp = true → e.timestamp = first.timestamp
  offset : wanted.offset = true → e.location.offset = first.location.offset
  length : wanted.length = true → e.location.length = first.location.length

theorem output_eq_iff {A : Type} (asked : Bool) (x y : A) :
    (if asked then some x else none) = (if asked then some y else none) ↔
      (asked = true → x = y) := by
  cases asked <;> simp

/-- There is one way to show an element. -/
theorem shows_iff (wanted : Wanted) (e : FdbListElement) (uri : Bytes) (attrs : Attrs) :
    Shows wanted e uri attrs ↔ attrs = Attrs.of wanted (convert e) uri := by
  constructor
  · obtain ⟨key, timestamp, location, offset, length⟩ := attrs
    rintro ⟨asked, unasked, rfl, rfl, rfl, rfl⟩
    have own : key = if wanted.key then some (Key.ofCombined e.combinedKey) else none := by
      cases wish : wanted.key with
      | false => exact unasked wish
      | true =>
        obtain ⟨shown, rfl, bindings⟩ := asked wish
        rw [bindings.unique (Key.hasBindings_ofCombined _)]
        rfl
    rw [own]
    rfl
  · rintro rfl
    exact shows_of wanted e uri

theorem report_eq_iff {wanted : Wanted} (uri : wanted.uri = true) (first e : FdbListElement) :
    Attrs.of wanted (convert e) e.location.uri = Attrs.of wanted (convert first) [] ↔
      Confusable wanted first e := by
  have keys := Key.sameBindings_iff e.combinedKey first.combinedKey
  simp only [Attrs.of, Attrs.mk.injEq, output_eq_iff]
  constructor
  · rintro ⟨key, timestamp, unlocated, offset, length⟩
    exact ⟨unlocated uri, fun asked => keys.mpr (key asked), timestamp, offset, length⟩
  · rintro ⟨unlocated, key, timestamp, offset, length⟩
    exact ⟨fun asked => keys.mp (key asked), timestamp, fun _ => unlocated, offset, length⟩

section Runs
variable {values : List FdbListElement}

theorem next_first (l : DasiList) : (dasiListNext l).2.first = false := by
  have moved : ∀ h : Handle ListGeneratorImpl, h.next.2.first = false := by
    rintro ⟨_ | _, g⟩
    · rcases returned : (APIGeneratorImpl.next g).1 with x | _
      · rw [Handle.next_of_error returned]
      · rw [Handle.next_of_ok returned]
    · rfl
  have here := moved l.toHandle
  simp only [dasiListNext]
  split
  · rename_i h answered
    rw [answered] at here
    exact here
  · rename_i h _ answered
    rw [answered] at here
    exact here

/-- The flag tells whether `next` has been called. -/
theorem first_after (l : DasiList) (history : List (Call Wanted)) :
    (after listStep l history).first = true ↔ l.first = true ∧ Call.next ∉ history := by
  induction history generalizing l with
  | nil => simp
  | cons c rest ih =>
    rw [after_cons, ih]
    cases c with
    | next => simp [step, next_first]
    | read wanted => simp [step]

theorem reported_iff (l : DasiList) (history : List (Call Wanted)) (n : Nat) (wanted : Wanted)
    (result : Except Exception Attrs) :
    (trace listStep l history)[n]? = some (Call.read wanted, Answer.read result) ↔
      history[n]? = some (Call.read wanted) ∧
        dasiListAttrs (after listStep l (history.take n)) wanted = result := by
  rw [trace_getElem?, Option.map_eq_some_iff]
  constructor
  · rintro ⟨c, call, entry⟩
    obtain ⟨rfl, answered⟩ := Prod.mk.inj entry
    exact ⟨call, Answer.read.inj answered⟩
  · rintro ⟨call, report⟩
    exact ⟨.read wanted, call, by rw [listStep, step, report]⟩

/-- A report on a handle that has moved is about the element in hand. -/
theorem attrs_moved {k : Nat} {l : DasiList} (position : ListAt (values.map convert) k l)
    (moved : l.first = false) {wanted : Wanted} {attrs : Attrs}
    (report : dasiListAttrs l wanted = .ok attrs) :
    ∃ e ∈ values, attrs = Attrs.of wanted (convert e) e.location.uri := by
  have hk : k ≠ 0 := by
    have flag := position.lazy.first
    rw [moved] at flag
    exact of_decide_eq_false flag.symm
  rw [dasiListAttrs_eq position, expected, inHand_map] at report
  cases here : inHand values k with
  | none =>
    rw [here] at report
    cases report
  | some e =>
    rw [here] at report
    cases report
    refine ⟨e, List.mem_of_getElem? here, ?_⟩
    rw [listReport, if_neg hk]
    rfl

theorem attrs_unmoved {k : Nat} {l : DasiList} {first : FdbListElement}
    (position : ListAt ((first :: values).map convert) k l) (unmoved : l.first = true)
    (wanted : Wanted) : dasiListAttrs l wanted = .ok (Attrs.of wanted (convert first) []) := by
  have hk : k = 0 := by
    have flag := position.lazy.first
    rw [unmoved] at flag
    exact of_decide_eq_true flag.symm
  subst hk
  rw [dasiListAttrs_eq position]
  rfl

theorem listAt_after {iter : FdbIterator FdbListElement} {list : DasiList}
    (created : newDasiList iter = .ok list) (history : List (Call Wanted)) :
    ∃ k, ListAt ((elements iter).map convert) k (after listStep list history) := by
  exact ⟨_, list_position created history⟩

/-- A handle that is created has not moved. -/
theorem new_first {iter : FdbIterator FdbListElement} {list : DasiList}
    (created : newDasiList iter = .ok list) : list.first = true :=
  (listAt_new created).1.lazy.first

end Runs

/-- The reports of a run are coherent exactly if every URI asked for before the first
`next` is empty for an element that agrees with the first one in all else asked for. -/
theorem coherent_iff {iter : FdbIterator FdbListElement} {list : DasiList}
    (created : newDasiList iter = .ok list) {first : FdbListElement}
    {rest : List FdbListElement} (stream : elements iter = first :: rest)
    (history : List (Call Wanted)) :
    Coherent (first :: rest) (trace listStep list history) ↔
      ∀ n wanted, history[n]? = some (.read wanted) →
        Call.next ∈ history.take n ∨ wanted.uri = false ∨
          ∃ e ∈ first :: rest, Confusable wanted first e := by
  have flag : ∀ n, (after listStep list (history.take n)).first = true ↔
      Call.next ∉ history.take n := fun n => by
    simp only [first_after, new_first created, true_and]
  have position : ∀ n, ∃ k, ListAt ((first :: rest).map convert) k
      (after listStep list (history.take n)) := fun n => by
    rw [← stream]
    exact listAt_after created (history.take n)
  constructor
  · intro coherent n wanted call
    by_cases moved : Call.next ∈ history.take n
    · exact .inl moved
    · refine .inr ?_
      cases uri : wanted.uri with
      | false => exact .inl rfl
      | true =>
        obtain ⟨k, here⟩ := position n
        have report := attrs_unmoved here ((flag n).mpr moved) wanted
        obtain ⟨e, member, same⟩ := coherent n wanted _
          ((reported_iff list history n wanted _).mpr ⟨call, report⟩)
        exact .inr ⟨e, member, (report_eq_iff uri first e).mp ((shows_iff _ _ _ _).mp same).symm⟩
  · intro covered n wanted attrs entry
    obtain ⟨call, report⟩ := (reported_iff list history n wanted _).mp entry
    obtain ⟨k, here⟩ := position n
    by_cases moved : Call.next ∈ history.take n
    · have lowered : (after listStep list (history.take n)).first = false :=
        Bool.eq_false_iff.mpr (fun h => (flag n).mp h moved)
      obtain ⟨e, member, rfl⟩ := attrs_moved here lowered report
      exact ⟨e, member, shows_of _ _ _⟩
    · rw [attrs_unmoved here ((flag n).mpr moved) wanted] at report
      cases report
      cases uri : wanted.uri with
      | false =>
        refine ⟨first, List.mem_cons_self, (shows_iff _ _ _ _).mpr ?_⟩
        simp only [Attrs.of, uri, Bool.false_eq_true, if_false]
      | true =>
        rcases covered n wanted call with called | unasked | ⟨e, member, confusable⟩
        · exact absurd called moved
        · rw [uri] at unasked
          cases unasked
        · have same := ((report_eq_iff uri first e).mpr confusable).symm
          exact ⟨e, member, (shows_iff _ _ _ _).mpr same⟩

private def located : FdbListElement := ⟨[], 1, ⟨ascii "file:/a", 0, 3⟩⟩

private def locatedNext : FdbListElement := ⟨[], 2, ⟨ascii "file:/a", 3, 5⟩⟩

private def interrupted : FdbIterator FdbListElement :=
  [.element located, .failure .other, .element locatedNext]

private def lateReport : List (Call Wanted) := [.next, .next, .read .all]

theorem coherent_iff_sample : ∃ list : DasiList, newDasiList interrupted = .ok list ∧
    (Coherent [located, locatedNext] (trace listStep list lateReport) ↔
      ∀ n wanted, lateReport[n]? = some (.read wanted) →
        Call.next ∈ lateReport.take n ∨ wanted.uri = false ∨
          ∃ e ∈ [located, locatedNext], Confusable wanted located e) := by
  have created : newDasiList interrupted = .ok _ := rfl
  exact ⟨_, created, coherent_iff created rfl lateReport⟩

/-- Reported at once, the first element has no URI. -/
theorem first_unlocated : ∃ list : DasiList, newDasiList interrupted = .ok list ∧
    (trace listStep list [.read .all]) = [(.read .all,
      .read (.ok ⟨some Key.new, some 1, some [], some 0, some 3⟩))] ∧
    ¬ Coherent [located, locatedNext] (trace listStep list [.read .all]) := by
  have created : newDasiList interrupted = .ok _ := rfl
  refine ⟨_, created, rfl, ?_⟩
  intro coherent
  obtain ⟨e, member, same⟩ := coherent 0 .all _ rfl
  simp only [List.mem_cons, List.not_mem_nil, or_false] at member
  rcases member with rfl | rfl
  · cases same.uri
  · cases same.uri

end ListingRecords
