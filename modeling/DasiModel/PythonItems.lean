import DasiModel.PythonRetrieve

/-!
# Items after the iterator has moved on

A list or retrieve item holds objects allocated for it alone, which no later
call writes to. A wipe yields itself, so every item shows the element the
generator has in hand when it is read.
-/

namespace PythonItems
open Texts Exceptions DasiKey Generators CHandles Machines Cursors RetrieveReading Iterators
open IterationProtocol PythonKey PythonIterators PythonRetrieve

universe u v w

section Lists
variable {values : List FdbListElement}

/-- What an element of a listing shows as an item. -/
def listed (e : FdbListElement) : ListRecord :=
  ⟨Key.ofCombined e.combinedKey, ffiDecode e.location.uri, e.timestamp, e.location.offset,
    e.location.length⟩

theorem listRead_grows (list : PyList) : list.memory.Grows list.read.2.memory := by
  rw [PyList.read]
  split
  · exact .refl _
  · exact list.memory.newKey_grows _

theorem listNext_grows (list : PyList) : list.memory.Grows list.next.2.memory := by
  simp only [PyList.next]
  split
  · exact .refl _
  · exact .refl _
  · exact listRead_grows ⟨(dasiListNext list.cdata).2, list.memory⟩

/-- A Python list after `k` calls. -/
structure PyListAt (values : List FdbListElement) (k : Nat) (list : PyList) : Prop where
  position : ListAt (values.map convert) k list.cdata
  whole : failures list.cdata.generator.iter = 0

theorem listRead_at {k : Nat} (list : PyList) {e : FdbListElement}
    (position : ListAt (values.map convert) (k + 1) list.cdata) (he : values[k]? = some e) :
    ∃ item, list.read.1 = .ok item ∧ list.read.2.cdata = list.cdata ∧
      item.read list.read.2.memory = some (listed e) := by
  have hattrs : dasiListAttrs list.cdata .all = .ok (listReport (k + 1) .all (convert e)) := by
    rw [dasiListAttrs_eq position, expected, inHand_succ, List.getElem?_map, he]
    rfl
  simp only [PyList.read, hattrs, checkError]
  refine ⟨_, rfl, trivial, ?_⟩
  simp [ListItem.read, Memory.newKey, listReport, Attrs.of, Wanted.all, listed, convert]

/-- The call after `k` others: the item of element `k`, or the end. -/
theorem listNext_at {k : Nat} {list : PyList} (position : PyListAt values k list) :
    PyListAt values (k + 1) list.next.2 ∧
    (∀ e, values[k]? = some e → ∃ item, list.next.1 = .ok item ∧
      item.read list.next.2.memory = some (listed e)) ∧
    (values.length ≤ k → list.next.1 = .error .stopIteration) := by
  cases hout : dasiListNext list.cdata with
  | mk result cdata =>
    have spec := list_nextSpec position.position
    rw [hout] at spec
    rcases spec with ⟨x, -, -, paid⟩ | ⟨hr, moved, paid, room⟩ | ⟨hr, moved, paid, past⟩
    · have none := position.whole
      simp only [pendingFailures] at paid
      omega
    · cases hr
      rw [List.length_map] at room
      obtain ⟨item, hitem, hcdata, hread⟩ := listRead_at { list with cdata := cdata }
        moved (List.getElem?_eq_getElem room)
      have hnext : list.next = PyList.read { list with cdata := cdata } := by
        simp only [PyList.next, hout, checkError]
      rw [hnext]
      refine ⟨⟨by rwa [hcdata], ?_⟩, ?_, by omega⟩
      · rw [hcdata]
        exact paid.trans position.whole
      · intro e he
        rw [List.getElem?_eq_getElem room] at he
        cases he
        exact ⟨item, hitem, hread⟩
    · cases hr
      rw [List.length_map] at past
      have hnext : list.next = (.error .stopIteration, { list with cdata := cdata }) := by
        simp only [PyList.next, hout, checkError]
      rw [hnext]
      refine ⟨⟨moved, paid.trans position.whole⟩, ?_, fun _ => rfl⟩
      intro e he
      rw [List.getElem?_eq_none past] at he
      cases he

theorem pyListAt_new {list : DasiList}
    (created : newDasiList (values.map Event.element) = .ok list) (m : Memory) :
    PyListAt values 0 ⟨list, m⟩ := by
  obtain ⟨start, paid⟩ := listAt_new created
  rw [elements_map_element] at start
  exact ⟨start, paid.trans (failures_map_element values)⟩

theorem list_independent {list : DasiList}
    (created : newDasiList (values.map Event.element) = .ok list) (m : Memory) :
    Independent PyList.next PyList.view ⟨list, m⟩ (values.map (fun e => some (listed e))) := by
  refine independent_of_frame (PyListAt values)
    (fun list item => ∃ record, list.view item = some record)
    (fun _ _ at_k => (listNext_at at_k).1) ?_ ?_ (pyListAt_new created m)
  · intro k list item at_k yielded
    by_cases room : k < values.length
    · have he := List.getElem?_eq_getElem room
      obtain ⟨item', yielded', shows⟩ := (listNext_at at_k).2.1 _ he
      rw [yielded] at yielded'
      cases yielded'
      refine ⟨⟨_, shows⟩, ?_⟩
      rw [List.getElem?_map, he]
      exact congrArg some shows.symm
    · have stopped := (listNext_at at_k).2.2 (by omega)
      rw [yielded] at stopped
      cases stopped
  · rintro list item ⟨record, shows⟩
    have later := ListItem.read_of_grows (listNext_grows list) shows
    exact ⟨⟨record, later⟩, later.trans shows.symm⟩

end Lists

section Retrieves
variable {P : Type u} {D : Type v} {W : Type w} {io : Eckit P D W}
  {data : FdbListElement → Bytes} {content : P → Bytes} {isOpen : D → Prop}
  {remaining : D → Bytes} {values : List FdbListElement}

theorem retrieve_independent (eckit : ReadsFully io data content isOpen remaining)
    (lengths : TrueLengths data values) {retrieve : DasiRetrieve D}
    (created : newDasiRetrieve (values.map Event.element) = .ok retrieve) (m : Memory) (w : W) :
    Independent (PyRetrieve.next io) PyRetrieve.view ⟨retrieve, m, w⟩
      (values.map (fun e => some (retrieved data e))) := by
  refine independent_of_frame (PyRetrieveAt data isOpen remaining values)
    (fun retrieve item => ∃ record, retrieve.view item = some record)
    (fun _ _ at_k => (next_at eckit lengths at_k).1) ?_ ?_ (pyRetrieveAt_new created m w)
  · intro k retrieve item at_k yielded
    obtain ⟨-, inside, stops⟩ := next_at eckit lengths at_k
    by_cases room : k < values.length
    · have he := List.getElem?_eq_getElem room
      by_cases empty : data values[k] = []
      · obtain ⟨message, error, raised⟩ := (inside _ he).1 empty
        rw [yielded] at raised
        cases raised
      · obtain ⟨item', yielded', shows⟩ := (inside _ he).2 empty
        rw [yielded] at yielded'
        cases yielded'
        refine ⟨⟨_, shows⟩, ?_⟩
        rw [List.getElem?_map, he]
        exact congrArg some shows.symm
    · have stopped := stops (by omega)
      rw [yielded] at stopped
      cases stopped
  · rintro retrieve item ⟨record, shows⟩
    have later := RetrieveItem.read_of_grows (next_grows io retrieve) shows
    exact ⟨⟨record, later⟩, later.trans shows.symm⟩

end Retrieves


section Wipes
variable {values : List FdbWipeElement}

/-- A call that finds the end leaves the last element in hand. -/
theorem element_of_complete {E : Type u} {T : Type v} [Assigns E T]
    {h : Handle (LazyGenerator E T)} (complete : h.next.1 = .ok .iterationComplete) :
    h.next.2.generator.dasiElement = h.generator.dasiElement := by
  obtain ⟨_ | _, g⟩ := h
  · by_cases past : g.done = true
    · have hnext := LazyGenerator.next_of_done past
      rw [Handle.next_of_ok (congrArg Prod.fst hnext)]
      exact congrArg (fun out => out.2.dasiElement) hnext
    · have live : g.done = false := by simpa using past
      rcases hiter : g.iter with _ | ⟨e | x, rest⟩
      · have hnext := LazyGenerator.next_of_nil live hiter
        rw [Handle.next_of_ok (congrArg Prod.fst hnext)]
        exact congrArg (fun out => out.2.dasiElement) hnext
      · have hnext := LazyGenerator.next_of_element live hiter
        rw [Handle.next_of_ok (congrArg Prod.fst hnext)] at complete
        have moved : (APIGeneratorImpl.next g).2.done = false :=
          (congrArg (fun out => out.2.done) hnext).trans live
        simp [Handle.endCode, Handle.atEnd, APIGeneratorImpl.done, moved] at complete
      · have hnext := LazyGenerator.next_of_failure live hiter
        rw [Handle.next_of_error (congrArg Prod.fst hnext)] at complete
        cases complete
  · rfl

/-- A Python wipe after `k` calls. -/
structure PyWipeAt (values : List FdbWipeElement) (k : Nat) (wipe : PyWipe) : Prop where
  position : LazyAt FdbWipeElement.msg (values.map FdbWipeElement.msg) k wipe.cdata
  whole : failures wipe.cdata.generator.iter = 0

/-- The call after `k` others: the wipe shows element `k`, or what it showed before. -/
theorem wipeNext_at {k : Nat} {wipe : PyWipe} (position : PyWipeAt values k wipe) :
    PyWipeAt values (k + 1) wipe.next.2 ∧
    (∀ e, values[k]? = some e → wipe.next.1 = .ok () ∧
      wipe.next.2.view () = ffiDecode e.msg) ∧
    (values.length ≤ k → wipe.next.1 = .error .stopIteration ∧
      wipe.next.2.view () = wipe.view ()) := by
  cases hout : dasiWipeNext wipe.cdata with
  | mk result cdata =>
    have spec := lazy_nextSpec (f := FdbWipeElement.msg) (fun _ _ => rfl) position.position
    have hnext : wipe.cdata.next = (result, cdata) := hout
    rw [hnext] at spec
    rcases spec with ⟨x, -, -, paid⟩ | ⟨hr, moved, paid, room⟩ | ⟨hr, moved, paid, past⟩
    · have none := position.whole
      simp only [pendingFailures] at paid
      omega
    · cases hr
      rw [List.length_map] at room
      have he := List.getElem?_eq_getElem room
      have current : inHand (values.map FdbWipeElement.msg) (k + 1) = some values[k].msg := by
        rw [inHand_succ, List.getElem?_map, he]
        rfl
      have handed : dasiWipeGetValue cdata true = .ok (some values[k].msg) := by
        rw [dasiWipeGetValue, getValue_eq moved, expected, current]
        rfl
      have live : cdata.generator.done = false := by
        by_contra hd
        have hlen := moved.past (by simpa using hd)
        rw [List.length_map] at hlen
        omega
      have element : cdata.generator.dasiElement = values[k].msg := by
        have h := (moved.live live).1
        rw [current] at h
        exact (Option.some.inj h).symm
      have hwipe : wipe.next = (.ok (), ⟨cdata, .element⟩) := by
        simp only [PyWipe.next, hout, checkError, handed]
      rw [hwipe]
      refine ⟨⟨moved, paid.trans position.whole⟩, ?_, by omega⟩
      intro e he'
      rw [he] at he'
      cases he'
      exact ⟨rfl, congrArg ffiDecode element⟩
    · cases hr
      rw [List.length_map] at past
      have kept : cdata.generator.dasiElement = wipe.cdata.generator.dasiElement := by
        have h := element_of_complete (h := wipe.cdata) (by rw [hnext])
        rwa [hnext] at h
      have hwipe : wipe.next = (.error .stopIteration, { wipe with cdata := cdata }) := by
        simp only [PyWipe.next, hout, checkError]
      rw [hwipe]
      refine ⟨⟨moved, paid.trans position.whole⟩, ?_, fun _ => ⟨rfl, ?_⟩⟩
      · intro e he
        rw [List.getElem?_eq_none past] at he
        cases he
      · simp only [PyWipe.view, kept]

theorem pyWipeAt_new {wipe : DasiWipe}
    (created : newDasiWipe (values.map Event.element) = .ok wipe) :
    PyWipeAt values 0 ⟨wipe, .null⟩ := by
  obtain ⟨g, hg, rfl⟩ := of_map_eq_ok created
  obtain ⟨start, hfail⟩ := lazyAt_create (f := FdbWipeElement.msg) (fun _ _ => rfl) hg
  rw [elements_map_element] at start
  exact ⟨start, hfail.trans (failures_map_element values)⟩

/-- After the call number `j + 1` the wipe shows element `j`, or the last one. -/
theorem wipe_view {wipe : PyWipe} (start : PyWipeAt values 0 wipe) {j : Nat} {e : FdbWipeElement}
    (he : values[min j (values.length - 1)]? = some e) :
    (stateAfter PyWipe.next wipe (j + 1)).view () = ffiDecode e.msg := by
  have position : ∀ i, PyWipeAt values i (stateAfter PyWipe.next wipe i) :=
    stateAfter_position (fun _ _ at_k => (wipeNext_at at_k).1) start
  induction j with
  | zero =>
    rw [Nat.zero_min] at he
    rw [stateAfter_succ]
    exact ((wipeNext_at (position 0)).2.1 e he).2
  | succ j ih =>
    rw [stateAfter_succ]
    by_cases room : j + 1 < values.length
    · rw [Nat.min_eq_left (by omega)] at he
      exact ((wipeNext_at (position (j + 1))).2.1 e he).2
    · rw [((wipeNext_at (position (j + 1))).2.2 (by omega)).2]
      apply ih
      rwa [Nat.min_eq_right (by omega)] at he ⊢

/-- All the elements of a wipe read alike. -/
def SameTexts (values : List FdbWipeElement) : Prop :=
  ∀ a ∈ values, ∀ b ∈ values, ffiDecode a.msg = ffiDecode b.msg

theorem wipe_independent_iff {wipe : DasiWipe}
    (created : newDasiWipe (values.map Event.element) = .ok wipe) :
    Independent PyWipe.next PyWipe.view ⟨wipe, .null⟩ (values.map (fun e => ffiDecode e.msg)) ↔
      SameTexts values := by
  have start := pyWipeAt_new created
  have position : ∀ i, PyWipeAt values i (stateAfter PyWipe.next ⟨wipe, .null⟩ i) :=
    stateAfter_position (fun _ _ at_k => (wipeNext_at at_k).1) start
  constructor
  · intro independent
    -- an earlier item shows the later element, and should show its own
    have earlier : ∀ {i j : Nat} {a b : FdbWipeElement}, i ≤ j → values[i]? = some a →
        values[j]? = some b → ffiDecode a.msg = ffiDecode b.msg := by
      intro i j a b hij ha hb
      have room := (List.getElem?_eq_some_iff.mp hb).1
      have shows := independent.keeps i j () hij ((wipeNext_at (position i)).2.1 a ha).1
      rw [wipe_view start (by rwa [Nat.min_eq_left (by omega)]), List.getElem?_map, ha] at shows
      exact Option.some.inj shows
    intro a ha b hb
    obtain ⟨i, hi⟩ := List.mem_iff_getElem?.mp ha
    obtain ⟨j, hj⟩ := List.mem_iff_getElem?.mp hb
    rcases Nat.le_total i j with hij | hji
    · exact earlier hij hi hj
    · exact (earlier hji hj hi).symm
  · intro same
    apply independent_of_keeps
    intro i j item hij yielded
    have room : i < values.length := by
      by_contra past
      have stopped := ((wipeNext_at (position i)).2.2 (by omega)).1
      rw [call, stopped] at yielded
      cases yielded
    have inside : min j (values.length - 1) < values.length := by omega
    have hi := List.getElem?_eq_getElem room
    rw [wipe_view start (List.getElem?_eq_getElem inside), List.getElem?_map, hi]
    exact congrArg some (same _ (List.getElem_mem room) _ (List.getElem_mem inside))

end Wipes

/-- Items of lists and retrieves never change; those of a wipe stay as they were
exactly when all its elements read alike. -/
theorem items_independent_iff {P : Type u} {D : Type v} {W : Type w} {io : Eckit P D W}
    {data : FdbListElement → Bytes} {content : P → Bytes} {isOpen : D → Prop}
    {remaining : D → Bytes} (eckit : ReadsFully io data content isOpen remaining)
    {ls rs : List FdbListElement} {ws : List FdbWipeElement} (lengths : TrueLengths data rs)
    {list : DasiList} {retrieve : DasiRetrieve D} {wipe : DasiWipe}
    (hl : newDasiList (ls.map Event.element) = .ok list)
    (hr : newDasiRetrieve (rs.map Event.element) = .ok retrieve)
    (hw : newDasiWipe (ws.map Event.element) = .ok wipe) (m m' : Memory) (w : W) :
    (Independent PyList.next PyList.view ⟨list, m⟩ (ls.map (fun e => some (listed e))) ∧
      Independent (PyRetrieve.next io) PyRetrieve.view ⟨retrieve, m', w⟩
        (rs.map (fun e => some (retrieved data e))) ∧
      Independent PyWipe.next PyWipe.view ⟨wipe, .null⟩ (ws.map (fun e => ffiDecode e.msg))) ↔
    SameTexts ws := by
  constructor
  · rintro ⟨-, -, wiped⟩
    exact (wipe_independent_iff hw).mp wiped
  · intro same
    exact ⟨list_independent hl m, retrieve_independent eckit lengths hr m' w,
      (wipe_independent_iff hw).mpr same⟩

theorem items_independent_iff_sample :
    ∃ (list : DasiList) (retrieve : DasiRetrieve (Bool × Bytes)) (wipe : DasiWipe),
      newDasiList ([⟨[], 1, ⟨ascii "abc", 0, 3⟩⟩].map Event.element) = .ok list ∧
      newDasiRetrieve ([⟨[], 1, ⟨ascii "abc", 0, 3⟩⟩].map Event.element) = .ok retrieve ∧
      newDasiWipe ([⟨ascii "a"⟩, ⟨ascii "a"⟩].map Event.element) = .ok wipe ∧
      Independent PyWipe.next PyWipe.view ⟨wipe, .null⟩ [py "a", py "a"] := by
  have hl : newDasiList ([⟨[], 1, ⟨ascii "abc", 0, 3⟩⟩].map Event.element) = .ok _ := rfl
  have hr : newDasiRetrieve (D := Bool × Bytes)
      ([⟨[], 1, ⟨ascii "abc", 0, 3⟩⟩].map Event.element) = .ok _ := rfl
  have hw : newDasiWipe ([⟨ascii "a"⟩, ⟨ascii "a"⟩].map Event.element) = .ok _ := rfl
  have same : SameTexts [⟨ascii "a"⟩, ⟨ascii "a"⟩] := by
    rintro a ha b hb
    simp only [List.mem_cons, List.not_mem_nil, or_false, or_self] at ha hb
    rw [ha, hb]
  have independent := (items_independent_iff storeEckit_fills (by decide) hl hr hw
    ⟨[], []⟩ ⟨[], []⟩ ()).mpr same
  exact ⟨_, _, _, hl, hr, hw, independent.2.2⟩

/-- Two elements that read differently: the first item shows the second one. -/
theorem wipe_item_overwritten : ∃ wipe : DasiWipe,
    newDasiWipe ([⟨ascii "a"⟩, ⟨ascii "b"⟩].map Event.element) = .ok wipe ∧
    ¬ Independent PyWipe.next PyWipe.view ⟨wipe, .null⟩ [py "a", py "b"] := by
  have created : newDasiWipe ([⟨ascii "a"⟩, ⟨ascii "b"⟩].map Event.element) = .ok _ := rfl
  refine ⟨_, created, fun independent => ?_⟩
  have shows := independent.keeps 0 1 () (by omega) rfl
  revert shows
  decide

end PythonItems
