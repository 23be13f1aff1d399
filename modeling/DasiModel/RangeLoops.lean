import DasiModel.PythonItems
import DasiModel.Library.Loops

/-!
# Loops over the results of a request

In C++ a result is read by `for (auto& elem : dasi.list(query))`, in C by
`while ((stat = dasi_list_next(list)) == DASI_SUCCESS)`, in Python by
`for item in dasi.list(query)`. The loops are written over generators that fetch
one element ahead, or all of them at once; what they do with the FDB stream is
told by `Loops.visit`.
-/

namespace RangeLoops
open Texts Exceptions DasiKey Generators CHandles Machines Cursors Loops
open IterationProtocol PythonKey PythonIterators PythonItems

universe u v w x y z t

section Generators
variable {G : Type u} {T : Type v} [APIGeneratorImpl G T] {Y : Type y} {B : Type z}

/-- The range-based `for` over a `GenericGenerator`: `it = begin()`, `it != end()`, `++it`. -/
def forEach (body : B → T → Option Y × B) (fuel : Nat) (generator : G) (b : B) :
    Option (Outcome Y Exception B G) :=
  rangeFor APIGeneratorImpl.done APIGeneratorImpl.value APIGeneratorImpl.next body fuel generator b

/-- What a generator over a stream does. -/
abbrev Generates {E : Type w} (view : E → T) (At Rest : FdbIterator E → G → Prop) : Prop :=
  Steps (APIGeneratorImpl.done (G := G)) APIGeneratorImpl.value APIGeneratorImpl.next view id
    At Rest

end Generators

section Lazy
variable {E : Type u} {T : Type v} [Assigns E T] {f : E → T}

/-- The generator holds the first element of the stream and has fetched no other. -/
def InHand (f : E → T) : FdbIterator E → LazyGenerator E T → Prop
  | [], g => g.done = true ∧ g.iter = []
  | .element e :: rest, g => g.done = false ∧ g.dasiElement = f e ∧ g.iter = rest
  | .failure _ :: _, _ => False

/-- The whole stream is still with FDB. -/
def Unfetched (stream : FdbIterator E) (g : LazyGenerator E T) : Prop :=
  g.iter = stream ∧ (g.done = true → stream = [])

omit [Assigns E T] in
theorem Unfetched.live {event : Event E Exception} {rest : FdbIterator E} {g : LazyGenerator E T}
    (unfetched : Unfetched (event :: rest) g) : g.done = false := by
  cases hdone : g.done with
  | true => cases unfetched.2 hdone
  | false => rfl

theorem lazy_generates (fresh : ∀ e t, Assigns.assign e t = f e) :
    Generates (G := LazyGenerator E T) f (InHand f) Unfetched where
  ended := by
    rintro g ⟨finished, left⟩
    exact ⟨finished, left, fun _ => rfl⟩
  holds := by
    rintro g e rest ⟨live, shown, left⟩
    refine ⟨live, shown, left, fun finished => ?_⟩
    rw [live] at finished
    cases finished
  sound := id
  moves := by
    intro g stream unfetched sound
    cases stream with
    | nil =>
      cases hdone : g.done with
      | true =>
        have hnext : APIGeneratorImpl.next g = _ := LazyGenerator.next_of_done hdone
        rw [hnext]
        exact ⟨rfl, hdone, unfetched.1⟩
      | false =>
        have hnext : APIGeneratorImpl.next g = _ := LazyGenerator.next_of_nil hdone unfetched.1
        rw [hnext]
        exact ⟨rfl, rfl, unfetched.1⟩
    | cons event rest =>
      cases event with
      | failure x => exact absurd rfl (sound x rest)
      | element e =>
        have live := unfetched.live
        have hnext : APIGeneratorImpl.next g = _ := LazyGenerator.next_of_element live unfetched.1
        rw [hnext]
        exact ⟨rfl, live, fresh e _, rfl⟩
  fails := by
    intro g x rest unfetched
    have live := unfetched.live
    have hnext : APIGeneratorImpl.next g = _ := LazyGenerator.next_of_failure live unfetched.1
    rw [hnext]
    refine ⟨rfl, rfl, fun finished => ?_⟩
    change g.done = true at finished
    rw [live] at finished
    cases finished

/-- A stream whose first answer is an exception. -/
def Broken (iter : FdbIterator E) : Prop := ∃ x rest, iter = .failure x :: rest

theorem not_broken_nil : ¬ Broken ([] : FdbIterator E) := by
  rintro ⟨x, rest, h⟩
  cases h

theorem not_broken_element {e : E} {rest : FdbIterator E} : ¬ Broken (.element e :: rest) := by
  rintro ⟨x, rest', h⟩
  cases h

/-- A generator comes into being unless its first fetch fails, and holds the first element. -/
theorem create_inHand [Inhabited T] (fresh : ∀ e t, Assigns.assign e t = f e)
    {iter : FdbIterator E} (sound : ¬ Broken iter) :
    ∃ g : LazyGenerator E T, LazyGenerator.create iter = .ok g ∧ InHand f iter g := by
  cases iter with
  | nil => exact ⟨_, rfl, rfl, rfl⟩
  | cons event rest =>
    cases event with
    | failure x => exact absurd ⟨x, rest, rfl⟩ sound
    | element e => exact ⟨_, rfl, rfl, fresh e _, rfl⟩

end Lazy

section Handles
variable {G : Type u} {T : Type v} [APIGeneratorImpl G T] {E : Type w} {f : E → T}
  {At Rest : FdbIterator E → G → Prop}

/-- What is still to come from a handle: until it is first asked, also what its generator
has in hand. -/
def Pending (At Rest : FdbIterator E → G → Prop) (stream : FdbIterator E)
    (h : Handle G) : Prop :=
  if h.first then At stream h.generator else Rest stream h.generator

/-- The same once the handle has been asked. -/
def Asked (Rest : FdbIterator E → G → Prop) (stream : FdbIterator E) (h : Handle G) : Prop :=
  h.first = false ∧ Rest stream h.generator

/-- A call of `next` that does not fail has the head of the stream in hand. -/
theorem next_moves (generates : Generates f At Rest) {stream : FdbIterator E} {h : Handle G}
    (pending : Pending At Rest stream h) (sound : ¬ Broken stream) :
    h.next = (.ok h.next.2.endCode, ⟨false, h.next.2.generator⟩) ∧
      At stream h.next.2.generator := by
  obtain ⟨first, g⟩ := h
  cases first with
  | true => exact ⟨rfl, pending⟩
  | false =>
    have hrest : Rest stream g := pending
    obtain ⟨answer, held⟩ := generates.moves hrest (fun x rest h => sound ⟨x, rest, h⟩)
    rw [Handle.next_of_ok answer]
    exact ⟨rfl, held⟩

theorem next_fails (generates : Generates f At Rest) {x : Exception} {rest : FdbIterator E}
    {h : Handle G} (pending : Pending At Rest (.failure x :: rest) h) :
    h.next = (.error x, ⟨false, h.next.2.generator⟩) ∧ Rest rest h.next.2.generator := by
  obtain ⟨first, g⟩ := h
  cases first with
  | true => exact absurd pending generates.sound
  | false =>
    obtain ⟨answer, later⟩ := generates.fails (show Rest (.failure x :: rest) g from pending)
    rw [Handle.next_of_error answer]
    exact ⟨rfl, later⟩

/-- `next`, and what the body reads when it answers `DASI_SUCCESS`; of another code, what
made it. -/
def pullNext {H : Type x} {A : Type y} (next : H → Except Exception Code × H)
    (read : H → Except Exception A) (h : H) : Except Exception (Option A) × H :=
  match next h with
  | (.error x, h) => (.error x, h)
  | (.ok .success, h) => ((read h).map some, h)
  | (.ok _, h) => (.ok none, h)

/-- `while ((stat = next(h)) == DASI_SUCCESS) { read(h); body }`. -/
def whileNext {H : Type x} {A : Type t} {Y : Type y} {B : Type z}
    (next : H → Except Exception Code × H) (read : H → Except Exception A)
    (body : B → A → Option Y × B) (fuel : Nat) (h : H) (b : B) :
    Option (Outcome Y Exception B H) :=
  pullLoop (pullNext next read) body fuel h b

/-- A handle goes along a stream, and its reading function shows the element moved to. -/
structure Advances {H : Type x} {A : Type y} (next : H → Except Exception Code × H)
    (read : H → Except Exception A) (view : E → A) (At Rest : FdbIterator E → H → Prop) : Prop where
  called : ∀ {h stream}, Rest stream h → At stream h
  ended : ∀ {h}, At [] h → (next h).1 = .ok .iterationComplete ∧ Rest [] (next h).2
  fails : ∀ {h x rest}, At (.failure x :: rest) h →
    (next h).1 = .error x ∧ Rest rest (next h).2
  yields : ∀ {h e rest}, At (.element e :: rest) h →
    (next h).1 = .ok .success ∧ read (next h).2 = .ok (view e) ∧ Rest rest (next h).2

variable {H : Type x} {A : Type y} {next : H → Except Exception Code × H}
  {read : H → Except Exception A} {view : E → A}

theorem pullNext_of_error {h : H} {x : Exception} (hcode : (next h).1 = .error x) :
    pullNext next read h = (.error x, (next h).2) := by
  cases hnext : next h with
  | mk result h' =>
    rw [hnext] at hcode
    cases hcode
    simp only [pullNext, hnext]

theorem pullNext_of_complete {h : H} (hcode : (next h).1 = .ok .iterationComplete) :
    pullNext next read h = (.ok none, (next h).2) := by
  cases hnext : next h with
  | mk result h' =>
    rw [hnext] at hcode
    cases hcode
    simp only [pullNext, hnext]

theorem pullNext_of_success {h : H} (hcode : (next h).1 = .ok .success) :
    pullNext next read h = ((read (next h).2).map some, (next h).2) := by
  cases hnext : next h with
  | mk result h' =>
    rw [hnext] at hcode
    cases hcode
    simp only [pullNext, hnext]

theorem Advances.pulls {At Rest : FdbIterator E → H → Prop}
    (advances : Advances next read view At Rest) :
    Pulls (pullNext next read) view id At Rest where
  called := advances.called
  ended pending := by
    obtain ⟨hcode, later⟩ := advances.ended pending
    rw [pullNext_of_complete hcode]
    exact ⟨rfl, later⟩
  fails pending := by
    obtain ⟨hcode, later⟩ := advances.fails pending
    rw [pullNext_of_error hcode]
    exact ⟨rfl, later⟩
  yields pending := by
    obtain ⟨hcode, shown, later⟩ := advances.yields pending
    rw [pullNext_of_success hcode, shown]
    exact ⟨rfl, later⟩

/-- A handle whose `next` is the common one goes along the stream of its generator. -/
theorem handle_advances {handle : H → Handle G} (generates : Generates f At Rest)
    (answers : ∀ h, (next h).1 = (handle h).next.1)
    (moves : ∀ h, handle (next h).2 = (handle h).next.2)
    (reads : ∀ {h e rest}, Pending At Rest (.element e :: rest) (handle h) →
      read (next h).2 = .ok (view e)) :
    Advances next read view (fun stream h => Pending At Rest stream (handle h))
      (fun stream h => Asked Rest stream (handle h)) where
  called := by
    rintro h stream ⟨asked, rest⟩
    change if (handle h).first = true then _ else _
    rw [asked, if_neg Bool.false_ne_true]
    exact rest
  ended := by
    intro h pending
    obtain ⟨answer, held⟩ := next_moves generates pending not_broken_nil
    obtain ⟨finished, rest⟩ := generates.ended held
    rw [answers, moves, answer, Handle.endCode, Handle.atEnd, finished, if_pos rfl]
    exact ⟨rfl, rfl, rest⟩
  fails := by
    intro h x rest pending
    obtain ⟨answer, later⟩ := next_fails generates pending
    rw [answers, moves, answer]
    exact ⟨rfl, rfl, later⟩
  yields := by
    intro h e rest pending
    obtain ⟨answer, held⟩ := next_moves generates pending not_broken_element
    obtain ⟨live, -, later⟩ := generates.holds held
    rw [reads pending, answers, moves, answer, Handle.endCode, Handle.atEnd, live,
      if_neg Bool.false_ne_true]
    exact ⟨rfl, rfl, rfl, later⟩

end Handles

section Listings

theorem list_generates : Generates (G := ListGeneratorImpl) convert (InHand convert) Unfetched :=
  lazy_generates fun _ _ => rfl

/-- What is still to come from `dasi_list_t`. -/
abbrev ListPending (stream : FdbIterator FdbListElement) (list : DasiList) : Prop :=
  Pending (InHand convert) Unfetched stream list.toHandle

theorem dasiListNext_fst (list : DasiList) : (dasiListNext list).1 = list.toHandle.next.1 := by
  rw [dasiListNext]
  split <;> rename_i heq <;> rw [heq]

theorem dasiListNext_toHandle (list : DasiList) :
    (dasiListNext list).2.toHandle = list.toHandle.next.2 := by
  rw [dasiListNext]
  split <;> rename_i heq <;> rw [heq]

/-- After a move to an element, `attrs` shows all of that element. -/
theorem attrs_of_pending {list : DasiList} {e : FdbListElement}
    {rest : FdbIterator FdbListElement} (pending : ListPending (.element e :: rest) list)
    (wanted : Wanted) : dasiListAttrs (dasiListNext list).2 wanted =
      .ok (Attrs.of wanted (convert e) e.location.uri) := by
  obtain ⟨answer, live, shown, -⟩ := next_moves list_generates pending not_broken_element
  have ended : list.toHandle.next.2.atEnd = false := live
  rw [Handle.endCode, ended, if_neg Bool.false_ne_true] at answer
  have hlist : (dasiListNext list).2 = ⟨⟨false, list.toHandle.next.2.generator⟩,
      list.toHandle.next.2.generator.dasiElement.location.uri⟩ := by
    rw [dasiListNext, answer]
  rw [hlist]
  simp [dasiListAttrs, Handle.atEnd, APIGeneratorImpl.done, live, shown, assert, bind,
    Except.bind, pure, Except.pure, convert]

/-- What a handle still to be asked, or asked before, leaves with FDB. -/
abbrev ListAsked (stream : FdbIterator FdbListElement) (list : DasiList) : Prop :=
  Asked Unfetched stream list.toHandle

theorem dasiList_advances (wanted : Wanted) :
    Advances dasiListNext (fun list => dasiListAttrs list wanted)
      (fun e => Attrs.of wanted (convert e) e.location.uri) ListPending ListAsked :=
  handle_advances list_generates dasiListNext_fst dasiListNext_toHandle
    (fun pending => attrs_of_pending pending wanted)

/-- What `List.__next__` makes of an exception of the C++ side. -/
def raised (x : Exception) : PyException :=
  let err := ffiDecode x.what
  .dasiException (py "Error in function 'dasi_list_next': " ++ err) err

/-- One round of `for item in list`: an item is seen as it is when the body gets it. -/
def pullItem (list : PyList) : Except PyException (Option (Option ListRecord)) × PyList :=
  match list.next with
  | (.error .stopIteration, list) => (.ok none, list)
  | (.error x, list) => (.error x, list)
  | (.ok item, list) => (.ok (some (list.view item)), list)

/-- `List.__read` copies all that `attrs` hands out. -/
theorem listRead_shows {list : PyList} {e : FdbListElement}
    (hattrs : dasiListAttrs list.cdata .all =
      .ok (Attrs.of .all (convert e) e.location.uri)) :
    ∃ item, list.read.1 = .ok item ∧ list.read.2.cdata = list.cdata ∧
      list.read.2.view item = some (listed e) := by
  simp only [PyList.read, hattrs, checkError]
  refine ⟨_, rfl, trivial, ?_⟩
  simp [PyList.view, ListItem.read, Memory.newKey, Attrs.of, Wanted.all, listed, convert]

theorem pyList_pulls : Pulls pullItem (fun e => some (listed e)) raised
    (fun stream list => ListPending stream list.cdata)
    (fun stream list => ListAsked stream list.cdata) where
  called := (dasiList_advances .all).called
  ended := by
    intro list pending
    obtain ⟨hcode, later⟩ := (dasiList_advances .all).ended pending
    have hnext : list.next =
        (.error .stopIteration, { list with cdata := (dasiListNext list.cdata).2 }) := by
      simp only [PyList.next, hcode, checkError]
    have hpull : pullItem list =
        (.ok none, { list with cdata := (dasiListNext list.cdata).2 }) := by
      simp only [pullItem, hnext]
    rw [hpull]
    exact ⟨rfl, later⟩
  fails := by
    intro list x rest pending
    obtain ⟨hcode, later⟩ := (dasiList_advances .all).fails pending
    have hnext : list.next =
        (.error (raised x), { list with cdata := (dasiListNext list.cdata).2 }) := by
      simp only [PyList.next, hcode, checkError]
      rfl
    have hpull : pullItem list =
        (.error (raised x), { list with cdata := (dasiListNext list.cdata).2 }) := by
      simp only [pullItem, hnext, raised]
    rw [hpull]
    exact ⟨rfl, later⟩
  yields := by
    intro list e rest pending
    obtain ⟨hcode, hattrs, later⟩ := (dasiList_advances .all).yields pending
    have hnext : list.next = PyList.read { list with cdata := (dasiListNext list.cdata).2 } := by
      simp only [PyList.next, hcode, checkError]
    obtain ⟨item, hitem, hcdata, shown⟩ :=
      @listRead_shows { list with cdata := (dasiListNext list.cdata).2 } e hattrs
    rw [← hnext] at hitem hcdata shown
    have hpull : pullItem list = (.ok (some (list.next.2.view item)), list.next.2) := by
      cases hout : list.next with
      | mk result next =>
        rw [hout] at hitem
        cases hitem
        simp only [pullItem, hout]
    rw [hpull, shown, hcdata]
    exact ⟨rfl, later⟩

end Listings

section Results

/-- A retrieve result holds the first of the elements still to be handed out. -/
def ResultInHand (stream : FdbIterator FdbListElement) (r : RetrieveResultImpl) : Prop :=
  stream = (r.values.drop r.iter).map Event.element ∧
    r.done = decide (r.values.length ≤ r.iter) ∧
    ∀ e, r.values[r.iter]? = some e → r.dasiElement = convert e

/-- The elements after the one in hand. -/
def resultLeft (r : RetrieveResultImpl) : FdbIterator FdbListElement :=
  (r.values.drop (r.iter + 1)).map Event.element

def ResultRest (stream : FdbIterator FdbListElement) (r : RetrieveResultImpl) : Prop :=
  resultLeft r = stream ∧ r.done = decide (r.values.length ≤ r.iter)

theorem updateResult_inHand (r : RetrieveResultImpl) :
    ResultInHand ((r.values.drop r.iter).map Event.element) r.updateResult := by
  refine ⟨?_, ?_, ?_⟩
  · simp only [RetrieveResultImpl.updateResult_values, RetrieveResultImpl.updateResult_iter]
  · simp only [RetrieveResultImpl.updateResult_done, RetrieveResultImpl.updateResult_values,
      RetrieveResultImpl.updateResult_iter]
  · intro e he
    rw [RetrieveResultImpl.updateResult_values, RetrieveResultImpl.updateResult_iter] at he
    exact RetrieveResultImpl.updateResult_dasiElement he

theorem result_generates :
    Generates (G := RetrieveResultImpl) convert ResultInHand ResultRest where
  ended := by
    rintro r ⟨left, finished, -⟩
    have past : r.values.length ≤ r.iter := by
      simpa using left.symm
    refine ⟨finished.trans (decide_eq_true past), ?_, finished⟩
    rw [resultLeft, List.drop_eq_nil_of_le (by omega), List.map_nil]
  holds := by
    rintro r e rest ⟨left, finished, held⟩
    have room : r.iter < r.values.length := by
      by_contra past
      rw [List.drop_eq_nil_of_le (by omega)] at left
      cases left
    rw [List.drop_eq_getElem_cons room, List.map_cons] at left
    injection left with head tail
    injection head with head
    refine ⟨finished.trans (decide_eq_false (by omega)), ?_, tail.symm, finished⟩
    rw [head]
    exact held _ (List.getElem?_eq_getElem room)
  sound := by
    rintro r x rest ⟨left, -⟩
    cases hdrop : r.values.drop r.iter with
    | nil =>
      rw [hdrop] at left
      cases left
    | cons e tail =>
      rw [hdrop] at left
      cases left
  moves := by
    rintro r stream ⟨left, finished⟩ -
    refine ⟨rfl, ?_⟩
    change ResultInHand stream r.next
    rw [RetrieveResultImpl.next]
    by_cases past : r.values.length ≤ r.iter
    · rw [if_pos (finished.trans (decide_eq_true past))]
      refine ⟨?_, finished, ?_⟩
      · rw [← left, resultLeft, List.drop_eq_nil_of_le past, List.drop_eq_nil_of_le (by omega)]
      · intro e he
        rw [List.getElem?_eq_none past] at he
        cases he
    · have live : ¬ r.done = true := by
        rw [finished, decide_eq_false past]
        exact Bool.false_ne_true
      rw [if_neg live, ← left]
      exact updateResult_inHand { r with iter := r.iter + 1 }
  fails := by
    rintro r x rest ⟨left, -⟩
    rw [resultLeft] at left
    cases hdrop : r.values.drop (r.iter + 1) with
    | nil =>
      rw [hdrop] at left
      cases left
    | cons e tail =>
      rw [hdrop] at left
      cases left

theorem create_resultInHand {values : List FdbListElement} {iter : FdbIterator FdbListElement}
    (whole : drain iter = .ok values) : ∃ r : RetrieveResultImpl,
      RetrieveResultImpl.create iter = .ok r ∧ ResultInHand iter r := by
  refine ⟨_, by rw [RetrieveResultImpl.create, whole]; rfl, ?_⟩
  rw [drain_eq_ok whole]
  exact updateResult_inHand ⟨values, 0, default, false⟩

/-- What is still to come from `dasi_retrieve_t`. -/
theorem dasiRetrieve_advances {D : Type u} (wanted : Wanted) :
    Advances (dasiRetrieveNext (D := D)) (fun retrieve => dasiRetrieveAttrs retrieve wanted)
      (fun e => Attrs.of { wanted with uri := false } (convert e) [])
      (fun stream retrieve => Pending ResultInHand ResultRest stream retrieve.toHandle)
      (fun stream retrieve => Asked ResultRest stream retrieve.toHandle) := by
  refine handle_advances result_generates (fun _ => rfl) (fun _ => rfl) ?_
  intro retrieve e rest pending
  obtain ⟨live, shown, -⟩ :=
    result_generates.holds (next_moves result_generates pending not_broken_element).2
  have live : retrieve.next.2.generator.done = false := live
  have shown : retrieve.next.2.generator.dasiElement = convert e := shown
  simp [dasiRetrieveAttrs, dasiRetrieveNext, Handle.atEnd, APIGeneratorImpl.done, live, shown,
    assert, bind, Except.bind, pure, Except.pure]

end Results

/-- `for item in list`. -/
def forItem {Y : Type y} {B : Type z} (body : B → Option ListRecord → Option Y × B) (fuel : Nat)
    (list : PyList) (b : B) : Option (Outcome Y PyException B PyList) :=
  pullLoop pullItem body fuel list b

section Agreement
variable {Y : Type y} {B : Type z} {iter : FdbIterator FdbListElement}

/-- The loops of the three languages over one listing end alike, after the same elements, and
leave the same of the FDB stream. A retrieve result runs none of its loops if the stream fails
anywhere, and otherwise the same ones. -/
theorem loops_agree {D : Type u} (b : B) {fuel : Nat} (enough : iter.length < fuel) :
    (∀ x rest, iter = .failure x :: rest →
      LazyGenerator.create (T := ListElement) iter = .error x ∧ newDasiList iter = .error x) ∧
    (¬ Broken iter → ∃ (generator : ListGeneratorImpl) (list : DasiList),
      LazyGenerator.create iter = .ok generator ∧ newDasiList iter = .ok list ∧
      (∀ body : B → ListElement → Option Y × B,
        (forEach body fuel generator b).map (Outcome.leaving LazyGenerator.iter) =
          some (visit (fun b e => body b (convert e)) b iter)) ∧
      (∀ (wanted : Wanted) (body : B → Attrs → Option Y × B),
        (whileNext dasiListNext (fun list => dasiListAttrs list wanted) body fuel list b).map
            (Outcome.leaving fun list => list.generator.iter) =
          some (visit (fun b e => body b (Attrs.of wanted (convert e) e.location.uri)) b iter)) ∧
      (∀ (m : Memory) (body : B → Option ListRecord → Option Y × B),
        (forItem body fuel ⟨list, m⟩ b).map
            (Outcome.leaving fun list => list.cdata.generator.iter) =
          some ((visit (fun b e => body b (some (listed e))) b iter).raising raised))) ∧
    (∀ x, drain iter = .error x →
      RetrieveResultImpl.create iter = .error x ∧ newDasiRetrieve (D := D) iter = .error x) ∧
    (∀ values, drain iter = .ok values →
      ∃ (result : RetrieveResultImpl) (retrieve : DasiRetrieve D),
      RetrieveResultImpl.create iter = .ok result ∧ newDasiRetrieve iter = .ok retrieve ∧
      (∀ body : B → ListElement → Option Y × B,
        (forEach body fuel result b).map (Outcome.leaving resultLeft) =
          some (visit (fun b e => body b (convert e)) b iter)) ∧
      (∀ (wanted : Wanted) (body : B → Attrs → Option Y × B), wanted.uri = false →
        (whileNext dasiRetrieveNext (fun r => dasiRetrieveAttrs r wanted) body fuel retrieve
            b).map (Outcome.leaving fun r => resultLeft r.generator) =
          some (visit (fun b e => body b (Attrs.of wanted (convert e) e.location.uri)) b
            iter))) := by
  refine ⟨?_, ?_, ?_, ?_⟩
  · rintro x rest rfl
    exact ⟨rfl, rfl⟩
  · intro sound
    obtain ⟨generator, created, held⟩ := create_inHand (f := convert) (fun _ _ => rfl) sound
    have listed : newDasiList iter = .ok ⟨⟨true, generator⟩, []⟩ := by
      rw [newDasiList, created]
      rfl
    refine ⟨generator, _, created, listed, ?_, ?_, ?_⟩
    · intro body
      have visits := list_generates.visits body held enough b
      rw [← Outcome.raising_id (visit _ _ _)]
      exact visits.leaving (fun rest => rest.1)
    · intro wanted body
      have pulls := (dasiList_advances wanted).pulls
      have visits := pulls.visits (s := ⟨⟨true, generator⟩, []⟩) body held enough b
      rw [← Outcome.raising_id (visit _ _ _)]
      exact visits.leaving (fun rest => rest.2.1)
    · intro m body
      have visits := pyList_pulls.visits (s := ⟨⟨⟨true, generator⟩, []⟩, m⟩) body held enough b
      exact visits.leaving (fun rest => rest.2.1)
  · intro x breaks
    have raises : RetrieveResultImpl.create iter = .error x := by
      rw [RetrieveResultImpl.create, breaks]
      rfl
    refine ⟨raises, ?_⟩
    rw [newDasiRetrieve, raises]
    rfl
  · intro values whole
    obtain ⟨result, created, held⟩ := create_resultInHand whole
    have retrieved : newDasiRetrieve (D := D) iter = .ok ⟨⟨true, result⟩, none, false⟩ := by
      rw [newDasiRetrieve, created]
      rfl
    refine ⟨result, _, created, retrieved, ?_, ?_⟩
    · intro body
      have visits := result_generates.visits body held enough b
      rw [← Outcome.raising_id (visit _ _ _)]
      exact visits.leaving (fun rest => rest.1)
    · intro wanted body noUri
      have pulls := (dasiRetrieve_advances (D := D) wanted).pulls
      have visits := pulls.visits (s := ⟨⟨true, result⟩, none, false⟩) body held enough b
      have alike : ∀ e : FdbListElement,
          Attrs.of { wanted with uri := false } (convert e) [] =
            Attrs.of wanted (convert e) e.location.uri := by
        intro e
        simp [Attrs.of, noUri]
      refine (visits.leaving fun rest => rest.2.1).trans ?_
      simp only [alike, Outcome.raising_id]

/-- A stream that fails after its first element, and a body that counts. -/
theorem loops_agree_sample :
    ∃ list : DasiList,
      newDasiList [.element ⟨[], 1, default⟩, .failure .other, .element ⟨[], 2, default⟩] =
        .ok list ∧
      (whileNext dasiListNext (fun list => dasiListAttrs list .all)
          (fun n (_ : Attrs) => ((none : Option Unit), n + 1)) 4 list 0).map
          (Outcome.leaving fun list => list.generator.iter) =
        some (.failed .other, 1, [.element ⟨[], 2, default⟩]) := by
  have enough : ([.element ⟨[], 1, default⟩, .failure .other, .element ⟨[], 2, default⟩] :
      FdbIterator FdbListElement).length < 4 := by decide
  have agree := loops_agree (Y := Unit) (D := Unit) 0 enough
  obtain ⟨-, list, -, created, -, loops, -⟩ := agree.2.1 (by rintro ⟨x, rest, h⟩; cases h)
  exact ⟨list, created, loops .all fun n _ => (none, n + 1)⟩

end Agreement

end RangeLoops
