import DasiModel.Policies
import DasiModel.StringParsers
import DasiModel.Library.Iterators

/-!
# What queryPolicy reports

The dictionary of the element in hand is never cleared: the assignments for one
element overwrite those for the element before. They are for the same names each
time, so what an element leaves behind is overwritten or was never there.
-/

namespace PolicyReports
open Texts Exceptions DasiKey Generators Cursors Session Policies StringParsers Iterators

universe u v
variable {D : Type u} {W : Type v} {conf : Configuration D}

/-- Neither name lies inside the section the other one names. -/
def Apart (name other : Bytes) : Prop := ¬ path name <+: path other ∧ ¬ path other <+: path name

/-- What dictionaries are relied on for: a dot leads into a section, and a flag that is
set leaves the names apart from it alone. -/
structure Behaves (conf : Configuration D) : Prop where
  has_empty : ∀ name, path name ≠ [] → conf.has conf.empty name = false
  has_set : ∀ d name b, path name ≠ [] → conf.has (conf.set d name b) name = true
  getBool_set : ∀ d name b, path name ≠ [] → conf.getBool (conf.set d name b) name = .ok b
  has_apart : ∀ d name other b, Apart name other →
    conf.has (conf.set d name b) other = conf.has d other
  getBool_apart : ∀ d name other b, Apart name other →
    conf.getBool (conf.set d name b) other = conf.getBool d other

theorem path_policy (id : ControlIdentifier) : path id.policy = [ascii "access", id.name] := by
  cases id <;> decide

theorem path_policy_ne_nil (id : ControlIdentifier) : path id.policy ≠ [] := by
  rw [path_policy]
  exact List.cons_ne_nil _ _

theorem apart_policy {id id' : ControlIdentifier} (other : id ≠ id') :
    Apart id.policy id'.policy := by
  rw [Apart, path_policy, path_policy]
  revert other
  cases id <;> cases id' <;> decide

/-- The tests of the generator on the specifiers. -/
def Shown (specifiers : List Bytes) (id : ControlIdentifier) : Prop :=
  (specifiers = [] ∨ specifiers[0]? = some (ascii "access")) ∧
    (specifiers.length < 2 ∨ specifiers[1]? = some id.name)

/-- They look at two parts at most, whatever comes after them. -/
theorem shown_iff (specifiers : List Bytes) (id : ControlIdentifier) :
    Shown specifiers id ↔
      specifiers <+: [ascii "access", id.name] ∨ [ascii "access", id.name] <+: specifiers := by
  rw [Shown]
  generalize ascii "access" = access
  match specifiers with
  | [] => exact iff_of_true ⟨Or.inl rfl, Or.inl (by decide)⟩ (Or.inl List.nil_prefix)
  | [a] =>
    have short : [a].length < 2 := Nat.lt_succ_self 1
    simp only [short, true_or, and_true, List.cons_ne_nil, List.getElem?_cons_zero,
      Option.some.injEq, false_or, List.cons_prefix_cons, List.nil_prefix, List.prefix_nil,
      and_false, or_false]
  | a :: b :: rest =>
    have long : ¬ (a :: b :: rest).length < 2 := by
      simp only [List.length_cons]
      omega
    simp only [long, false_or, List.cons_ne_nil, List.getElem?_cons_zero,
      List.getElem?_cons_succ, Option.some.injEq, List.cons_prefix_cons, List.nil_prefix, and_true]
    constructor
    · rintro ⟨rfl, rfl⟩
      exact Or.inr ⟨rfl, rfl⟩
    · rintro (⟨rfl, rfl, -⟩ | ⟨rfl, rfl⟩) <;> exact ⟨rfl, rfl⟩

/-- A flag is in a dictionary. -/
def Reads (conf : Configuration D) (value : D) (id : ControlIdentifier) (flag : Bool) : Prop :=
  conf.has value id.policy = true ∧ conf.getBool value id.policy = .ok flag

section Assignments
variable {specifiers : List Bytes} {elem : FdbStatusElement}

theorem reads_setFlag (behaves : Behaves conf) {value : D} {id id' : ControlIdentifier}
    (reads : Reads conf value id (elem.enabled id)) :
    Reads conf (setFlag conf specifiers elem value id') id (elem.enabled id) := by
  rw [setFlag]
  split
  · by_cases same : id' = id
    · subst same
      exact ⟨behaves.has_set _ _ _ (path_policy_ne_nil _),
        behaves.getBool_set _ _ _ (path_policy_ne_nil _)⟩
    · have apart := apart_policy same
      exact ⟨(behaves.has_apart _ _ _ _ apart).trans reads.1,
        (behaves.getBool_apart _ _ _ _ apart).trans reads.2⟩
  · exact reads

/-- The assignments for a list of flags leave those that are shown. -/
theorem reads_foldl (behaves : Behaves conf) {ids : List ControlIdentifier}
    {id : ControlIdentifier} (inside : id ∈ ids)
    (shown : specifiers.length < 2 ∨ specifiers[1]? = some id.name) (value : D) :
    Reads conf (ids.foldl (setFlag conf specifiers elem) value) id (elem.enabled id) := by
  have keeps (ids : List ControlIdentifier) : ∀ value, Reads conf value id (elem.enabled id) →
      Reads conf (ids.foldl (setFlag conf specifiers elem) value) id (elem.enabled id) := by
    induction ids with
    | nil => exact fun _ reads => reads
    | cons first rest ih => exact fun _ reads => ih _ (reads_setFlag behaves reads)
  induction ids generalizing value with
  | nil => cases inside
  | cons first rest ih =>
    rcases List.mem_cons.mp inside with rfl | later
    · refine keeps rest _ ?_
      rw [setFlag, if_pos shown]
      exact ⟨behaves.has_set _ _ _ (path_policy_ne_nil _),
        behaves.getBool_set _ _ _ (path_policy_ne_nil _)⟩
    · exact ih later _

/-- No name appears but those of the flags that are shown. -/
theorem has_foldl (behaves : Behaves conf) {name : Bytes} (ids : List ControlIdentifier)
    (apart : ∀ id ∈ ids, (specifiers.length < 2 ∨ specifiers[1]? = some id.name) →
      Apart id.policy name) (value : D) :
    conf.has (ids.foldl (setFlag conf specifiers elem) value) name = conf.has value name := by
  induction ids generalizing value with
  | nil => rfl
  | cons first rest ih =>
    obtain ⟨here, later⟩ := List.forall_mem_cons.mp apart
    refine (ih later _).trans ?_
    rw [setFlag]
    split
    · rename_i shown
      exact behaves.has_apart _ _ _ _ (here shown)
    · rfl

theorem assign_value (element : PolicyElement D) :
    (PolicyStatusGeneratorImpl.assign conf specifiers elem element).value =
      if specifiers = [] ∨ specifiers[0]? = some (ascii "access") then
        [ControlIdentifier.retrieve, .archive, .list, .wipe].foldl (setFlag conf specifiers elem)
          element.value
      else element.value := rfl

theorem mem_identifiers (id : ControlIdentifier) :
    id ∈ [ControlIdentifier.retrieve, .archive, .list, .wipe] := by
  cases id <;> decide

/-- Nothing is in the dictionary that no element of the stream sets. -/
def Clean (conf : Configuration D) (specifiers : List Bytes) (value : D) : Prop :=
  ∀ name, path name ≠ [] → (∀ id, Shown specifiers id → Apart id.policy name) →
    conf.has value name = false

theorem clean_assign (behaves : Behaves conf) {element : PolicyElement D}
    (clean : Clean conf specifiers element.value) :
    Clean conf specifiers (PolicyStatusGeneratorImpl.assign conf specifiers elem element).value := by
  intro name some apart
  rw [assign_value]
  split
  · rename_i access
    exact (has_foldl behaves _ (fun id _ shown => apart id ⟨access, shown⟩) _).trans
      (clean name some apart)
  · exact clean name some apart

theorem reads_assign (behaves : Behaves conf) {element : PolicyElement D} {id : ControlIdentifier}
    (shown : Shown specifiers id) :
    Reads conf (PolicyStatusGeneratorImpl.assign conf specifiers elem element).value id
      (elem.enabled id) := by
  rw [assign_value, if_pos shown.1]
  exact reads_foldl behaves (mem_identifiers id) shown.2 _

end Assignments

section Stream
variable {specifiers : List Bytes} {stream : List FdbStatusElement}

/-- A generator after `k` calls of `next` along a stream. -/
structure At (conf : Configuration D) (specifiers : List Bytes) (stream : List FdbStatusElement)
    (k : Nat) (g : PolicyStatusGeneratorImpl D) : Prop where
  own : g.policySpecifiers = specifiers
  clean : Clean conf specifiers g.dasiElement.value
  live : g.done = false → ∃ elem, stream[k]? = some elem ∧
    g.iter = (stream.drop (k + 1)).map Event.element ∧
    g.dasiElement.key = Key.ofCombined elem.key ∧
    ∀ id, Shown specifiers id → Reads conf g.dasiElement.value id (elem.enabled id)
  past : g.done = true → stream.length ≤ k

/-- One fetch, from a generator that has the rest of the stream before it. -/
theorem fetch (behaves : Behaves conf) (stream : List FdbStatusElement) {k : Nat}
    {g : PolicyStatusGeneratorImpl D}
    (own : g.policySpecifiers = specifiers) (clean : Clean conf specifiers g.dasiElement.value)
    (running : g.done = false) (rest : g.iter = (stream.drop k).map Event.element) :
    (g.next conf).1 = .ok () ∧ At conf specifiers stream k (g.next conf).2 := by
  subst own
  cases ahead : stream[k]? with
  | none =>
    have past := List.getElem?_eq_none_iff.mp ahead
    rw [List.drop_of_length_le past] at rest
    rw [PolicyStatusGeneratorImpl.next_of_nil conf running rest]
    exact ⟨rfl, rfl, clean, (fun live => nomatch live), fun _ => past⟩
  | some elem =>
    obtain ⟨inside, here⟩ := List.getElem?_eq_some_iff.mp ahead
    rw [List.drop_eq_getElem_cons inside, here] at rest
    rw [PolicyStatusGeneratorImpl.next_of_element conf running rest]
    refine ⟨rfl, rfl, clean_assign behaves clean, fun _ => ⟨elem, ahead, rfl, rfl, ?_⟩, ?_⟩
    · exact fun id shown => reads_assign behaves shown
    · intro finished
      rw [running] at finished
      cases finished

theorem at_next (behaves : Behaves conf) (k : Nat) (g : PolicyStatusGeneratorImpl D)
    (position : At conf specifiers stream k g) :
    At conf specifiers stream (k + 1) (g.next conf).2 := by
  cases running : g.done with
  | true =>
    rw [PolicyStatusGeneratorImpl.next_of_done conf running]
    refine ⟨position.own, position.clean, fun live => ?_, fun _ => ?_⟩
    · rw [running] at live
      cases live
    · exact Nat.le_succ_of_le (position.past running)
  | false =>
    obtain ⟨elem, -, rest, -⟩ := position.live running
    exact (fetch behaves stream position.own position.clean running rest).2

/-- The constructor, over a stream that raises nowhere. -/
theorem create_at (behaves : Behaves conf) (specifiers : List Bytes)
    (stream : List FdbStatusElement) :
    ∃ g, PolicyStatusGeneratorImpl.create conf (stream.map Event.element) specifiers = .ok g ∧
      At conf specifiers stream 0 g := by
  have clean : Clean conf specifiers conf.empty := fun name some _ => behaves.has_empty name some
  obtain ⟨returned, position⟩ := fetch behaves stream (k := 0)
    (g := ⟨specifiers, ⟨Key.new, conf.empty⟩, stream.map Event.element, false⟩) rfl clean rfl rfl
  refine ⟨_, ?_, position⟩
  rw [PolicyStatusGeneratorImpl.create]
  split
  · rename_i g same
    rw [same]
  · rename_i x g same
    rw [same] at returned
    cases returned

theorem At.done_iff {k : Nat} {g : PolicyStatusGeneratorImpl D}
    (position : At conf specifiers stream k g) : g.done = false ↔ k < stream.length := by
  constructor
  · intro running
    obtain ⟨elem, ahead, -⟩ := position.live running
    exact (List.getElem?_eq_some_iff.mp ahead).1
  · intro inside
    by_contra finished
    have past := position.past (by simpa using finished)
    omega

end Stream

/-- Element `i` carries the key of status element `i`, and of its flags those below the
path `p`. -/
structure Reports (conf : Configuration D) (p : List Bytes) (elem : FdbStatusElement)
    (element : PolicyElement D) : Prop where
  key : element.key.items.Perm elem.key
  contains : ∀ id : ControlIdentifier,
    conf.has element.value id.policy = true ↔ p <+: [ascii "access", id.name]
  enabled : ∀ id : ControlIdentifier, p <+: [ascii "access", id.name] →
    conf.getBool element.value id.policy = .ok (elem.enabled id)
  /-- A name apart from the four policies is not in the dictionary at all. -/
  nothing_else : ∀ name, path name ≠ [] → (∀ id : ControlIdentifier, Apart id.policy name) →
    conf.has element.value name = false

/-- The elements of a generator are those of the stream, one by one. -/
def ReportsNamedPart (conf : Configuration D) (p : List Bytes) (stream : List FdbStatusElement)
    (g : PolicyStatusGeneratorImpl D) : Prop :=
  ∀ i, ((stateAfter (PolicyStatusGeneratorImpl.next conf) g i).done = false ↔
      i < stream.length) ∧
    ∀ elem, stream[i]? = some elem →
      Reports conf p elem (stateAfter (PolicyStatusGeneratorImpl.next conf) g i).dasiElement

theorem At.reports {conf : Configuration D} {specifiers : List Bytes}
    {stream : List FdbStatusElement} {k : Nat} {g : PolicyStatusGeneratorImpl D}
    (position : At conf specifiers stream k g) {elem : FdbStatusElement}
    (ahead : stream[k]? = some elem) :
    g.dasiElement.key.items.Perm elem.key ∧
      (∀ id, Shown specifiers id → Reads conf g.dasiElement.value id (elem.enabled id)) ∧
      ∀ id, ¬ Shown specifiers id → conf.has g.dasiElement.value id.policy = false := by
  have inside := (List.getElem?_eq_some_iff.mp ahead).1
  obtain ⟨same, ahead', -, key, reads⟩ := position.live (position.done_iff.mpr inside)
  obtain rfl : elem = same := Option.some.inj (ahead.symm.trans ahead')
  refine ⟨by rw [key]; exact Key.ofCombined_items_perm elem.distinct, reads, ?_⟩
  intro id hidden
  refine position.clean id.policy (path_policy_ne_nil id) ?_
  intro id' shown
  refine apart_policy ?_
  rintro rfl
  exact hidden shown

section Queries
variable {split : Bytes → Bytes → List Bytes} {fdb : FdbLocks W} {query : Query} {w : W}
  {stream : List FdbStatusElement}

/-- Names that are too long are cut to two parts; on all others the reports are right. -/
theorem queryPolicy_reports_iff (behaves : Behaves conf) (cuts : CutsAndDrops split) (name : Bytes)
    (answer : (fdb.status (queryToMarsRequest query) w).1 = .ok (stream.map Event.element)) :
    (∃ g, (queryPolicy conf fdb split query name w).1 = .ok g ∧
      ReportsNamedPart conf (path name) stream g) ↔
    stream = [] ∨ ∀ id : ControlIdentifier, [ascii "access", id.name] <+: path name →
      path name = [ascii "access", id.name] := by
  obtain ⟨g, created, start⟩ := create_at behaves (path name) stream
  have result : (queryPolicy conf fdb split query name w).1 = .ok g := by
    have specifiers : split (ascii ".") name = path name := cuts _ _
    rw [queryPolicy, specifiers, ← created]
    revert answer
    rcases fdb.status (queryToMarsRequest query) w with ⟨_ | iter, w'⟩
    · intro answer
      cases answer
    · intro answer
      cases answer
      rfl
  have position (i : Nat) : At conf (path name) stream i
      (stateAfter (PolicyStatusGeneratorImpl.next conf) g i) :=
    stateAfter_position (at_next behaves) start i
  constructor
  · rintro ⟨g', result', reports⟩
    obtain rfl : g = g' := Except.ok.inj (result.symm.trans result')
    cases stream with
    | nil => exact Or.inl rfl
    | cons elem rest =>
      right
      intro id long
      have first := (reports 0).2 elem rfl
      have shown : Shown (path name) id := (shown_iff _ _).mpr (Or.inr long)
      have reads := ((position 0).reports (show (elem :: rest)[0]? = some elem from rfl)).2.1 id shown
      have short := (first.contains id).mp reads.1
      exact short.eq_of_length_le long.length_le
  · intro exact
    refine ⟨g, result, fun i => ⟨(position i).done_iff, fun elem ahead => ?_⟩⟩
    obtain ⟨key, reads, hidden⟩ := (position i).reports ahead
    have shown (id : ControlIdentifier) :
        Shown (path name) id ↔ path name <+: [ascii "access", id.name] := by
      rw [shown_iff]
      refine or_iff_left_of_imp (fun long => ?_)
      rcases exact with rfl | exact
      · cases ahead
      · rw [exact id long]
    refine ⟨key, fun id => ⟨fun has => ?_, fun below => ?_⟩, fun id below => ?_, ?_⟩
    · by_contra outside
      rw [hidden id (fun h => outside ((shown id).mp h))] at has
      cases has
    · exact (reads id ((shown id).mpr below)).1
    · exact (reads id ((shown id).mpr below)).2
    · exact fun name some apart => (position i).clean name some (fun id _ => apart id)

end Queries

theorem nodeConfiguration_behaves : Behaves nodeConfiguration where
  has_empty _ _ := rfl
  has_set d name b _ := by
    simp only [nodeConfiguration, List.any_cons, List.isPrefixOf_iff_prefix.mpr
      (List.prefix_rfl (l := path name)), Bool.true_or]
  getBool_set d name b _ := by
    simp only [nodeConfiguration]
    rw [List.find?_cons_of_pos (by simp)]
  has_apart d name other b apart := by
    have off : (path other).isPrefixOf (path name) = false := by
      simpa only [Bool.eq_false_iff, ne_eq, List.isPrefixOf_iff_prefix] using apart.2
    simp only [nodeConfiguration, List.any_cons, off, Bool.false_or, List.any_filter]
    congr 1
    funext n
    by_cases below : path other <+: n.1
    · have kept : ¬ path name <+: n.1 := fun below' =>
        (List.prefix_or_prefix_of_prefix below below').elim apart.2 apart.1
      simp [List.isPrefixOf_iff_prefix, kept]
    · simp [List.isPrefixOf_iff_prefix, below]
  getBool_apart d name other b apart := by
    have off : path name ≠ path other := fun same => apart.1 (same ▸ List.prefix_rfl)
    have kept : (d.filter (fun n => ¬ (path name).isPrefixOf n.1)).find?
        (fun n => n.1 = path other) = d.find? (fun n => n.1 = path other) := by
      rw [List.find?_filter]
      congr 1
      funext n
      by_cases here : n.1 = path other
      · simp [here, List.isPrefixOf_iff_prefix, apart.1]
      · simp [here]
    simp only [nodeConfiguration]
    rw [List.find?_cons_of_neg (by simpa using off), kept]

def listOnly : FdbStatusElement :=
  ⟨[(ascii "a", ascii "1")], fun id => id = .list, by decide⟩

def allButList : FdbStatusElement :=
  ⟨[(ascii "a", ascii "2")], fun id => id ≠ .list, by decide⟩

def twoCollections : FdbLocks Unit :=
  ⟨fun _ _ _ w => (.ok [], w), fun _ w => (.ok [.element listOnly, .element allButList], w)⟩

theorem queryPolicy_list : ∃ g,
    (queryPolicy nodeConfiguration twoCollections splitTokens Query.new
      (ascii "access..list") ()).1 = .ok g ∧
    ReportsNamedPart nodeConfiguration (path (ascii "access..list")) [listOnly, allButList] g :=
  (queryPolicy_reports_iff nodeConfiguration_behaves (fun _ _ => rfl) (ascii "access..list")
    rfl).mpr (Or.inr (fun id => by cases id <;> decide))

/-- The name of no policy reports one. -/
theorem queryPolicy_too_long : ¬ ∃ g,
    (queryPolicy nodeConfiguration twoCollections splitTokens Query.new
      (ascii "access.list.x") ()).1 = .ok g ∧
    ReportsNamedPart nodeConfiguration (path (ascii "access.list.x")) [listOnly, allButList] g := by
  rintro ⟨g, result, reports⟩
  obtain rfl := Except.ok.inj result
  exact absurd (((reports 0).2 listOnly rfl).contains .list |>.mp (by decide)) (by decide)

end PolicyReports
