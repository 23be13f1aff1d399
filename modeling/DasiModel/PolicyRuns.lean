import DasiModel.LockRequests
import DasiModel.PolicyReports
import DasiModel.Library.Loops
import DasiModel.Library.SettingTables

/-!
# Policies over whole programs

A program sets and queries policies and goes through what it gets. Over an FDB that
locks and unlocks what it is asked to, the policies are a table of settings: a query
shows what was set last, and so does setting a policy.
-/

namespace PolicyRuns
open Texts Exceptions DasiKey Generators Cursors Session Policies PolicyStatusGeneratorImpl
open LockRequests PolicyReports StringParsers Loops Machines Refinements SettingTables

universe u v
variable {D : Type u} {W : Type v}

section Model

/-- What is read of an element: its key, and those of the four policies that it has. -/
def observed (conf : Configuration D) (element : PolicyElement D) :
    Key × (ControlIdentifier → Option Bool) :=
  (element.key, fun id =>
    if conf.has element.value id.policy then
      match conf.getBool element.value id.policy with
      | .ok b => some b
      | .error _ => none
    else none)

abbrev Answer := SettingTables.Answer Key ControlIdentifier Bool Exception

/-- `for (const auto& policies : ...)`, and what it reads of the elements. -/
def goThrough (conf : Configuration D) :
    Except Exception (PolicyStatusGeneratorImpl D) → Answer
  | .error x => ⟨[], some x⟩
  | .ok generator =>
    match rangeFor (Y := Empty) (fun g => g.done) (fun g => observed conf g.dasiElement)
        (next conf) (fun seen element => (none, seen ++ [element])) (generator.iter.length + 2)
        generator [] with
    | some (.failed x, seen, _) => ⟨seen, some x⟩
    | some (_, seen, _) => ⟨seen, none⟩
    | none => ⟨[], none⟩

inductive Request (D : Type u) where
  | setPolicy (query : Query) (policyDict : D)
  | queryPolicy (query : Query) (name : Bytes)

def step (conf : Configuration D) (fdb : FdbLocks W) (split : Bytes → Bytes → List Bytes)
    (here : Bytes) (w : W) : Request D → Answer × W
  | .setPolicy query policyDict =>
    let (made, w) := setPolicy conf fdb here query policyDict w
    (goThrough conf made, w)
  | .queryPolicy query name =>
    let (made, w) := queryPolicy conf fdb split query name w
    (goThrough conf made, w)

end Model

section Locks

/-- The boolean that all the names lead to. -/
def common (getBool : Bytes → Except Exception Bool) : List Bytes → Option Bool
  | [] => none
  | key :: rest =>
    match getBool key with
    | .error _ => none
    | .ok b => if rest = [] ∨ common getBool rest = some b then some b else none

/-- The policies that a dictionary names and the boolean it sets them to, if there is one. -/
def lockOf (conf : Configuration D) (policyDict : D) :
    Option (Finset ControlIdentifier × Bool) :=
  if conf.has policyDict (ascii "access") then
    let access := conf.getSubConfiguration policyDict (ascii "access")
    (common (conf.getBool access) (conf.keys access)).map (fun b => (named (conf.keys access), b))
  else none

variable {getBool : Bytes → Except Exception Bool} {keys : List Bytes} {b : Bool}

theorem common_eq_some :
    common getBool keys = some b ↔ keys ≠ [] ∧ ∀ key ∈ keys, getBool key = .ok b := by
  induction keys with
  | nil => exact iff_of_false (Option.some_ne_none b).symm (fun h => h.1 rfl)
  | cons key rest ih =>
    rw [common, List.forall_mem_cons]
    cases value : getBool key with
    | error x =>
      constructor
      · intro h
        cases h
      · rintro ⟨-, own, -⟩
        cases own
    | ok own =>
      dsimp only
      constructor
      · intro h
        split at h
        · rename_i agrees
          cases h
          refine ⟨List.cons_ne_nil _ _, rfl, ?_⟩
          rcases agrees with rfl | agrees
          · exact List.forall_mem_nil _
          · exact (ih.mp agrees).2
        · cases h
      · rintro ⟨-, same, agree⟩
        cases same
        rw [if_pos]
        by_cases empty : rest = []
        · exact .inl empty
        · exact .inr (ih.mpr ⟨empty, agree⟩)

/-- A loop that ends has seen one boolean only. -/
theorem agree_of_loop {identifiers : Finset ControlIdentifier} {locking : Locking}
    (ended : keys.foldlM (Locking.pass getBool)
      ⟨true, identifiers, some (Locking.actionFor b)⟩ = .ok locking) :
    ∀ key ∈ keys, getBool key = .ok b := by
  induction keys generalizing identifiers with
  | nil => exact List.forall_mem_nil _
  | cons key rest ih =>
    rw [List.foldlM_cons] at ended
    cases value : getBool key with
    | error x =>
      simp only [Locking.pass, value] at ended
      cases ended
    | ok own =>
      rw [pass_of_getBool value] at ended
      split at ended
      · cases ended
      · rename_i same
        have agrees : some (Locking.actionFor own) = some (Locking.actionFor b) := by
          by_contra other
          exact same ⟨rfl, other⟩
        obtain rfl : own = b := by
          revert agrees
          cases own <;> cases b <;> decide
        exact List.forall_mem_cons.mpr ⟨value, ih ended⟩

/-- A section in which all names lead to one boolean is set to it. -/
theorem lockOf_of_maps {D : Type u} {conf : Configuration D} {policyDict : D}
    {entries : List (Bytes × Bool)} (maps : Maps conf policyDict entries)
    (nonempty : entries ≠ []) (agree : ∀ e ∈ entries, e.2 = b) :
    lockOf conf policyDict = some (named (entries.map Prod.fst), b) := by
  have all : common (conf.getBool (conf.getSubConfiguration policyDict (ascii "access")))
      (entries.map Prod.fst) = some b := by
    refine common_eq_some.mpr ⟨by simpa using nonempty, fun key inside => ?_⟩
    obtain ⟨e, own, rfl⟩ := List.mem_map.mp inside
    rw [maps.booleans e own, agree e own]
  rw [lockOf, if_pos maps.has]
  simp only [maps.keys, all, Option.map_some]

/-- What the loop over a section that is not empty leaves. -/
theorem loop_cases (getBool : Bytes → Except Exception Bool) (nonempty : keys ≠ []) :
    (∃ b, common getBool keys = some b ∧
      keys.foldlM (Locking.pass getBool) Locking.start =
        .ok ⟨true, named keys, some (Locking.actionFor b)⟩) ∨
    (common getBool keys = none ∧
      ∃ x, keys.foldlM (Locking.pass getBool) Locking.start = .error x) := by
  cases found : common getBool keys with
  | some b =>
    obtain ⟨-, agree⟩ := common_eq_some.mp found
    have whole : (keys.map (fun key => (key, b))).map Prod.fst = keys := by
      rw [List.map_map]
      exact List.map_id _
    have booleans : ∀ e ∈ keys.map (fun key => (key, b)), getBool e.1 = .ok e.2 := by
      simpa using agree
    have loop := loop_of_agree (b := b) booleans (by simpa using nonempty) (by simp)
    rw [whole] at loop
    exact .inl ⟨b, rfl, loop⟩
  | none =>
    refine .inr ⟨rfl, ?_⟩
    cases ended : keys.foldlM (Locking.pass getBool) Locking.start with
    | error x => exact ⟨x, rfl⟩
    | ok locking =>
      obtain ⟨key, rest, rfl⟩ := List.exists_cons_of_ne_nil nonempty
      rw [List.foldlM_cons] at ended
      cases value : getBool key with
      | error x =>
        simp only [Locking.pass, value] at ended
        cases ended
      | ok own =>
        rw [pass_of_getBool value, if_neg (fun h => Bool.false_ne_true h.1)] at ended
        have agree := agree_of_loop ended
        have := common_eq_some.mpr
          ⟨List.cons_ne_nil key rest, List.forall_mem_cons.mpr ⟨value, agree⟩⟩
        rw [found] at this
        cases this

end Locks

section Generators
variable {conf : Configuration D} {specifiers : List Bytes}

instance (specifiers : List Bytes) (id : ControlIdentifier) : Decidable (Shown specifiers id) :=
  inferInstanceAs (Decidable (_ ∧ _))

/-- What is shown of an FDB element. -/
def reportOf (specifiers : List Bytes) (e : FdbStatusElement) :
    Key × (ControlIdentifier → Option Bool) :=
  (Key.ofCombined e.key, fun id => if Shown specifiers id then some (e.enabled id) else none)

/-- Whatever element was in hand before, the one that is fetched is shown. -/
theorem observed_assign (behaves : Behaves conf) {element : PolicyElement D}
    (clean : Clean conf specifiers element.value) (e : FdbStatusElement) :
    observed conf (assign conf specifiers e element) = reportOf specifiers e := by
  refine Prod.ext rfl (funext fun id => ?_)
  dsimp only [observed, reportOf]
  by_cases shown : Shown specifiers id
  · have reads : Reads conf (assign conf specifiers e element).value id (e.enabled id) :=
      reads_assign behaves shown
    rw [if_pos reads.1, if_pos shown, reads.2]
  · have absent : conf.has (assign conf specifiers e element).value id.policy = false := by
      refine clean_assign behaves clean id.policy (path_policy_ne_nil id) ?_
      intro id' visible
      apply apart_policy
      rintro rfl
      exact shown visible
    rw [if_neg (by rw [absent]; decide), if_neg shown]

/-- The whole stream is still with FDB. -/
structure Unfetched (conf : Configuration D) (specifiers : List Bytes)
    (stream : FdbIterator FdbStatusElement) (g : PolicyStatusGeneratorImpl D) : Prop where
  own : g.policySpecifiers = specifiers
  clean : Clean conf specifiers g.dasiElement.value
  rest : g.iter = stream
  ended : g.done = true → stream = []

/-- The generator has the first element of the stream in hand. -/
def InHand (conf : Configuration D) (specifiers : List Bytes) :
    FdbIterator FdbStatusElement → PolicyStatusGeneratorImpl D → Prop
  | [], g => g.done = true ∧ Unfetched conf specifiers [] g
  | .element e :: rest, g => g.done = false ∧
    observed conf g.dasiElement = reportOf specifiers e ∧ Unfetched conf specifiers rest g
  | .failure _ :: _, _ => False

theorem generator_steps (behaves : Behaves conf) (specifiers : List Bytes) :
    Steps (fun g => g.done) (fun g => observed conf g.dasiElement) (next conf)
      (reportOf specifiers) id (InHand conf specifiers) (Unfetched conf specifiers) where
  ended := id
  holds := id
  sound := id
  moves := by
    rintro g stream ⟨rfl, clean, rfl, ended⟩ sound
    cases running : g.done with
    | true =>
      have empty := ended running
      rw [next_of_done conf running, empty]
      exact ⟨rfl, running, rfl, clean, empty, fun _ => rfl⟩
    | false =>
      cases left : g.iter with
      | nil =>
        rw [next_of_nil conf running left]
        exact ⟨rfl, rfl, rfl, clean, left, fun _ => rfl⟩
      | cons event rest =>
        cases event with
        | failure x => exact absurd left (sound x rest)
        | element e =>
          rw [next_of_element conf running left]
          refine ⟨rfl, running, observed_assign behaves clean e, rfl,
            clean_assign behaves clean, rfl, fun finished => ?_⟩
          rw [running] at finished
          cases finished
  fails := by
    rintro g x rest ⟨rfl, clean, left, ended⟩
    cases running : g.done with
    | true => cases ended running
    | false =>
      simp only [next, running, left, Bool.false_eq_true, if_false]
      exact ⟨rfl, rfl, clean, rfl, fun finished => absurd finished Bool.false_ne_true⟩

/-- The answer to going through a stream: what comes before its end or its failure. -/
theorem goThrough_create (behaves : Behaves conf) (specifiers : List Bytes)
    (iter : FdbIterator FdbStatusElement) :
    ∃ values : List FdbStatusElement,
      (iter = values.map .element ∧ goThrough conf (create conf iter specifiers) =
        ⟨values.map (reportOf specifiers), none⟩) ∨
      ∃ x rest, iter = values.map .element ++ .failure x :: rest ∧
        goThrough conf (create conf iter specifiers) =
          ⟨values.map (reportOf specifiers), some x⟩ := by
  have steps := generator_steps behaves specifiers
  have start : Unfetched conf specifiers iter ⟨specifiers, ⟨Key.new, conf.empty⟩, iter, false⟩ :=
    ⟨rfl, fun name some_ _ => behaves.has_empty name some_, rfl,
      fun finished => absurd finished Bool.false_ne_true⟩
  by_cases broken : ∃ x rest, iter = .failure x :: rest
  · obtain ⟨x, rest, rfl⟩ := broken
    exact ⟨[], .inr ⟨x, rest, rfl, rfl⟩⟩
  · obtain ⟨returned, hand⟩ := steps.moves start (fun x rest h => broken ⟨x, rest, h⟩)
    cases fetched : next conf ⟨specifiers, ⟨Key.new, conf.empty⟩, iter, false⟩ with
    | mk result g =>
      rw [fetched] at returned hand
      cases returned
      have made : create conf iter specifiers = .ok g := by rw [create, fetched]
      have enough : iter.length < g.iter.length + 2 := by
        cases iter with
        | nil => exact Nat.succ_pos _
        | cons event tail =>
          cases event with
          | failure x => exact absurd ⟨x, tail, rfl⟩ broken
          | element e =>
            have left := hand.2.2.rest
            rw [left, List.length_cons]
            omega
      obtain ⟨g', loop, -⟩ := steps.visits (Y := Empty)
        (fun seen element => (none, seen ++ [element])) hand enough []
      obtain ⟨values, ⟨whole, visits⟩ | ⟨x, rest, whole, visits⟩⟩ :=
        visit_collecting (Y := Empty) (reportOf specifiers) iter []
      · refine ⟨values, .inl ⟨whole, ?_⟩⟩
        simp only [made, goThrough, loop, visits, Ending.map, List.nil_append]
      · refine ⟨values, .inr ⟨x, rest, whole, ?_⟩⟩
        simp only [made, goThrough, loop, visits, Ending.map, List.nil_append, id]

end Generators

section Contract

/-- What is enabled in the collections that FDB has. -/
abbrev Locks := Table Key ControlIdentifier Bool

/-- A stream shows collections that a request identifies, and all of them unless it fails. -/
structure Reported (identifies : MarsRequest → Key → Prop) (locks : Locks) (rq : MarsRequest)
    (iter : FdbIterator FdbStatusElement) : Prop where
  sound : ∀ e, .element e ∈ iter → identifies rq (Key.ofCombined e.key) ∧
    locks (Key.ofCombined e.key) = some e.enabled
  complete : ∀ values : List FdbStatusElement, iter = values.map .element → ∀ k,
    (locks k).isSome → identifies rq k → ∃ e ∈ values, Key.ofCombined e.key = k

def lockAssignment (rq : MarsRequest) (action : ControlAction)
    (identifiers : Finset ControlIdentifier) : Assignment ControlIdentifier Bool MarsRequest :=
  ⟨rq, (· ∈ identifiers), decide (action = .enable)⟩

/-- What is written about policies: they are set for the collections that the query identifies,
and what is returned are the policies of these. A request that fails may have had some of its
effect. -/
structure Documented (fdb : FdbLocks W) (identifies : MarsRequest → Key → Prop)
    (locks : W → Locks) : Prop where
  controlled {rq : MarsRequest} {action : ControlAction} {ids : Finset ControlIdentifier}
    {w w' : W} {result : Except Exception (FdbIterator FdbStatusElement)} :
    fdb.control rq (some action) ids w = (result, w') →
      Partly identifies (lockAssignment rq action ids) (locks w) (locks w')
  whole {rq : MarsRequest} {action : ControlAction} {ids : Finset ControlIdentifier} {w w' : W}
    {values : List FdbStatusElement} :
    fdb.control rq (some action) ids w = (.ok (values.map .element), w') →
      Wholly identifies (lockAssignment rq action ids) (locks w) (locks w')
  shown {rq : MarsRequest} {action : ControlAction} {ids : Finset ControlIdentifier} {w w' : W}
    {iter : FdbIterator FdbStatusElement} :
    fdb.control rq (some action) ids w = (.ok iter, w') →
      Reported identifies (locks w') rq iter
  status {rq : MarsRequest} {w w' : W}
    {result : Except Exception (FdbIterator FdbStatusElement)} :
    fdb.status rq w = (result, w') → locks w' = locks w ∧
      ∀ iter, result = .ok iter → Reported identifies (locks w) rq iter

end Contract

section Runs
variable {conf : Configuration D} {fdb : FdbLocks W} {identifies : MarsRequest → Key → Prop}
  {locks : W → Locks} {split : Bytes → Bytes → List Bytes} {here : Bytes}

/-- What a call asks of the table. -/
def Request.meant (conf : Configuration D) :
    Request D → SettingTables.Request ControlIdentifier Bool MarsRequest
  | .setPolicy query policyDict => .assign ((lockOf conf policyDict).map fun lock =>
      ⟨queryToMarsRequest query, (· ∈ lock.1), lock.2⟩)
  | .queryPolicy query name => .report (queryToMarsRequest query) (Shown (path name))

/-- A section that is set has names in it; for an empty one there is no action to take. -/
def Request.Names (conf : Configuration D) : Request D → Prop
  | .setPolicy _ policyDict => conf.has policyDict (ascii "access") = true →
      conf.keys (conf.getSubConfiguration policyDict (ascii "access")) ≠ []
  | .queryPolicy _ _ => True

/-- Going through a stream tells what the stream reports. -/
theorem tells_of_reported (behaves : Behaves conf) {table : Locks} {rq : MarsRequest}
    {iter : FdbIterator FdbStatusElement} (reported : Reported identifies table rq iter)
    (specifiers : List Bytes) :
    Tells identifies table rq (Shown specifiers)
      (goThrough conf (create conf iter specifiers)) := by
  have told : ∀ values : List FdbStatusElement, (∀ e ∈ values, .element e ∈ iter) →
      ∀ raised : Option Exception, (raised = none → iter = values.map .element) →
      Tells identifies table rq (Shown specifiers)
        ⟨values.map (reportOf specifiers), raised⟩ := by
    intro values inside raised whole
    refine ⟨?_, ?_, ?_, ?_⟩
    · rintro report member
      obtain ⟨e, own, rfl⟩ := List.mem_map.mp member
      exact (reported.sound e (inside e own)).1
    · rintro report member id shown
      obtain ⟨e, own, rfl⟩ := List.mem_map.mp member
      simp only [reportOf, if_pos shown, Table.setting, (reported.sound e (inside e own)).2,
        Option.map_some]
    · rintro report member id hidden
      obtain ⟨e, own, rfl⟩ := List.mem_map.mp member
      simp only [reportOf, if_neg hidden]
    · rintro complete k there finding
      obtain ⟨e, own, same⟩ := reported.complete values (whole complete) k there finding
      exact ⟨_, List.mem_map_of_mem own, same⟩
  obtain ⟨values, ⟨whole, answer⟩ | ⟨x, rest, whole, answer⟩⟩ :=
    goThrough_create behaves specifiers iter
  · rw [answer]
    refine told values (fun e own => ?_) none (fun _ => whole)
    rw [whole]
    exact List.mem_map_of_mem own
  · rw [answer]
    refine told values (fun e own => ?_) (some x) (fun h => absurd h (Option.some_ne_none x))
    rw [whole]
    exact List.mem_append_left _ (List.mem_map_of_mem own)

/-- Nothing is told by a failure. -/
theorem tells_nothing (table : Locks) (rq : MarsRequest) (shown : ControlIdentifier → Prop)
    (x : Exception) : Tells identifies table rq shown ⟨[], some x⟩ :=
  ⟨List.forall_mem_nil _, List.forall_mem_nil _, List.forall_mem_nil _,
    fun h => absurd h (Option.some_ne_none x)⟩

/-- No specifiers show everything. -/
theorem shown_nil : Shown [] = fun _ => True :=
  funext fun _ => propext (iff_true_intro ⟨.inl rfl, .inl Nat.two_pos⟩)

theorem queryPolicy_allowed (behaves : Behaves conf) (cuts : CutsAndDrops split)
    (documented : Documented fdb identifies locks) (query : Query) (name : Bytes) (w : W) :
    Allowed identifies (locks w) (Request.meant conf (.queryPolicy query name))
      (step conf fdb split here w (.queryPolicy query name)).1
      (locks (step conf fdb split here w (.queryPolicy query name)).2) := by
  have specifiers : split (ascii ".") name = path name := cuts _ _
  cases called : fdb.status (queryToMarsRequest query) w with
  | mk result w' =>
    obtain ⟨same, shown⟩ := documented.status called
    simp only [step, queryPolicy, specifiers, called, Request.meant]
    cases result with
    | error x =>
      rw [same]
      exact .reported (tells_nothing _ _ _ x)
    | ok iter =>
      rw [same]
      exact .reported (tells_of_reported behaves (shown iter rfl) (path name))

/-- The answer of a control request, gone through. -/
theorem control_allowed (behaves : Behaves conf) (documented : Documented fdb identifies locks)
    {rq : MarsRequest} {action : ControlAction} {ids : Finset ControlIdentifier} {w w' : W}
    {iter : FdbIterator FdbStatusElement}
    (called : fdb.control rq (some action) ids w = (.ok iter, w')) :
    Allowed identifies (locks w) (.assign (some (lockAssignment rq action ids)))
      (goThrough conf (create conf iter [])) (locks w') := by
  have tells := tells_of_reported behaves (documented.shown called) []
  rw [shown_nil] at tells
  refine .assigned (documented.controlled called) (fun complete => ?_) tells
  obtain ⟨values, ⟨rfl, -⟩ | ⟨x, rest, -, answer⟩⟩ := goThrough_create behaves [] iter
  · exact documented.whole called
  · rw [answer] at complete
    cases complete

theorem setPolicy_allowed (behaves : Behaves conf)
    (documented : Documented fdb identifies locks) (query : Query) {policyDict : D} (w : W)
    (names : Request.Names conf (.setPolicy query policyDict)) :
    Allowed identifies (locks w) (Request.meant conf (.setPolicy query policyDict))
      (step conf fdb split here w (.setPolicy query policyDict)).1
      (locks (step conf fdb split here w (.setPolicy query policyDict)).2) := by
  by_cases has : conf.has policyDict (ascii "access") = true
  · have nonempty : conf.keys (conf.getSubConfiguration policyDict (ascii "access")) ≠ [] :=
      names has
    simp only [step, setPolicy, Request.meant, lockOf, if_pos has]
    generalize conf.getSubConfiguration policyDict (ascii "access") = access at nonempty ⊢
    rcases loop_cases (conf.getBool access) nonempty with ⟨b, found, loop⟩ | ⟨found, x, loop⟩
    · have value : decide (Locking.actionFor b = .enable) = b := by
        cases b <;> rfl
      cases called : fdb.control (queryToMarsRequest query) (some (Locking.actionFor b))
          (named (conf.keys access)) w with
      | mk result w' =>
        simp only [found, loop, called, Option.map_some]
        cases result with
        | error x =>
          have made := documented.controlled called
          rw [lockAssignment, value] at made
          exact .assigned made (fun h => absurd h (Option.some_ne_none x))
            (tells_nothing _ _ _ x)
        | ok iter =>
          have allowed := control_allowed behaves documented called
          rw [lockAssignment, value] at allowed
          exact allowed
    · rw [found, loop]
      exact .refused
  · simp only [step, setPolicy, if_neg has]
    exact .refused

theorem step_allowed (behaves : Behaves conf) (cuts : CutsAndDrops split)
    (documented : Documented fdb identifies locks) (w : W) (request : Request D)
    (names : request.Names conf) :
    Allowed identifies (locks w) (request.meant conf) (step conf fdb split here w request).1
      (locks (step conf fdb split here w request).2) := by
  cases request with
  | setPolicy query policyDict => exact setPolicy_allowed behaves documented query w names
  | queryPolicy query name => exact queryPolicy_allowed behaves cuts documented query name w

/-- The calls of a program as requests to the table, with their answers. -/
def asked (conf : Configuration D) (calls : List (Request D × Answer)) :
    List (SettingTables.Request ControlIdentifier Bool MarsRequest × Answer) :=
  calls.map (fun call => (call.1.meant conf, call.2))

theorem program_allowed (behaves : Behaves conf) (cuts : CutsAndDrops split)
    (documented : Documented fdb identifies locks) (w : W) {requests : List (Request D)}
    (names : ∀ request ∈ requests, request.Names conf) :
    Runs (Allowed identifies) (locks w)
      (asked conf (trace (step conf fdb split here) w requests))
      (locks (after (step conf fdb split here) w requests)) :=
  runs_of_view (fun w request names => step_allowed behaves cuts documented w request names) w names

/-- Every program that sets and queries policies is a run of a table of settings. -/
theorem policies_refine_table (behaves : Behaves conf) (cuts : CutsAndDrops split)
    (documented : Documented fdb identifies locks) (w : W) {requests : List (Request D)}
    (names : ∀ request ∈ requests, request.Names conf) :
    ∃ table, Runs (Allowed identifies) (locks w)
        (asked conf (trace (step conf fdb split here) w requests)) table ∧
      locks (after (step conf fdb split here) w requests) = table :=
  ⟨_, program_allowed behaves cuts documented w names, rfl⟩

/-- The call sets this policy of the collection. -/
def Request.Sets (conf : Configuration D) (identifies : MarsRequest → Key → Prop) (k : Key)
    (id : ControlIdentifier) : Request D → Prop
  | .setPolicy query policyDict => ∃ lock, lockOf conf policyDict = some lock ∧
      identifies (queryToMarsRequest query) k ∧ id ∈ lock.1
  | .queryPolicy _ _ => False

theorem spares_of_not_sets {k : Key} {id : ControlIdentifier} {request : Request D}
    (other : ¬ request.Sets conf identifies k id) :
    (request.meant conf).Spares identifies k id := by
  rintro assignment meant ⟨finds, own⟩
  cases request with
  | queryPolicy query name => cases meant
  | setPolicy query policyDict =>
    obtain ⟨lock, set, rfl⟩ := Option.map_eq_some_iff.mp (SettingTables.Request.assign.inj meant)
    exact other ⟨lock, set, finds, own⟩

/-- A policy is shown as it was set last, by the call that sets it and by all later calls: in
every element for the collection, which is there unless an exception ends the loop. Calls in
between may set other policies, or this one of other collections, or fail. -/
theorem last_policy_shown (behaves : Behaves conf) (cuts : CutsAndDrops split)
    (documented : Documented fdb identifies locks) {w : W} {requests : List (Request D)}
    (names : ∀ request ∈ requests, request.Names conf)
    {r₁ r₂ : List (Request D × Answer)} {query : Query} {policyDict : D} {answer : Answer}
    (run : trace (step conf fdb split here) w requests =
      r₁ ++ (.setPolicy query policyDict, answer) :: r₂) (done : answer.raised = none)
    {entries : List (Bytes × Bool)} (maps : Maps conf policyDict entries) {b : Bool}
    (agree : ∀ e ∈ entries, e.2 = b) {k : Key} {id : ControlIdentifier}
    (there : (locks w k).isSome) (identified : identifies (queryToMarsRequest query) k)
    (inside : id.name ∈ entries.map Prod.fst)
    (last : ∀ call ∈ r₂, ¬ call.1.Sets conf identifies k id) :
    (locks (after (step conf fdb split here) w requests)).setting k id = some b ∧
      ∀ call ∈ (.setPolicy query policyDict, answer) :: r₂,
        Showing identifies k id b (call.1.meant conf) call.2 := by
  have runs : Runs (Allowed identifies) (locks w)
      (asked conf (trace (step conf fdb split here) w requests)) _ :=
    program_allowed behaves cuts documented w names
  have nonempty : entries ≠ [] := by
    rintro rfl
    cases inside
  have set := lockOf_of_maps maps nonempty agree
  have meant : Request.meant conf (.setPolicy query policyDict) = .assign (some
      ⟨queryToMarsRequest query, (· ∈ named (entries.map Prod.fst)), b⟩) := by
    rw [Request.meant, set, Option.map_some]
  have parts : asked conf (trace (step conf fdb split here) w requests) =
      asked conf r₁ ++ (.assign (some
        ⟨queryToMarsRequest query, (· ∈ named (entries.map Prod.fst)), b⟩), answer) ::
          asked conf r₂ := by
    simp only [run, asked, List.map_append, List.map_cons, meant]
  rw [parts] at runs
  have spared : ∀ entry ∈ asked conf r₂, entry.1.Spares identifies k id := by
    intro entry member
    obtain ⟨call, own, rfl⟩ := List.mem_map.mp member
    exact spares_of_not_sets (last call own)
  obtain ⟨ended, shown⟩ := assigned_shown runs done there
    ⟨identified, mem_named.mpr inside⟩ spared
  refine ⟨ended, List.forall_mem_cons.mpr ⟨?_, fun call own => ?_⟩⟩
  · rw [meant]
    exact (List.forall_mem_cons.mp shown).1
  · exact (List.forall_mem_cons.mp shown).2 _ (List.mem_map_of_mem own)

end Runs

section Samples

theorem collection_distinct : ([(ascii "a", ascii "1")].map Prod.fst).Nodup := by
  decide

/-- An FDB with one collection, which every request identifies. -/
def oneCollection : FdbLocks (ControlIdentifier → Bool) :=
  let element (enabled : ControlIdentifier → Bool) : FdbStatusElement :=
    ⟨[(ascii "a", ascii "1")], enabled, collection_distinct⟩
  { control := fun _ action ids w =>
      let w := fun id => if id ∈ ids then decide (action = some .enable) else w id
      (.ok [.element (element w)], w)
    status := fun _ w => (.ok [.element (element w)], w) }

def collectionKey : Key := Key.ofCombined [(ascii "a", ascii "1")]

def oneCollectionLocks (w : ControlIdentifier → Bool) : Locks :=
  fun k => if k = collectionKey then some w else none

theorem oneCollection_reported (w : ControlIdentifier → Bool) (rq : MarsRequest) :
    Reported (fun _ _ => True) (oneCollectionLocks w) rq
      [.element ⟨[(ascii "a", ascii "1")], w, collection_distinct⟩] := by
  constructor
  · intro e inside
    obtain rfl := Event.element.inj (List.mem_singleton.mp inside)
    exact ⟨trivial, if_pos rfl⟩
  · intro values whole k there _
    cases values with
    | nil => cases whole
    | cons e rest =>
      obtain ⟨same, -⟩ := List.cons.inj whole
      obtain rfl := Event.element.inj same
      refine ⟨_, List.mem_cons_self, ?_⟩
      by_contra other
      rw [oneCollectionLocks, if_neg (fun h => other h.symm)] at there
      cases there

theorem oneCollection_documented :
    Documented oneCollection (fun _ _ => True) oneCollectionLocks := by
  have wholly : ∀ (rq : MarsRequest) (action : ControlAction) (ids : Finset ControlIdentifier)
      (w : ControlIdentifier → Bool), Wholly (fun _ _ => True) (lockAssignment rq action ids)
        (oneCollectionLocks w) (oneCollectionLocks
          (fun id => if id ∈ ids then decide (some action = some .enable) else w id)) := by
    intro rq action ids w
    refine ⟨⟨fun k => ?_, fun k id => ?_⟩, fun k id covered there => ?_⟩
    · rw [oneCollectionLocks, oneCollectionLocks]
      split <;> rfl
    · simp only [Table.setting, oneCollectionLocks, lockAssignment, Assignment.Covers]
      by_cases own : k = collectionKey <;> by_cases inside : id ∈ ids <;> simp [own, inside]
    · have own : k = collectionKey := by
        by_contra other
        rw [oneCollectionLocks, if_neg other] at there
        cases there
      have inside : id ∈ ids := covered.2
      simp [Table.setting, oneCollectionLocks, lockAssignment, own, inside]
  constructor
  · rintro rq action ids w w' result ⟨⟩
    exact (wholly rq action ids w).toPartly
  · rintro rq action ids w w' values out
    obtain rfl := (Prod.mk.inj out).2
    exact wholly rq action ids w
  · rintro rq action ids w w' iter out
    obtain ⟨same, rfl⟩ := Prod.mk.inj out
    obtain rfl := Except.ok.inj same
    exact oneCollection_reported _ rq
  · rintro rq w w' result ⟨⟩
    refine ⟨rfl, ?_⟩
    rintro iter ⟨⟩
    exact oneCollection_reported w rq

/-- Listing is disabled; a dictionary that enables one thing and disables another is refused. -/
def samplePolicies : List (Request Nodes) :=
  [.setPolicy Query.new [([ascii "access", ascii "list"], some false)],
    .queryPolicy Query.new (ascii "access.list"),
    .setPolicy Query.new [([ascii "access", ascii "list"], some true),
      ([ascii "access", ascii "wipe"], some false)],
    .queryPolicy Query.new []]

def sampleStep : (ControlIdentifier → Bool) → Request Nodes → Answer × (ControlIdentifier → Bool) :=
  step nodeConfiguration oneCollection splitTokens []

theorem samplePolicies_named : ∀ request ∈ samplePolicies, request.Names nodeConfiguration := by
  intro request inside
  simp only [samplePolicies, List.mem_cons, List.not_mem_nil, or_false] at inside
  rcases inside with rfl | rfl | rfl | rfl
  · exact fun _ => by decide
  · trivial
  · exact fun _ => by decide
  · trivial

theorem policies_refine_table_sample : ∃ table,
    Runs (Allowed fun _ _ => True) (oneCollectionLocks fun _ => true)
        (asked nodeConfiguration (trace sampleStep (fun _ => true) samplePolicies)) table ∧
      oneCollectionLocks (after sampleStep (fun _ => true) samplePolicies) = table :=
  policies_refine_table nodeConfiguration_behaves (fun _ _ => rfl) oneCollection_documented
    (fun _ => true) samplePolicies_named

theorem last_policy_shown_sample :
    let calls := trace sampleStep (fun _ => true) samplePolicies
    (oneCollectionLocks (after sampleStep (fun _ => true) samplePolicies)).setting collectionKey
        .list = some false ∧
      ∀ call ∈ calls, Showing (fun _ _ => True) collectionKey .list false
        (call.1.meant nodeConfiguration) call.2 := by
  have maps : Maps nodeConfiguration [([ascii "access", ascii "list"], some false)]
      [(ascii "list", false)] := ⟨by decide, by decide, by decide⟩
  have run : trace sampleStep (fun _ => true) samplePolicies =
      [] ++ trace sampleStep (fun _ => true) samplePolicies := rfl
  refine last_policy_shown nodeConfiguration_behaves (fun _ _ => rfl)
    oneCollection_documented samplePolicies_named run rfl maps (by decide) rfl trivial
    (by decide) ?_
  refine List.forall_mem_cons.mpr ⟨id, List.forall_mem_cons.mpr ⟨?_,
    List.forall_mem_cons.mpr ⟨id, List.forall_mem_nil _⟩⟩⟩
  rintro ⟨lock, set, -⟩
  cases set

end Samples

end PolicyRuns
