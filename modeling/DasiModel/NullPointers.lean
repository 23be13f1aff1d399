import DasiModel.CApi

/-!
# Null pointers at the C boundary

An entry point that asserts all its required pointers before it does anything
else answers a null one with an error code and leaves the world alone. Three
entry points do not: two assert outside `try_catch`, one leaves an argument out.
-/

namespace NullPointers
open Texts Exceptions DasiKey CApi

variable {F P D W A : Type}

/-- The required pointers of a call that are null, each as a flag; the optional
outputs are left out. -/
def nulls : Call → List Bool
  | .version version => [version.isNone]
  | .vcsVersion sha1 => [sha1.isNone]
  | .initialiseApi => []
  | .open_ dasi config => [dasi.isNone, config.isNone]
  | .close dasi => [dasi.isNone]
  | .archive dasi key data _ => [dasi.isNone, key.isNone, data.isNone]
  | .flush dasi => [dasi.isNone]
  | .list dasi query list => [dasi.isNone, query.isNone, list.isNone]
  | .freeList list => [list.isNone]
  | .listCount list count => [list.isNone, count.isNone]
  | .listNext list => [list.isNone]
  | .listAttrs list _ _ _ _ _ => [list.isNone]
  | .retrieve dasi query retrieve => [dasi.isNone, query.isNone, retrieve.isNone]
  | .freeRetrieve retrieve => [retrieve.isNone]
  | .retrieveRead retrieve data length => [retrieve.isNone, data.isNone, length.isNone]
  | .retrieveCount retrieve count => [retrieve.isNone, count.isNone]
  | .retrieveNext retrieve => [retrieve.isNone]
  | .retrieveAttrs retrieve _ _ _ _ => [retrieve.isNone]
  | .wipe dasi query doit all wipe =>
    [dasi.isNone, query.isNone, doit.isNone, all.isNone, wipe.isNone]
  | .freeWipe wipe => [wipe.isNone]
  | .wipeNext wipe => [wipe.isNone]
  | .wipeGetValue wipe _ => [wipe.isNone]
  | .purge dasi query doit purge =>
    [dasi.isNone, query.isNone, doit.isNone, purge.isNone]
  | .freePurge purge => [purge.isNone]
  | .purgeNext purge => [purge.isNone]
  | .purgeGetValue purge _ => [purge.isNone]
  | .newKey key => [key.isNone]
  | .newKeyFromString key str => [key.isNone, str.isNone]
  | .freeKey key => [key.isNone]
  | .keyCompare key other result => [key.isNone, other.isNone, result.isNone]
  | .keySet key keyword value => [key.isNone, keyword.isNone, value.isNone]
  | .keyGetIndex key _ _ _ => [key.isNone]
  | .keyGet key keyword value => [key.isNone, keyword.isNone, value.isNone]
  | .keyHas key keyword has => [key.isNone, keyword.isNone, has.isNone]
  | .keyCount key count => [key.isNone, count.isNone]
  | .keyErase key keyword => [key.isNone, keyword.isNone]
  | .keyClear key => [key.isNone]
  | .newQuery query => [query.isNone]
  | .newQueryFromString query str => [query.isNone, str.isNone]
  | .freeQuery query => [query.isNone]
  -- the elements of the array that `num` lets the function look at count as well
  | .querySet query keyword values num =>
    [query.isNone, keyword.isNone, values.isNone] ++
      ((values.getD []).take num.toNat).map Option.isNone
  | .queryAppend query keyword value => [query.isNone, keyword.isNone, value.isNone]
  | .queryGet query keyword _ value => [query.isNone, keyword.isNone, value.isNone]
  | .queryHas query keyword has => [query.isNone, keyword.isNone, has.isNone]
  | .queryKeywordCount query count => [query.isNone, count.isNone]
  | .queryValueCount query keyword count => [query.isNone, keyword.isNone, count.isNone]
  | .queryErase query keyword => [query.isNone, keyword.isNone]
  | .queryClear query => [query.isNone]

/-- An error code is returned, and nothing has changed but the error string. -/
def FailsCleanly (out : Exit × World F D W) (w : World F D W) : Prop :=
  ∃ code text, out = (.returned code, { w with errorString := text }) ∧ code.isError = true

/-- The calls whose null pointers are all asserted inside `try_catch`. -/
def Asserted : Call → Prop
  | .version none => False
  | .vcsVersion none => False
  | .queryValueCount (some _) none (some _) => False
  | _ => True

section Asserting
variable {w : World F D W}

/-- A body that has raised an exception before changing anything. -/
def RaisesAtOnce (body : CBody F D W A) (w : World F D W) : Prop :=
  ∃ x, body.run w = (.error (.raised x), w)

theorem raisesAtOnce_bind {B : Type} {body : CBody F D W A} (raises : RaisesAtOnce body w)
    (next : A → CBody F D W B) : RaisesAtOnce (body >>= next) w := by
  obtain ⟨x, hx⟩ := raises
  exact ⟨x, by rw [run_bind, hx]⟩

theorem raisesAtOnce_of_run {B : Type} {body : CBody F D W A} {a : A}
    (passes : body.run w = (.ok a, w)) {next : A → CBody F D W B}
    (raises : RaisesAtOnce (next a) w) : RaisesAtOnce (body >>= next) w := by
  obtain ⟨x, hx⟩ := raises
  refine ⟨x, ?_⟩
  rw [run_bind, passes]
  exact hx

theorem assert_run (condition : Bool) (text : String) :
    (raising (assert condition text) : CBody F D W Unit).run w =
      if condition then (.ok (), w) else (.error (.raised (.assertionFailed (ascii text))), w) := by
  cases condition
  · rfl
  · rfl

/-- One condition that does not hold is enough. -/
theorem asserts_raise {conditions : List (Bool × String)} (broken : ∃ c ∈ conditions, c.1 = false) :
    RaisesAtOnce (asserts conditions : CBody F D W Unit) w := by
  induction conditions with
  | nil =>
    obtain ⟨c, hc, -⟩ := broken
    cases hc
  | cons head rest ih =>
    obtain ⟨condition, text⟩ := head
    cases condition with
    | false => exact raisesAtOnce_bind ⟨_, assert_run false text⟩ _
    | true =>
      apply raisesAtOnce_of_run (assert_run true text)
      apply ih
      obtain ⟨c, hc, hbroken⟩ := broken
      rcases List.mem_cons.mp hc with rfl | hc
      · cases hbroken
      · exact ⟨c, hc, hbroken⟩

theorem asserts_pass {conditions : List (Bool × String)} (hold : ∀ c ∈ conditions, c.1 = true) :
    (asserts conditions : CBody F D W Unit).run w = (.ok (), w) := by
  induction conditions with
  | nil => rfl
  | cons head rest ih =>
    obtain ⟨condition, text⟩ := head
    have here : condition = true := hold _ List.mem_cons_self
    subst here
    rw [asserts, run_bind, assert_run, if_pos rfl]
    exact ih fun c hc => hold c (List.mem_cons_of_mem _ hc)

/-- The loop of `dasi_query_set` stops at the first null element. -/
theorem collectValues_raises {values : List CStr} {num : Nat} (null : none ∈ values.take num) :
    RaisesAtOnce (collectValues values num : CBody F D W (List Bytes)) w := by
  induction values generalizing num with
  | nil =>
    rw [List.take_nil] at null
    cases null
  | cons head rest ih =>
    cases num with
    | zero => cases null
    | succ num =>
      rw [collectValues]
      cases head with
      | none => exact raisesAtOnce_bind (asserts_raise ⟨_, List.mem_cons_self, rfl⟩) _
      | some text =>
        have later : none ∈ rest.take num := by
          rcases List.mem_cons.mp null with here | later
          · cases here
          · exact later
        apply raisesAtOnce_of_run (asserts_pass (by simp))
        apply raisesAtOnce_of_run (a := cString text) rfl
        exact raisesAtOnce_bind (ih later) _

theorem body_failsCleanly {body : CBody F D W Code} (raises : RaisesAtOnce body w) :
    FailsCleanly (tryCatchBody body w) w := by
  obtain ⟨x, hx⟩ := raises
  exact ⟨x.code, x.what, by rw [tryCatchBody, hx], x.code_isError⟩

theorem void_failsCleanly {body : CBody F D W Unit} (raises : RaisesAtOnce body w) :
    FailsCleanly (tryCatchVoid body w) w :=
  body_failsCleanly (raisesAtOnce_bind raises _)

/-- A function that starts with its `ASSERT`s fails cleanly if one of them does. -/
theorem asserting_body {conditions : List (Bool × String)} (broken : ∃ c ∈ conditions, c.1 = false)
    (rest : Unit → CBody F D W Code) :
    FailsCleanly (tryCatchBody (asserts conditions >>= rest) w) w :=
  body_failsCleanly (raisesAtOnce_bind (asserts_raise broken) rest)

theorem asserting_void {conditions : List (Bool × String)} (broken : ∃ c ∈ conditions, c.1 = false)
    (rest : Unit → CBody F D W Unit) :
    FailsCleanly (tryCatchVoid (asserts conditions >>= rest) w) w :=
  void_failsCleanly (raisesAtOnce_bind (asserts_raise broken) rest)

end Asserting

/-- An array with a null element is refused even when all the other arguments are there. -/
theorem querySet_failsCleanly {query : Ptr} {keyword : CStr} {values : Option (List CStr)}
    {num : Int} {w : World F D W}
    (null : true ∈ nulls (.querySet query keyword values num)) :
    FailsCleanly (dasiQuerySet query keyword values num w) w := by
  by_cases broken : ∃ c ∈ [(query.isSome, "query"), (keyword.isSome, "keyword"),
      (values.isSome, "values"), (decide (0 ≤ num), "num >= 0")], c.1 = false
  · exact asserting_void broken _
  · have hold : ∀ c ∈ [(query.isSome, "query"), (keyword.isSome, "keyword"),
        (values.isSome, "values"), (decide (0 ≤ num), "num >= 0")], c.1 = true := by
      intro c hc
      by_contra hbroken
      exact broken ⟨c, hc, by simpa using hbroken⟩
    have element : none ∈ (values.getD []).take num.toNat := by
      simp only [List.forall_mem_cons, Option.isSome_iff_ne_none] at hold
      have inside : true ∈ ((values.getD []).take num.toNat).map Option.isNone := by
        simpa [nulls, hold.1, hold.2.1, hold.2.2.1, -List.map_take] using null
      obtain ⟨value, hvalue, hnone⟩ := List.mem_map.mp inside
      rwa [Option.isNone_iff_eq_none.mp hnone] at hvalue
    apply void_failsCleanly
    apply raisesAtOnce_of_run (asserts_pass hold)
    exact raisesAtOnce_bind (collectValues_raises element) _

/-- Without the three exceptions a null pointer is refused before anything happens. -/
theorem asserted_failsCleanly (env : Environment F P D W) {c : Call} {w : World F D W}
    (null : true ∈ nulls c) (asserted : Asserted c) : FailsCleanly (runCall env c w) w := by
  cases c with
  | version version =>
    cases version with
    | none => exact False.elim asserted
    | some p => simp [nulls] at null
  | vcsVersion sha1 =>
    cases sha1 with
    | none => exact False.elim asserted
    | some p => simp [nulls] at null
  | initialiseApi => cases null
  | querySet query keyword values num => exact querySet_failsCleanly null
  | queryValueCount query keyword count =>
    have asserts_broken : query = none ∨ count = none := by
      rcases query with _ | query
      · exact Or.inl rfl
      · rcases count with _ | count
        · exact Or.inr rfl
        · rcases keyword with _ | keyword
          · exact False.elim asserted
          · simp [nulls] at null
    exact asserting_void (by simpa using asserts_broken) _
  -- these two also assert an index
  | keyGetIndex key n keyword value =>
    exact asserting_void (by simpa [nulls] using Or.inl (b := n < 0) null) _
  | queryGet query keyword num value =>
    exact asserting_void (by simpa [nulls, or_assoc] using Or.inl (b := num < 0) null) _
  | retrieveRead => exact asserting_body (by simpa [nulls] using null) _
  | wipeNext => exact asserting_body (by simpa [nulls] using null) _
  | purgeNext => exact asserting_body (by simpa [nulls] using null) _
  | listNext => exact asserting_body (by simpa [nulls] using null) _
  | retrieveNext => exact asserting_body (by simpa [nulls] using null) _
  | _ => exact asserting_void (by simpa [nulls] using null) _

theorem uncaught_escapes {body : CBody F D W Unit} {w : World F D W} (raises : RaisesAtOnce body w) :
    ¬ FailsCleanly (uncaught body w) w := by
  obtain ⟨x, hx⟩ := raises
  rintro ⟨code, text, out, -⟩
  rw [uncaught, hx] at out
  cases out

theorem dasiVersion_escapes (env : Environment F P D W) (w : World F D W) :
    ¬ FailsCleanly (dasiVersion env none w) w :=
  uncaught_escapes (raisesAtOnce_bind (asserts_raise ⟨_, List.mem_cons_self, rfl⟩) _)

theorem dasiVcsVersion_escapes (env : Environment F P D W) (w : World F D W) :
    ¬ FailsCleanly (dasiVcsVersion env none w) w :=
  uncaught_escapes (raisesAtOnce_bind (asserts_raise ⟨_, List.mem_cons_self, rfl⟩) _)

/-- With a null keyword the count of values reads through it, or through a query
that is gone. -/
theorem dasiQueryValueCount_undefined (query count : Address) (w : World F D W) :
    ¬ FailsCleanly (dasiQueryValueCount (some query) none (some count) w) w := by
  have undefined : (dasiQueryValueCount (some query) none (some count) w).1 = .undefined := by
    rw [dasiQueryValueCount, tryCatchVoid, tryCatchBody, run_bind, run_bind,
      asserts_pass (by simp)]
    simp only [run_bind, deref_run]
    rcases (some query).bind (Stored.objects w : Address → Option Query) with _ | q
    · rfl
    · rfl
  rintro ⟨code, text, out, -⟩
  rw [out] at undefined
  cases undefined

/-- A null pointer is refused cleanly by exactly the calls that assert it. -/
theorem null_failsCleanly_iff (env : Environment F P D W) (c : Call) (w : World F D W)
    (null : true ∈ nulls c) : FailsCleanly (runCall env c w) w ↔ Asserted c := by
  constructor
  · intro clean
    cases c with
    | version version =>
      cases version with
      | none => exact dasiVersion_escapes env w clean
      | some p => trivial
    | vcsVersion sha1 =>
      cases sha1 with
      | none => exact dasiVcsVersion_escapes env w clean
      | some p => trivial
    | queryValueCount query keyword count =>
      rcases query with _ | query
      · trivial
      · rcases keyword with _ | keyword
        · rcases count with _ | count
          · trivial
          · exact dasiQueryValueCount_undefined query count w clean
        · trivial
    | _ => trivial
  · exact asserted_failsCleanly env null

/-- Libraries that do nothing, and a world with one query at address 0. -/
def idle : Environment Unit Unit Unit Unit where
  fdb := {
    open_ := fun _ w => (.ok (), w)
    archive := fun _ _ w => (.ok (), w)
    wipe := fun _ _ _ _ _ w => (.ok [], w)
    purge := fun _ _ _ _ w => (.ok [], w)
    list := fun _ _ _ w => (.ok [], w)
    inspect := fun _ _ w => (.ok [], w)
    flush := fun _ w => (.ok (), w) }
  eckit := {
    locationDataHandle := fun _ w => (.ok (), w)
    gather := fun _ _ w => (.ok (), w)
    openForRead := fun _ w => (.ok (), (), w)
    read := fun _ _ w => (.ok [], (), w) }
  initialise := fun w => (.ok (), w)
  destroySession := fun _ w => w
  destroyHandle := fun _ _ w => w
  split := splitTokens
  version := ascii "0.3.3"
  gitSha1 := []

def oneQuery : World Unit Unit Unit where
  dasis := fun _ => none
  keys := fun _ => none
  queries := fun p => if p = 0 then some Query.new else none
  lists := fun _ => none
  retrieves := fun _ => none
  wipes := fun _ => none
  purges := fun _ => none
  handles := fun _ => none
  texts := fun _ => none
  numbers := fun _ => 0
  buffers := fun _ => []
  fresh := 1
  initialised := true
  errorString := []
  outside := ()

theorem null_failsCleanly_iff_sample :
    true ∈ nulls (.querySet (some 0) (some (ascii "k")) (some [some (ascii "v"), none]) 2) ∧
    (FailsCleanly (runCall idle
        (.querySet (some 0) (some (ascii "k")) (some [some (ascii "v"), none]) 2) oneQuery)
        oneQuery ↔
      Asserted (.querySet (some 0) (some (ascii "k")) (some [some (ascii "v"), none]) 2)) := by
  have null : true ∈
      nulls (.querySet (some 0) (some (ascii "k")) (some [some (ascii "v"), none]) 2) := by decide
  exact ⟨null, null_failsCleanly_iff idle _ oneQuery null⟩

/-- An exception leaves `dasi_version(NULL)`, and the count of the values of a null
keyword is undefined. -/
theorem null_not_refused :
    true ∈ nulls (.version none) ∧
    ¬ FailsCleanly (runCall idle (.version none) oneQuery) oneQuery ∧
    true ∈ nulls (.queryValueCount (some 0) none (some 0)) ∧
    ¬ FailsCleanly (runCall idle (.queryValueCount (some 0) none (some 0)) oneQuery)
      oneQuery := by
  refine ⟨by decide, ?_, by decide, ?_⟩
  · rintro ⟨code, text, out, -⟩
    cases out
  · rintro ⟨code, text, out, -⟩
    cases out

end NullPointers
