import DasiModel.FrontEnds

/-!
# The answers to queries

`dasi-list` and `dasi-wipe` put any number of queries to FDB and print what it answers. A
Python program that loops over the same results is shown the same.
-/

namespace ToolQueries
open Texts Exceptions DasiKey Generators CHandles Session Cursors Loops RangeLoops HandleMaps
open PythonKey PythonIterators PythonItems ArchiveStore Tools FrontEnds

variable {F P D W : Type}

section Answers
variable {E T : Type}

/-- A loop that prints and counts, by its outcome. -/
theorem printAll_run {G : Type} [APIGeneratorImpl G T] (line : T → Line) (fuel : Nat)
    (generator : G) (s : Tools.State F W) :
    (printAll line fuel generator : Tool F W (BitVec 32)).run s =
      match forEach (fun (b : List Line × BitVec 32) t =>
          ((none : Option Empty), (b.1 ++ [line t], b.2 + 1))) fuel generator (s.printed, 0) with
      | some (.failed x, b, _) => (.error x, { s with printed := b.1 })
      | some (_, b, _) => (.ok b.2, { s with printed := b.1 })
      | none => (.ok 0, s) := by
  have getting : (MonadState.get : Tool F W (Tools.State F W)).run s = (.ok s, s) := rfl
  rw [printAll, tool_bind, getting]
  dsimp only
  rcases forEach _ fuel generator (s.printed, 0) with _ | ⟨_ | y | x, b, left⟩
  · rfl
  · rfl
  · rfl
  · rfl

theorem printed_foldl (line : T → Line) (f : E → T) (es : List E) (b : List Line × BitVec 32) :
    es.foldl (fun b e => (b.1 ++ [line (f e)], b.2 + 1)) b =
      (b.1 ++ es.map fun e => line (f e), b.2 + BitVec.ofNat 32 es.length) := by
  induction es generalizing b with
  | nil => rw [List.map_nil, List.append_nil, List.length_nil, BitVec.add_zero, List.foldl_nil]
  | cons e rest ih =>
    have counted : (1 : BitVec 32) + BitVec.ofNat 32 rest.length =
        BitVec.ofNat 32 (rest.length + 1) := by
      rw [BitVec.ofNat_add, BitVec.add_comm]
      rfl
    rw [List.foldl_cons, ih, List.append_assoc, List.map_cons, List.length_cons,
      List.singleton_append, BitVec.add_assoc, counted]

variable [Assigns E T] [Inhabited T] {f : E → T}

/-- A generator comes into being and is gone through: what comes before a failure is printed. -/
theorem generator_printed (fresh : ∀ e t, Assigns.assign e t = f e) (line : T → Line)
    (iter : FdbIterator E) :
    (∃ x, LazyGenerator.create (T := T) iter = .error x ∧ upToFailure iter = ([], .error x)) ∨
    ∃ g, LazyGenerator.create (T := T) iter = .ok g ∧ ∀ s : Tools.State F W,
      (printAll line (iter.length + 1) g : Tool F W (BitVec 32)).run s =
        ((upToFailure iter).2.map fun _ => BitVec.ofNat 32 (upToFailure iter).1.length,
          { s with printed := s.printed ++ (upToFailure iter).1.map fun e => line (f e) }) := by
  by_cases broken : Broken iter
  · -- the constructor fetches the first element
    obtain ⟨x, rest, rfl⟩ := broken
    exact .inl ⟨x, rfl, rfl⟩
  · obtain ⟨g, created, held⟩ := create_inHand fresh broken
    refine .inr ⟨g, created, fun s => ?_⟩
    obtain ⟨left, loop, -⟩ := (lazy_generates fresh).visits (Y := Empty)
      (fun (b : List Line × BitVec 32) t => (none, (b.1 ++ [line t], b.2 + 1))) held
      (Nat.lt_succ_self _) (s.printed, 0)
    obtain ⟨rest, visits⟩ := visit_noting (Y := Empty)
      (fun (b : List Line × BitVec 32) e => (b.1 ++ [line (f e)], b.2 + 1)) iter (s.printed, 0)
    have counted : (0 : BitVec 32) + BitVec.ofNat 32 (upToFailure iter).1.length =
        BitVec.ofNat 32 (upToFailure iter).1.length := BitVec.zero_add _
    simp only [visits, printed_foldl, counted] at loop
    rw [printAll_run, forEach, loop]
    cases (upToFailure iter).2 with
    | ok => rfl
    | error x => rfl

omit [Assigns E T] [Inhabited T] in
/-- A generator has fetched at most one element ahead. -/
theorem inHand_room {iter : FdbIterator E} {g : LazyGenerator E T} (held : InHand f iter g) :
    iter.length < g.iter.length + 2 := by
  cases iter with
  | nil => exact Nat.succ_pos _
  | cons event rest =>
    cases event with
    | failure x => exact held.elim
    | element e =>
      rw [held.2.2]
      exact Nat.lt_succ_self _

end Answers

section Queries
variable {E : Type}

/-- What FDB answers to a query, as far as it does. -/
abbrev Answered (E : Type) := Query × List E × Except Exception Unit

/-- Queries are parsed and put to FDB in turn, up to the first that fails; `judge` says which
answers count as failures. -/
def askAll (split : Bytes → Bytes → List Bytes)
    (ask : MarsRequest → W → Except Exception (FdbIterator E) × W)
    (judge : Answered E → Except Exception Unit) :
    List Bytes → W → List (Answered E) × Except Exception Unit × W
  | [], w => ([], .ok (), w)
  | arg :: rest, w =>
    match Query.ofString split arg with
    | .error x => ([], .error x, w)
    | .ok q =>
      match ask (queryToMarsRequest q) w with
      | (.error x, w) => ([], .error x, w)
      | (.ok iter, w) =>
        match judge (q, upToFailure iter) with
        | .error x => ([(q, upToFailure iter)], .error x, w)
        | .ok () =>
          let (answers, result) := askAll split ask judge rest w
          ((q, upToFailure iter) :: answers, result)

/-- Only a failure of its stream makes an answer one. -/
def streamJudge (answer : Answered E) : Except Exception Unit := answer.2.2

/-- A session is opened, and the queries are asked in it. -/
def openAndAsk (env : Tools.Environment F P D W)
    (ask : F → MarsRequest → W → Except Exception (FdbIterator E) × W)
    (judge : Answered E → Except Exception Unit) (args : List Bytes) (w : W) :
    List (Answered E) × Except Exception Unit × W :=
  match env.fdb.open_ env.configPath w with
  | (.error x, w) => ([], .error x, w)
  | (.ok session, w) => askAll env.split (ask session) judge args w

variable (env : Tools.Environment F P D W)

/-- One round of the loops of `dasi-list` and `dasi-wipe`. -/
def askOne (ask : F → MarsRequest → W → Except Exception (FdbIterator E) × W)
    (print : Query → FdbIterator E → Tool F W Unit) (arg : Bytes) : Tool F W Unit := do
  let q ← MonadExcept.ofExcept (Query.ofString env.split arg)
  let session ← dasi env
  let iter ← Tools.outside (ask session (queryToMarsRequest q))
  print q iter

/-- An answer that fits is judged, and leaves lines in the log. -/
def Prints (print : Query → FdbIterator E → Tool F W Unit) (fits : Answered E → Prop)
    (judge : Answered E → Except Exception Unit) (lines : Answered E → List Line) : Prop :=
  ∀ q iter s, fits (q, upToFailure iter) → (print q iter).run s = (judge (q, upToFailure iter),
    { s with printed := s.printed ++ lines (q, upToFailure iter) })

variable (ask : F → MarsRequest → W → Except Exception (FdbIterator E) × W)
  {print : Query → FdbIterator E → Tool F W Unit} {fits : Answered E → Prop}
  {judge : Answered E → Except Exception Unit} {lines : Answered E → List Line}

/-- The loop, once the session is open. -/
theorem askAll_run (prints : Prints print fits judge lines) (session : F) (args : List Bytes)
    (printed : List Line) (w : W) :
    let asked := askAll env.split (ask session) judge args w
    (∀ answer ∈ asked.1, fits answer) →
      (args.forM (askOne env ask print)).run ⟨some session, printed, w⟩ =
        (asked.2.1, ⟨some session, printed ++ asked.1.flatMap lines, asked.2.2⟩) := by
  induction args generalizing printed w with
  | nil =>
    intro asked fit
    simp only [asked, askAll, List.flatMap_nil, List.append_nil]
    rfl
  | cons arg rest ih =>
    rw [List.forM_eq_forM] at ih
    simp only [List.forM_eq_forM, List.forM_cons, tool_bind, askOne, tool_ofExcept, askAll]
    cases Query.ofString env.split arg with
    | error x =>
      intro fit
      simp only [List.flatMap_nil, List.append_nil]
    | ok q =>
      simp only [dasi_open, tool_outside]
      rcases ask session (queryToMarsRequest q) w with ⟨x | iter, w⟩
      · intro fit
        simp only [List.flatMap_nil, List.append_nil]
      · dsimp only
        cases judged : judge (q, upToFailure iter) with
        | error x =>
          intro fit
          rw [prints q iter _ (fit _ (List.mem_singleton_self _)), judged]
          simp only [List.flatMap_singleton]
        | ok =>
          intro fit
          rw [prints q iter _ (fit _ List.mem_cons_self), judged]
          have later := ih (printed ++ lines (q, upToFailure iter)) w
            fun answer mem => fit answer (List.mem_cons_of_mem _ mem)
          simp only [later, List.flatMap_cons, List.append_assoc]

/-- The tool as a whole, if its first query is one. -/
theorem openAndAsk_run (prints : Prints print fits judge lines) {first : Bytes} {q : Query}
    (parsed : Query.ofString env.split first = .ok q) (rest : List Bytes) (w : W) :
    let asked := openAndAsk env ask judge (first :: rest) w
    (∀ answer ∈ asked.1, fits answer) →
      ∃ s, ((first :: rest).forM (askOne env ask print)).run ⟨none, [], w⟩ = (asked.2.1, s) ∧
        s.printed = asked.1.flatMap lines ∧ s.outside = asked.2.2 := by
  have run := fun session w => askAll_run env ask prints session (first :: rest) [] w
  simp only [List.forM_eq_forM, List.forM_cons, tool_bind, askOne, tool_ofExcept, parsed,
    dasi_open, dasi_first, openAndAsk] at run ⊢
  rcases env.fdb.open_ env.configPath w with ⟨x | session, w⟩
  · intro fit
    exact ⟨_, rfl, rfl, rfl⟩
  · intro fit
    exact ⟨_, run session w fit, rfl, rfl⟩

/-- Judges that agree on what is answered make no difference. -/
theorem askAll_congr {split : Bytes → Bytes → List Bytes}
    {ask : MarsRequest → W → Except Exception (FdbIterator E) × W}
    {judge judge' : Answered E → Except Exception Unit} {args : List Bytes} {w : W} :
    (∀ answer ∈ (askAll split ask judge args w).1, judge answer = judge' answer) →
      askAll split ask judge args w = askAll split ask judge' args w := by
  induction args generalizing w with
  | nil =>
    intro agree
    rfl
  | cons arg rest ih =>
    simp only [askAll]
    cases Query.ofString split arg with
    | error x =>
      intro agree
      rfl
    | ok q =>
      dsimp only
      rcases ask (queryToMarsRequest q) w with ⟨x | iter, w⟩
      · intro agree
        rfl
      · dsimp only
        cases judged : judge (q, upToFailure iter) with
        | error x =>
          intro agree
          rw [← agree _ (List.mem_singleton_self _), judged]
        | ok =>
          intro agree
          rw [← agree _ List.mem_cons_self, judged]
          have later := ih fun answer mem => agree answer (List.mem_cons_of_mem _ mem)
          rw [later]

theorem openAndAsk_congr {judge judge' : Answered E → Except Exception Unit}
    {args : List Bytes} {w : W}
    (agree : ∀ answer ∈ (openAndAsk env ask judge args w).1, judge answer = judge' answer) :
    openAndAsk env ask judge args w = openAndAsk env ask judge' args w := by
  rw [openAndAsk] at agree
  rw [openAndAsk, openAndAsk]
  revert agree
  rcases env.fdb.open_ env.configPath w with ⟨x | session, w⟩
  · intro agree
    rfl
  · exact askAll_congr

end Queries

section PythonQueries
variable {E H M R : Type}

/-- A query of the command line, as Python has it. -/
structure QueryText where
  text : PyStr
  bytes : CText
  encoded : encode (.text text) = .ok bytes.1

/-- `for text in texts: for item in begin_(Query(text)): seen.append(item)`; `goThrough` is the
inner loop. -/
def pythonQueries (split : Bytes → Bytes → List Bytes)
    (begin_ : Query → W → Except PyException H × W)
    (goThrough : H → M → List R → Except PyException Unit × List R × M) :
    List PyStr → List R → M → W → Except PyException Unit × List R × W
  | [], seen, _, w => (.ok (), seen, w)
  | text :: rest, seen, m, w =>
    match (QueryGiven.arg (.text text)).init split with
    | .error x => (.error x, seen, w)
    | .ok q =>
      match begin_ q w with
      | (.error x, w) => (.error x, seen, w)
      | (.ok result, w) =>
        match goThrough result m seen with
        | (.error x, seen, _) => (.error x, seen, w)
        | (.ok (), seen, m) => pythonQueries split begin_ goThrough rest seen m w

/-- The loops on `Dasi(config)`. -/
def pythonSession {A : Type} (fdb : Fdb F W) (config : PyStr)
    (run : F → W → Except PyException Unit × List A × W) (w : W) :
    Except PyException Unit × List A × W :=
  match encode (.text config) with
  | .error x => (.error x, [], w)
  | .ok str =>
    let (result, w) := fdb.open_ (cString str) w
    match checkError "dasi_open" result with
    | .error x => (.error x, [], w)
    | .ok session => run session w

/-- A result and the loop over it show what comes before a failure. -/
structure Shows (ask : MarsRequest → W → Except Exception (FdbIterator E) × W) (view : E → R)
    (begin_ : Query → W → Except PyException H × W)
    (goThrough : H → M → List R → Except PyException Unit × List R × M) : Prop where
  refused : ∀ {q w w' x}, ask (queryToMarsRequest q) w = (.error x, w') →
    ∃ function, begin_ q w = (checkError function (.error x), w')
  answered : ∀ {q w w' iter}, ask (queryToMarsRequest q) w = (.ok iter, w') →
    (∃ x function, upToFailure iter = ([], .error x) ∧
      begin_ q w = (checkError function (.error x), w')) ∨
    ∃ result, begin_ q w = (.ok result, w') ∧ ∀ m seen, ∃ function m',
      goThrough result m seen = (checkError function (upToFailure iter).2,
        seen ++ (upToFailure iter).1.map view, m')

variable (split : Bytes → Bytes → List Bytes)
  {ask : MarsRequest → W → Except Exception (FdbIterator E) × W} {view : E → R}
  {begin_ : Query → W → Except PyException H × W}
  {goThrough : H → M → List R → Except PyException Unit × List R × M}

/-- All the loops, one query after the other. -/
theorem pythonQueries_run (shows : Shows ask view begin_ goThrough) (queries : List QueryText)
    (seen : List R) (m : M) (w : W) :
    let asked := askAll split ask streamJudge (queries.map fun query => query.bytes.1) w
    ∃ function, pythonQueries split begin_ goThrough (queries.map QueryText.text) seen m w =
      (checkError function asked.2.1,
        seen ++ asked.1.flatMap (fun answer => answer.2.1.map view), asked.2.2) := by
  induction queries generalizing seen m w with
  | nil =>
    refine ⟨"dasi_new_query", ?_⟩
    simp only [List.map_nil, askAll, List.flatMap_nil, List.append_nil]
    rfl
  | cons query rest ih =>
    have parses : (QueryGiven.arg (.text query.text)).init split =
        checkError "dasi_new_query_from_string" (Query.ofString split query.bytes.1) := by
      simp only [QueryGiven.init, PythonQuery.init, PythonQuery.newQuery, query.encoded, bind,
        Except.bind, cString_text]
    simp only [List.map_cons, askAll, pythonQueries, parses]
    cases Query.ofString split query.bytes.1 with
    | error x =>
      refine ⟨"dasi_new_query_from_string", ?_⟩
      simp only [List.flatMap_nil, List.append_nil]
      rfl
    | ok q =>
      cases called : ask (queryToMarsRequest q) w with
      | mk answer w' =>
        cases answer with
        | error x =>
          obtain ⟨function, begins⟩ := shows.refused called
          refine ⟨function, ?_⟩
          simp only [called, checkError, begins, List.flatMap_nil, List.append_nil]
        | ok iter =>
          rcases shows.answered called with
            ⟨x, function, fails, begins⟩ | ⟨result, begins, loops⟩
          · refine ⟨function, ?_⟩
            simp only [called, checkError, begins, streamJudge, fails, List.flatMap_singleton,
              List.map_nil, List.append_nil]
          · obtain ⟨function, m', loop⟩ := loops m seen
            simp only [called, checkError, begins, loop, streamJudge]
            cases (upToFailure iter).2 with
            | error x =>
              refine ⟨function, ?_⟩
              simp only [List.flatMap_singleton]
            | ok =>
              obtain ⟨function', later⟩ := ih (seen ++ (upToFailure iter).1.map view) m' w'
              refine ⟨function', ?_⟩
              simp only [List.flatMap_cons, ← List.append_assoc]
              exact later

end PythonQueries

section Listing
variable {env : Tools.Environment F P D W}

/-- What `dasi-list` does with the answer to a query. -/
def printListing (location : Bool) (_ : Query) (iter : FdbIterator FdbListElement) :
    Tool F W Unit := do
  let generator : ListGeneratorImpl ← MonadExcept.ofExcept (LazyGenerator.create iter)
  let _ ← printAll (fun elem => .element elem location) (iter.length + 1) generator

def listLines (location : Bool) (answer : Answered FdbListElement) : List Line :=
  answer.2.1.map fun e => .element (convert e) location

theorem list_prints (location : Bool) :
    Prints (F := F) (W := W) (printListing location) (fun _ => True) streamJudge
      (listLines location) := by
  intro q iter s fits
  rcases generator_printed (F := F) (W := W) (f := convert) (fun _ _ => rfl)
      (fun elem => Line.element elem location) iter with
    ⟨x, created, fails⟩ | ⟨g, created, prints⟩
  · simp only [printListing, tool_bind, tool_ofExcept, created, streamJudge, listLines, fails,
      List.map_nil, List.append_nil]
  · simp only [printListing, tool_bind, tool_ofExcept, created, prints, streamJudge, listLines]
    cases (upToFailure iter).2 with
    | ok => rfl
    | error x => rfl

/-- `for item in list: seen.append(item)`. -/
def throughListing (cdata : DasiList) (m : Memory) (seen : List (Option ListRecord)) :
    Except PyException Unit × List (Option ListRecord) × Memory :=
  match forItem (fun seen item => ((none : Option Empty), seen ++ [item]))
      (cdata.generator.iter.length + 2) ⟨cdata, m⟩ seen with
  | some (.failed x, seen, left) => (.error x, seen, left.memory)
  | some (_, seen, left) => (.ok (), seen, left.memory)
  | none => (.ok (), seen, m)

theorem list_shows (split : Bytes → Bytes → List Bytes) (fdb : Fdb F W) (session : F) :
    Shows (fun rq => fdb.list session rq true) (fun e => some (listed e))
      (fun q => ArchiveStore.list split fdb (fun _ : Unit => session) () (.query q))
      throughListing where
  refused := by
    intro q w w' x called
    refine ⟨"dasi_list", ?_⟩
    simp only [ArchiveStore.list, QueryGiven.init, called]
    rfl
  answered := by
    intro q w w' iter called
    by_cases broken : Broken iter
    · obtain ⟨x, rest, rfl⟩ := broken
      refine .inl ⟨x, "dasi_list", rfl, ?_⟩
      simp only [ArchiveStore.list, QueryGiven.init, called]
      rfl
    · obtain ⟨g, created, held⟩ :=
        create_inHand (T := ListElement) (f := convert) (fun _ _ => rfl) broken
      have made : newDasiList iter = .ok ⟨⟨true, g⟩, []⟩ := by
        rw [newDasiList, created]
        rfl
      refine .inr ⟨⟨⟨true, g⟩, []⟩, ?_, fun m seen => ⟨"dasi_list_next", ?_⟩⟩
      · simp only [ArchiveStore.list, QueryGiven.init, called, Except.bind, made]
        rfl
      · obtain ⟨left, loop⟩ := pyList_pulls.collects (Y := Empty) (s := ⟨⟨⟨true, g⟩, []⟩, m⟩)
          held (inHand_room held) seen
        refine ⟨left.memory, ?_⟩
        rw [throughListing, forItem, loop]
        cases (upToFailure iter).2 with
        | ok => rfl
        | error x => rfl

end Listing

section Wiping

/-- What `dasi-wipe` does with the answer to a query; `stops` is `--doit` with `--throw`. -/
def printWipe (shown : Query → Bytes) (stops : Bool) (q : Query)
    (iter : FdbIterator FdbWipeElement) : Tool F W Unit := do
  let generator : WipeGeneratorImpl ← MonadExcept.ofExcept (LazyGenerator.create iter)
  let count ← printAll Line.entry (iter.length + 1) generator
  if count = 0 then
    if stops then throw (noData shown q)
    modify fun s => { s with printed := s.printed ++ [.noData q] }

/-- An answer without entries can be a failure. -/
def wipeJudge (shown : Query → Bytes) (stops : Bool) :
    Answered FdbWipeElement → Except Exception Unit
  | (q, [], .ok ()) => if stops then .error (noData shown q) else .ok ()
  | (_, _, result) => result

/-- The entries, or that there are none. -/
def wipeLines (stops : Bool) : Answered FdbWipeElement → List Line
  | (q, [], .ok ()) => if stops then [] else [.noData q]
  | (_, entries, _) => entries.map fun e => .entry e.msg

/-- An `int` counts the entries. -/
def Countable (answer : Answered FdbWipeElement) : Prop := answer.2.1.length < 2 ^ 31

instance (answer : Answered FdbWipeElement) : Decidable (Countable answer) :=
  Nat.decLt answer.2.1.length (2 ^ 31)

theorem count_zero_iff {n : Nat} (countable : n < 2 ^ 31) : BitVec.ofNat 32 n = 0 ↔ n = 0 := by
  constructor
  · intro h
    have same := congrArg BitVec.toNat h
    rw [BitVec.toNat_ofNat, Nat.mod_eq_of_lt (by omega)] at same
    exact same
  · rintro rfl
    rfl

theorem wipe_prints (shown : Query → Bytes) (stops : Bool) :
    Prints (F := F) (W := W) (printWipe shown stops) Countable (wipeJudge shown stops)
      (wipeLines stops) := by
  intro q iter s countable
  rcases generator_printed (F := F) (W := W) (f := FdbWipeElement.msg) (fun _ _ => rfl)
      Line.entry iter with
    ⟨x, created, fails⟩ | ⟨g, created, prints⟩
  · simp only [printWipe, tool_bind, tool_ofExcept, created, fails, wipeJudge, wipeLines,
      List.map_nil, List.append_nil]
  · have zero := count_zero_iff countable
    simp only [printWipe, tool_bind, tool_ofExcept, created, prints]
    revert zero
    rcases upToFailure iter with ⟨_ | ⟨e, rest⟩, x | ⟨⟨⟩⟩⟩
    · intro zero
      simp only [wipeJudge, wipeLines, List.map_nil, List.append_nil]
      rfl
    · intro zero
      cases stops with
      | false =>
        simp only [wipeJudge, wipeLines, List.map_nil, List.append_nil]
        rfl
      | true =>
        simp only [wipeJudge, wipeLines, if_true, List.map_nil, List.append_nil]
        rfl
    · intro zero
      rfl
    · intro zero
      have counted : BitVec.ofNat 32 (e :: rest).length ≠ 0 := fun h => by
        cases zero.mp h
      simp only [Except.map, if_neg counted]
      rfl

/-- One round of `for item in wipe`, with `item.value`. -/
def pullValue (wipe : PyWipe) : Except PyException (Option PyStr) × PyWipe :=
  match wipe.next with
  | (.error .stopIteration, wipe) => (.ok none, wipe)
  | (.error x, wipe) => (.error x, wipe)
  | (.ok (), wipe) => (.ok (some (wipe.view ())), wipe)

/-- `for item in wipe: seen.append(item.value)`. -/
def throughWipe (wipe : PyWipe) (_ : Unit) (seen : List PyStr) :
    Except PyException Unit × List PyStr × Unit :=
  match pullLoop pullValue (fun seen value => ((none : Option Empty), seen ++ [value]))
      (wipe.cdata.generator.iter.length + 2) wipe seen with
  | some (.failed x, seen, _) => (.error x, seen, ())
  | some (_, seen, _) => (.ok (), seen, ())
  | none => (.ok (), seen, ())

/-- `Dasi.wipe` -/
def pythonWipe (fdb : Fdb F W) (session : F) (doit all : Bool) (q : Query) (w : W) :
    Except PyException PyWipe × W :=
  let (result, w) := fdb.wipe session (queryToMarsRequest q) doit true all w
  ((checkError "dasi_wipe" (result.bind newDasiWipe)).map fun cdata => ⟨cdata, .null⟩, w)

/-- What `Wipe.__next__` makes of an exception of the C++ side. -/
def raisedByWipe (x : Exception) : PyException :=
  let err := ffiDecode x.what
  .dasiException (py "Error in function '" ++ py "dasi_wipe_next" ++ py "': " ++ err) err

theorem wipe_generates : Generates (G := WipeGeneratorImpl) FdbWipeElement.msg
    (InHand FdbWipeElement.msg) Unfetched := lazy_generates fun _ _ => rfl

/-- What is still to come from a Python wipe. -/
def WipePending (stream : FdbIterator FdbWipeElement) (wipe : PyWipe) : Prop :=
  Pending (InHand FdbWipeElement.msg) Unfetched stream wipe.cdata

def WipeAsked (stream : FdbIterator FdbWipeElement) (wipe : PyWipe) : Prop :=
  Asked Unfetched stream wipe.cdata

theorem pyWipe_pulls :
    Pulls pullValue (fun e => ffiDecode e.msg) raisedByWipe WipePending WipeAsked where
  called := by
    rintro wipe stream ⟨asked, rest⟩
    change if wipe.cdata.first = true then _ else _
    rw [asked, if_neg Bool.false_ne_true]
    exact rest
  ended := by
    intro wipe pending
    obtain ⟨answer, held⟩ := next_moves wipe_generates pending not_broken_nil
    obtain ⟨finished, rest⟩ := wipe_generates.ended held
    rw [Handle.endCode, Handle.atEnd, finished, if_pos rfl] at answer
    have hnext : dasiWipeNext wipe.cdata = (.ok .iterationComplete, _) := answer
    have hpull : pullValue wipe =
        (.ok none, { wipe with cdata := ⟨false, wipe.cdata.next.2.generator⟩ }) := by
      simp only [pullValue, PyWipe.next, hnext, checkError]
    rw [hpull]
    exact ⟨rfl, rfl, rest⟩
  fails := by
    intro wipe x rest pending
    obtain ⟨answer, later⟩ := next_fails wipe_generates pending
    have hnext : dasiWipeNext wipe.cdata = (.error x, _) := answer
    have hpull : pullValue wipe = (.error (raisedByWipe x),
        { wipe with cdata := ⟨false, wipe.cdata.next.2.generator⟩ }) := by
      simp only [pullValue, PyWipe.next, hnext, checkError, raisedByWipe]
    rw [hpull]
    exact ⟨rfl, rfl, later⟩
  yields := by
    intro wipe e rest pending
    obtain ⟨answer, held⟩ := next_moves wipe_generates pending not_broken_element
    obtain ⟨live, shown, later⟩ := wipe_generates.holds held
    rw [Handle.endCode, Handle.atEnd, live, if_neg Bool.false_ne_true] at answer
    have hnext : dasiWipeNext wipe.cdata = (.ok .success, _) := answer
    have handed : dasiWipeGetValue ⟨false, wipe.cdata.next.2.generator⟩ true =
        .ok (some e.msg) := by
      simp only [dasiWipeGetValue, Handle.getValue, Handle.atEnd, live, shown, assert,
        Bool.not_false, if_true]
      rfl
    have hpull : pullValue wipe = (.ok (some (ffiDecode e.msg)),
        ⟨⟨false, wipe.cdata.next.2.generator⟩, .element⟩) := by
      simp only [pullValue, PyWipe.next, hnext, checkError, handed, PyWipe.view]
      rw [show wipe.cdata.next.2.generator.dasiElement = e.msg from shown]
    rw [hpull]
    exact ⟨rfl, rfl, later⟩

theorem wipe_shows (fdb : Fdb F W) (session : F) (doit all : Bool) :
    Shows (fun rq => fdb.wipe session rq doit true all) (fun e => ffiDecode e.msg)
      (pythonWipe fdb session doit all) throughWipe where
  refused := by
    intro q w w' x called
    refine ⟨"dasi_wipe", ?_⟩
    simp only [pythonWipe, called]
    rfl
  answered := by
    intro q w w' iter called
    by_cases broken : Broken iter
    · obtain ⟨x, rest, rfl⟩ := broken
      refine .inl ⟨x, "dasi_wipe", rfl, ?_⟩
      simp only [pythonWipe, called]
      rfl
    · obtain ⟨g, created, held⟩ :=
        create_inHand (T := Bytes) (f := FdbWipeElement.msg) (fun _ _ => rfl) broken
      have made : newDasiWipe iter = .ok ⟨true, g⟩ := by
        rw [newDasiWipe, created]
        rfl
      refine .inr ⟨⟨⟨true, g⟩, .null⟩, ?_, fun m seen => ⟨"dasi_wipe_next", (), ?_⟩⟩
      · simp only [pythonWipe, called, Except.bind, made]
        rfl
      · obtain ⟨left, loop⟩ := pyWipe_pulls.collects (Y := Empty) (s := ⟨⟨true, g⟩, .null⟩)
          held (inHand_room held) seen
        rw [throughWipe, loop]
        cases (upToFailure iter).2 with
        | ok => rfl
        | error x => rfl

end Wiping

section Agreement
variable (env : Tools.Environment F P D W) {config : PyStr} {path : CText}

theorem pythonSession_run {E R : Type} (named : encode (.text config) = .ok path.1)
    (configured : env.configPath = path.1)
    {ask : F → MarsRequest → W → Except Exception (FdbIterator E) × W} {view : E → R}
    {run : F → W → Except PyException Unit × List R × W} {args : List Bytes}
    (runs : ∀ session w, ∃ function, run session w =
      (checkError function (askAll env.split (ask session) streamJudge args w).2.1,
        (askAll env.split (ask session) streamJudge args w).1.flatMap
          (fun answer => answer.2.1.map view),
        (askAll env.split (ask session) streamJudge args w).2.2)) (w : W) :
    let asked := openAndAsk env ask streamJudge args w
    ∃ function, pythonSession env.fdb config run w =
      (checkError function asked.2.1, asked.1.flatMap (fun answer => answer.2.1.map view),
        asked.2.2) := by
  cases opened : env.fdb.open_ path.1 w with
  | mk result w' =>
    simp only [pythonSession, named, cString_text, openAndAsk, configured, opened]
    cases result with
    | error x => exact ⟨"dasi_open", rfl⟩
    | ok session => exact runs session w'

/-- `dasi-list` prints the elements that a Python program is shown by loops over the same
listings: of each query in turn all that FDB answers, up to the first failure. -/
theorem listings_alike (named : encode (.text config) = .ok path.1)
    (configured : env.configPath = path.1) (location : Bool) (first : QueryText) {q : Query}
    (parsed : Query.ofString env.split first.bytes.1 = .ok q) (rest : List QueryText) (m : Memory)
    (w : W) :
    let asked := openAndAsk env (fun session rq => env.fdb.list session rq true) streamJudge
      ((first :: rest).map fun query => query.bytes.1) w
    (∃ s, (Tools.list env location ((first :: rest).map fun query => query.bytes.1)).run
        ⟨none, [], w⟩ = (asked.2.1, s) ∧
      s.printed = (asked.1.flatMap fun answer => answer.2.1).map
        (fun e => Line.element (convert e) location) ∧ s.outside = asked.2.2) ∧
    ∃ function, pythonSession env.fdb config (fun session => pythonQueries env.split
        (fun q => ArchiveStore.list env.split env.fdb (fun _ : Unit => session) () (.query q))
        throughListing ((first :: rest).map QueryText.text) [] m) w =
      (checkError function asked.2.1,
        (asked.1.flatMap fun answer => answer.2.1).map fun e => some (listed e), asked.2.2) := by
  intro asked
  constructor
  · obtain ⟨s, ran, printed, outside⟩ := openAndAsk_run env
      (fun session rq => env.fdb.list session rq true) (list_prints location) parsed
      (rest.map fun query => query.bytes.1) w fun answer mem => trivial
    refine ⟨s, ran, ?_, outside⟩
    rw [printed, List.map_flatMap]
    rfl
  · have runs := fun session w => pythonQueries_run env.split
      (list_shows env.split env.fdb session) (first :: rest) [] m w
    obtain ⟨function, same⟩ := pythonSession_run env named configured runs w
    refine ⟨function, ?_⟩
    rw [List.map_flatMap]
    exact same

theorem wipeJudge_eq {shown : Query → Bytes} {stops : Bool} {answer : Answered FdbWipeElement}
    (lenient : stops = true → answer.2 ≠ ([], .ok ())) :
    wipeJudge shown stops answer = streamJudge answer := by
  rcases answer with ⟨q, _ | ⟨e, rest⟩, x | ⟨⟨⟩⟩⟩
  · rfl
  · cases stops with
    | false => rfl
    | true => exact absurd rfl (lenient rfl)
  · rfl
  · rfl

/-- `dasi-wipe` prints all entries that FDB answers, up to the first failure, and for a query
without any that there is no data; with `--doit` and `--throw` that is a failure. With
`--porcelain` and without that failure, a Python program is shown the same entries. The tool
counts the entries of an answer in an `int`. -/
theorem wipes_alike (named : encode (.text config) = .ok path.1)
    (configured : env.configPath = path.1) (shown : Query → Bytes)
    (doit all porcelain throw_ : Bool) (first : QueryText) {q : Query}
    (parsed : Query.ofString env.split first.bytes.1 = .ok q) (rest : List QueryText) (w : W) :
    let asked := openAndAsk env (fun session rq => env.fdb.wipe session rq doit porcelain all)
      (wipeJudge shown (doit && throw_)) ((first :: rest).map fun query => query.bytes.1) w
    ((∀ answer ∈ asked.1, Countable answer) →
      ∃ s, (Tools.wipe env shown doit all porcelain throw_
          ((first :: rest).map fun query => query.bytes.1)).run ⟨none, [], w⟩ = (asked.2.1, s) ∧
        s.printed = asked.1.flatMap (wipeLines (doit && throw_)) ∧ s.outside = asked.2.2) ∧
    (porcelain = true →
      ((doit && throw_) = true → ∀ answer ∈ asked.1, answer.2 ≠ ([], .ok ())) →
      ∃ function, pythonSession env.fdb config (fun session => pythonQueries env.split
          (pythonWipe env.fdb session doit all) throughWipe
          ((first :: rest).map QueryText.text) [] ()) w =
        (checkError function asked.2.1,
          (asked.1.flatMap fun answer => answer.2.1).map fun e => ffiDecode e.msg,
          asked.2.2)) := by
  intro asked
  constructor
  · exact openAndAsk_run env (fun session rq => env.fdb.wipe session rq doit porcelain all)
      (wipe_prints shown (doit && throw_)) parsed (rest.map fun query => query.bytes.1) w
  · intro quiet lenient
    have runs := fun session w => pythonQueries_run env.split
      (wipe_shows env.fdb session doit all) (first :: rest) [] () w
    obtain ⟨function, same⟩ := pythonSession_run env named configured runs w
    have judged : asked = openAndAsk env (fun session rq => env.fdb.wipe session rq doit true all)
        streamJudge ((first :: rest).map fun query => query.bytes.1) w := by
      simp only [asked, quiet] at lenient ⊢
      exact openAndAsk_congr env _ fun answer mem =>
        wipeJudge_eq fun stops => lenient stops answer mem
    refine ⟨function, ?_⟩
    rw [judged, List.map_flatMap]
    exact same

end Agreement

section Samples

private def oneElement : FdbListElement := ⟨[(ascii "a", ascii "1")], 1, ⟨ascii "file", 0, 3⟩⟩

/-- A listing that breaks after its first element, and nothing to wipe. -/
def brokenTools : Tools.Environment Unit Unit Unit Unit where
  fdb := { NullPointers.idle.fdb with
    list := fun _ _ _ w => (.ok [.element oneElement, .failure .other, .element oneElement], w) }
  eckit := NullPointers.idle.eckit
  split := splitTokens
  readFile _ w := (.error .other, w)
  saveInto _ _ w := (.ok (), w)
  configPath := ascii "./dasi.yml"

private theorem defaultConfig_legal : (0 : Byte) ∉ ascii "./dasi.yml" := by decide

private theorem sampleText_legal : (0 : Byte) ∉ ascii "a=1/2" := by decide

private theorem sampleText_encoded : encode (.text (py "a=1/2")) = .ok (ascii "a=1/2") := rfl

def sampleQueryText : QueryText :=
  ⟨py "a=1/2", ⟨ascii "a=1/2", sampleText_legal⟩, sampleText_encoded⟩

theorem listings_alike_sample :
    (∃ s, (Tools.list brokenTools true [ascii "a=1/2", ascii "a=1/2"]).run ⟨none, [], ()⟩ =
        (.error .other, s) ∧
      s.printed = [.element (convert oneElement) true] ∧ s.outside = ()) ∧
    ∃ function, pythonSession brokenTools.fdb (py "./dasi.yml") (fun session =>
        pythonQueries splitTokens (fun q => ArchiveStore.list splitTokens brokenTools.fdb
          (fun _ : Unit => session) () (.query q)) throughListing [py "a=1/2", py "a=1/2"] []
          ⟨[], []⟩) () =
      (checkError function (.error .other), [some (listed oneElement)], ()) := by
  have named : encode (.text (py "./dasi.yml")) =
      .ok (⟨ascii "./dasi.yml", defaultConfig_legal⟩ : CText).1 := rfl
  have parsed : Query.ofString splitTokens (ascii "a=1/2") = .ok _ := rfl
  exact listings_alike brokenTools named rfl true sampleQueryText parsed [sampleQueryText]
    ⟨[], []⟩ ()

/-- Two entries for `a=1/2`, none for `b=1`, and one before a failure for `c=1`. -/
def entriesOf (request : MarsRequest) : FdbIterator FdbWipeElement :=
  if request.values = [(ascii "a", [ascii "1", ascii "2"])] then
    [.element ⟨ascii "toc"⟩, .element ⟨ascii "data"⟩]
  else if request.values = [(ascii "c", [ascii "1"])] then
    [.element ⟨ascii "index"⟩, .failure .other]
  else []

def wipingTools : Tools.Environment Unit Unit Unit Unit :=
  { brokenTools with
    fdb := { NullPointers.idle.fdb with
      wipe := fun _ request _ _ _ w => (.ok (entriesOf request), w) } }

private theorem emptyText_legal : (0 : Byte) ∉ ascii "b=1" := by decide

private theorem failingText_legal : (0 : Byte) ∉ ascii "c=1" := by decide

private theorem emptyText_encoded : encode (.text (py "b=1")) = .ok (ascii "b=1") := rfl

private theorem failingText_encoded : encode (.text (py "c=1")) = .ok (ascii "c=1") := rfl

def emptyText : QueryText := ⟨py "b=1", ⟨ascii "b=1", emptyText_legal⟩, emptyText_encoded⟩

def failingText : QueryText := ⟨py "c=1", ⟨ascii "c=1", failingText_legal⟩, failingText_encoded⟩

theorem wipes_alike_sample :
    (∃ s q, (Tools.wipe wipingTools (fun _ => []) true false true false
        [ascii "a=1/2", ascii "b=1", ascii "c=1"]).run ⟨none, [], ()⟩ = (.error .other, s) ∧
      Query.ofString splitTokens (ascii "b=1") = .ok q ∧ s.printed =
        [.entry (ascii "toc"), .entry (ascii "data"), .noData q, .entry (ascii "index")]) ∧
    (∃ function, pythonSession wipingTools.fdb (py "./dasi.yml") (fun session =>
        pythonQueries splitTokens (pythonWipe wipingTools.fdb session true false) throughWipe
          [py "a=1/2", py "b=1", py "c=1"] [] ()) () =
      (checkError function (.error .other), [py "toc", py "data", py "index"], ())) ∧
    -- with `--throw`, and no query without entries
    ∃ function, pythonSession wipingTools.fdb (py "./dasi.yml") (fun session =>
        pythonQueries splitTokens (pythonWipe wipingTools.fdb session true false) throughWipe
          [py "a=1/2", py "c=1"] [] ()) () =
      (checkError function (.error .other), [py "toc", py "data", py "index"], ()) := by
  have named : encode (.text (py "./dasi.yml")) =
      .ok (⟨ascii "./dasi.yml", defaultConfig_legal⟩ : CText).1 := rfl
  have parsed : Query.ofString splitTokens (ascii "a=1/2") = .ok _ := rfl
  obtain ⟨prints, shows⟩ := wipes_alike wipingTools named rfl (fun _ => []) true false true
    false sampleQueryText parsed [emptyText, failingText] ()
  obtain ⟨-, thrown⟩ := wipes_alike wipingTools named rfl (fun _ => []) true false true
    true sampleQueryText parsed [failingText] ()
  obtain ⟨s, ran, printed, -⟩ := prints (by decide)
  exact ⟨⟨s, _, ran, rfl, printed⟩, shows rfl (by decide), thrown rfl (by decide)⟩

end Samples

end ToolQueries
