import DasiModel.Tools
import DasiModel.HandleMaps
import DasiModel.KeyStrings
import DasiModel.ArchiveStore

/-!
# One archive, three front ends

A list of objects can be archived by `dasi-put`, by a Python program and by a C program.
What they make of it is the same: a session is opened, and FDB is handed the objects one
after the other, up to the first that it refuses.
-/

namespace FrontEnds
open Texts Exceptions DasiKey Generators Session CApi HandleMaps NullPointers PythonKey
open KeyStrings StringParsers OrderedMaps PythonArchive Tools

variable {F P D W A : Type}

section Objects

/-- An object that every front end can be given: its data, in a file for the command line, and
its key, in C strings and as a Python dictionary, with keywords and values that a key string
can hold. -/
structure Object where
  path : Bytes
  data : Bytes
  pairs : List (CText × CText)
  items : List (PyObject × PyObject)
  encoded : items.mapM encodePair = .ok (pairs.map fun b => (b.1.1, b.2.1))
  legal : ∀ b ∈ pairs, LegalPair (b.1.1, b.2.1)
  distinct : (pairs.map fun b => b.1.1).Nodup

namespace Object

/-- The keywords and values. -/
def texts (o : Object) : List (Bytes × Bytes) := o.pairs.map fun b => (b.1.1, b.2.1)

def key (o : Object) : Key := Key.ofPairs o.texts

theorem legal_texts (o : Object) : ∀ b ∈ o.texts, LegalPair b := by
  intro b inside
  obtain ⟨pair, own, rfl⟩ := List.mem_map.mp inside
  exact o.legal pair own

theorem distinct_texts (o : Object) : (o.texts.map Prod.fst).Nodup := by
  rw [texts, List.map_map]
  exact o.distinct

/-- Setting the pairs one by one makes the same key. -/
theorem setAll_texts (o : Object) : setAll o.texts = o.key :=
  setAll_perm (List.Perm.refl _) o.distinct_texts

end Object

/-- The objects are archived in turn, up to the first that fails. -/
def archiveAll (fdbArchive : Handed → W → Except Exception Unit × W) :
    List Object → W → Except Exception Unit × W
  | [], w => (.ok (), w)
  | o :: rest, w =>
    match fdbArchive ⟨o.key.items, some o.data⟩ w with
    | (.error x, w) => (.error x, w)
    | (.ok (), w) => archiveAll fdbArchive rest w

/-- What all the front ends are for. -/
def openAndArchive (fdb : Fdb F W) (config : Bytes) (objects : List Object) (w : W) :
    Except Exception Unit × W :=
  match fdb.open_ config w with
  | (.error x, w) => (.error x, w)
  | (.ok session, w) => archiveAll (fdb.archive session) objects w

end Objects

section CommandLine
variable {env : Tools.Environment F P D W} {s : Tools.State F W}

/-- The arguments of `dasi-put`. -/
def arguments (objects : List Object) : List Bytes :=
  objects.flatMap fun o => [render o.texts, o.path]

theorem tool_bind {B : Type} (body : Tool F W A) (next : A → Tool F W B)
    (s : Tools.State F W) : (body >>= next).run s = match body.run s with
      | (.ok a, s) => (next a).run s
      | (.error x, s) => (.error x, s) := by
  change (match body s with | (r, s') => ExceptT.bindCont next r s') =
    (match body s with | (.ok a, s) => next a s | (.error x, s) => (.error x, s))
  rcases body s with ⟨x | a, s'⟩
  · rfl
  · rfl

theorem tool_outside (f : W → Except Exception A × W) (s : Tools.State F W) :
    (Tools.outside f : Tool F W A).run s =
      ((f s.outside).1, { s with outside := (f s.outside).2 }) := by
  change ((MonadExcept.ofExcept (f s.outside).1 : Tool F W A).run
    { s with outside := (f s.outside).2 }) = _
  rcases f s.outside with ⟨x | a, w⟩
  · rfl
  · rfl

theorem tool_ofExcept (result : Except Exception A) (s : Tools.State F W) :
    (MonadExcept.ofExcept result : Tool F W A).run s = (result, s) := by
  cases result with
  | error x => rfl
  | ok a => rfl

/-- The session that is open already. -/
theorem dasi_open (session : F) (printed : List Line) (w : W) :
    (dasi env).run ⟨some session, printed, w⟩ = (.ok session, ⟨some session, printed, w⟩) := rfl

/-- The first call opens the session. -/
theorem dasi_first (printed : List Line) (w : W) : (dasi env).run ⟨none, printed, w⟩ =
    match env.fdb.open_ env.configPath w with
    | (.error x, w) => (.error x, ⟨none, printed, w⟩)
    | (.ok session, w) => (.ok session, ⟨some session, printed, w⟩) := by
  change (Tools.outside (env.fdb.open_ env.configPath) >>= fun session => _ :
    Tool F W F).run _ = _
  simp only [tool_bind, tool_outside]
  rcases env.fdb.open_ env.configPath w with ⟨x | session, w⟩
  · rfl
  · rfl

/-- One round of the loop of `dasi-put`. -/
theorem putObject_run (cuts : CutsAndDrops env.split) (o : Object)
    (readable : ∀ w, env.readFile o.path w = (.ok o.data, w)) (s : Tools.State F W) :
    (putObject env (render o.texts) o.path).run s =
      match (dasi env).run s with
      | (.error x, s) => (.error x, s)
      | (.ok session, s) =>
        let called := env.fdb.archive session ⟨o.key.items, some o.data⟩ s.outside
        (called.1, { s with outside := called.2 }) := by
  have whole : readRegion o.data o.data.length = some o.data :=
    (readRegion_eq_whole_iff _ _).mpr rfl
  simp only [putObject, tool_bind, tool_ofExcept, ofString_render cuts o.legal_texts,
    tool_outside, readable, Session.archive, whole]
  rcases (dasi env).run s with ⟨x | session, s⟩
  · rfl
  · rfl

/-- The loop, once the session is open. -/
theorem putLoop_run (cuts : CutsAndDrops env.split) (session : F) (objects : List Object)
    (readable : ∀ o ∈ objects, ∀ w, env.readFile o.path w = (.ok o.data, w))
    (printed : List Line) (w : W) :
    (objects.forM fun o => putObject env (render o.texts) o.path).run
        ⟨some session, printed, w⟩ =
      ((archiveAll (env.fdb.archive session) objects w).1,
        ⟨some session, printed, (archiveAll (env.fdb.archive session) objects w).2⟩) := by
  induction objects generalizing w with
  | nil => rfl
  | cons o rest ih =>
    obtain ⟨here, later⟩ := List.forall_mem_cons.mp readable
    simp only [List.forM_eq_forM, List.forM_cons, tool_bind, putObject_run cuts o here,
      dasi_open, archiveAll]
    rcases env.fdb.archive session ⟨o.key.items, some o.data⟩ w with ⟨x | _, w⟩
    · rfl
    · exact ih later w

theorem arguments_even (objects : List Object) : (arguments objects).length % 2 = 0 := by
  induction objects with
  | nil => rfl
  | cons o rest ih =>
    have grows : (arguments (o :: rest)).length = (arguments rest).length + 2 := rfl
    omega

/-- The arguments taken in twos are those of the objects. -/
theorem forM_arguments (objects : List Object) (use : Bytes → Bytes → Tool F W Unit) :
    (List.range ((arguments objects).length / 2)).forM (fun i =>
        use ((arguments objects).getD (2 * i) []) ((arguments objects).getD (2 * i + 1) [])) =
      objects.forM fun o => use (render o.texts) o.path := by
  induction objects with
  | nil => rfl
  | cons o rest ih =>
    have split : arguments (o :: rest) = render o.texts :: o.path :: arguments rest := rfl
    have rounds : (arguments (o :: rest)).length / 2 = (arguments rest).length / 2 + 1 := by
      rw [split, List.length_cons, List.length_cons]
      omega
    have later (i : Nat) : (arguments (o :: rest)).getD (2 * (i + 1)) [] =
        (arguments rest).getD (2 * i) [] ∧ (arguments (o :: rest)).getD (2 * (i + 1) + 1) [] =
        (arguments rest).getD (2 * i + 1) [] := by
      rw [split, show 2 * (i + 1) = 2 * i + 1 + 1 by omega]
      exact ⟨rfl, rfl⟩
    rw [rounds, List.range_succ_eq_map]
    simp only [List.forM_eq_forM, List.forM_cons, List.forM_map, later] at ih ⊢
    rw [ih]
    rfl

/-- `dasi-put` on at least one object. -/
theorem put_run (cuts : CutsAndDrops env.split) {objects : List Object} (some_ : objects ≠ [])
    (readable : ∀ o ∈ objects, ∀ w, env.readFile o.path w = (.ok o.data, w)) (w : W) :
    ((put env (arguments objects)).run ⟨none, [], w⟩).1 =
        (openAndArchive env.fdb env.configPath objects w).1 ∧
      ((put env (arguments objects)).run ⟨none, [], w⟩).2.outside =
        (openAndArchive env.fdb env.configPath objects w).2 := by
  obtain ⟨o, rest, rfl⟩ := List.exists_cons_of_ne_nil some_
  obtain ⟨here, later⟩ := List.forall_mem_cons.mp readable
  have run : (put env (arguments (o :: rest))).run ⟨none, [], w⟩ =
      ((o :: rest).forM fun o => putObject env (render o.texts) o.path).run ⟨none, [], w⟩ := by
    rw [put, if_neg (by rw [arguments_even]; decide), ← forM_arguments]
  rw [run, List.forM_eq_forM, List.forM_cons, tool_bind, putObject_run cuts o here, dasi_first,
    openAndArchive]
  rcases env.fdb.open_ env.configPath w with ⟨x | session, w⟩
  · exact ⟨rfl, rfl⟩
  · dsimp only
    rw [archiveAll]
    rcases env.fdb.archive session ⟨o.key.items, some o.data⟩ w with ⟨x | _, w⟩
    · exact ⟨rfl, rfl⟩
    · have rounds := putLoop_run cuts session rest later [] w
      rw [List.forM_eq_forM] at rounds
      dsimp only
      rw [rounds]
      exact ⟨rfl, rfl⟩

end CommandLine

section Python
variable {split : Bytes → Bytes → List Bytes}

theorem bytes_positive : 1 ≤ 1 := Nat.le_refl 1

theorem Object.whole_data (o : Object) : o.data.length = 1 * [o.data.length].prod := by
  rw [List.prod_singleton, Nat.one_mul]

/-- The data as `bytes`. -/
def Object.buffer (o : Object) : Buffer :=
  ⟨1, [o.data.length], o.data, none, bytes_positive, o.whole_data⟩

/-- `for key, data in objects: dasi.archive(key, data)`. -/
def pythonLoop (split : Bytes → Bytes → List Bytes)
    (fdbArchive : Handed → W → Except Exception Unit × W) :
    List Object → W → Except PyException Unit × W
  | [], w => (.ok (), w)
  | o :: rest, w =>
    match ArchiveStore.archive split fdbArchive (.dict o.items) o.buffer w with
    | (.error x, w) => (.error x, w)
    | (.ok (), w) => pythonLoop split fdbArchive rest w

/-- The loop on `Dasi(config)`. -/
def pythonProgram (split : Bytes → Bytes → List Bytes) (fdb : Fdb F W) (config : PyStr)
    (objects : List Object) (w : W) : Except PyException Unit × W :=
  match encode (.text config) with
  | .error x => (.error x, w)
  | .ok str =>
    let (result, w) := fdb.open_ (cString str) w
    match checkError "dasi_open" result with
    | .error x => (.error x, w)
    | .ok session => pythonLoop split (fdb.archive session) objects w

theorem setItem_of_encodePair {key : Key} {item : PyObject × PyObject} {b : Bytes × Bytes}
    (encoded : encodePair item = .ok b) :
    setItem key item.1 item.2 = .ok (key.set (cString b.1) (cString b.2)) := by
  simp only [encodePair, setItem, bind, Except.bind, pure, Except.pure] at encoded ⊢
  cases hk : encode item.1 with
  | error x =>
    rw [hk] at encoded
    cases encoded
  | ok k =>
    cases hv : encode item.2 with
    | error x =>
      rw [hk, hv] at encoded
      cases encoded
    | ok v =>
      rw [hk, hv] at encoded
      cases encoded
      rfl

/-- A dictionary whose texts can be encoded is inserted pair by pair. -/
theorem insert_of_encoded {items : List (PyObject × PyObject)} {pairs : List (CText × CText)}
    (encoded : items.mapM encodePair = .ok (pairs.map fun b => (b.1.1, b.2.1))) (key : Key) :
    PythonKey.insert key items = .ok (pairs.foldl (fun key b => key.set b.1.1 b.2.1) key) := by
  induction items generalizing pairs key with
  | nil =>
    cases pairs with
    | nil => rfl
    | cons b rest => cases encoded
  | cons item rest ih =>
    rw [List.mapM_cons] at encoded
    cases first : encodePair item with
    | error x =>
      rw [first] at encoded
      cases encoded
    | ok c =>
      cases others : rest.mapM encodePair with
      | error x =>
        rw [first, others] at encoded
        cases encoded
      | ok cs =>
        rw [first, others] at encoded
        have same : c :: cs = pairs.map fun b => (b.1.1, b.2.1) := Except.ok.inj encoded
        cases pairs with
        | nil => cases same
        | cons b bs =>
          obtain ⟨rfl, tail⟩ := List.cons.inj same
          rw [PythonKey.insert, List.foldlM_cons, setItem_of_encodePair first, cString_text,
            cString_text]
          exact ih (by rw [others, tail]) _

/-- The key of an object, from its dictionary. -/
theorem init_dict (o : Object) : PythonKey.init split (.dict o.items) = .ok o.key := by
  have set : PythonKey.insert Key.new o.items = .ok (setAll o.texts) := by
    rw [insert_of_encoded o.encoded, setAll, Object.texts, List.foldl_map]
  rw [← o.setAll_texts, ← set]
  rfl

theorem pythonArchive_run (fdbArchive : Handed → W → Except Exception Unit × W) (o : Object)
    (w : W) : ArchiveStore.archive split fdbArchive (.dict o.items) o.buffer w =
      (checkError "dasi_archive" (fdbArchive ⟨o.key.items, some o.data⟩ w).1,
        (fdbArchive ⟨o.key.items, some o.data⟩ w).2) := by
  have whole : readRegion o.data o.data.length = some o.data :=
    (readRegion_eq_whole_iff _ _).mpr rfl
  have nonnegative : (0 : Int) ≤ (o.data.length : Int) := Int.natCast_nonneg _
  simp only [ArchiveStore.archive, init_dict, Object.buffer, Buffer.len, Buffer.counted,
    Session.dasiArchive, assert, nonnegative, decide_true, if_true, Session.archive,
    Int.toNat_natCast, whole]

theorem pythonLoop_run (fdbArchive : Handed → W → Except Exception Unit × W)
    (objects : List Object) (w : W) : pythonLoop split fdbArchive objects w =
      (checkError "dasi_archive" (archiveAll fdbArchive objects w).1,
        (archiveAll fdbArchive objects w).2) := by
  induction objects generalizing w with
  | nil => rfl
  | cons o rest ih =>
    rw [pythonLoop, pythonArchive_run, archiveAll]
    rcases fdbArchive ⟨o.key.items, some o.data⟩ w with ⟨x | _, w⟩
    · rfl
    · exact ih w

/-- A Python program raises what FDB does, through the function that it called. -/
theorem python_run {fdb : Fdb F W} {config : PyStr} {path : CText}
    (named : encode (.text config) = .ok path.1) (objects : List Object) (w : W) :
    ∃ function, pythonProgram split fdb config objects w =
      (checkError function (openAndArchive fdb path.1 objects w).1,
        (openAndArchive fdb path.1 objects w).2) := by
  cases opened : fdb.open_ path.1 w with
  | mk result w' =>
    simp only [pythonProgram, named, cString_text, openAndArchive, opened]
    cases result with
    | error x => exact ⟨"dasi_open", rfl⟩
    | ok session => exact ⟨"dasi_archive", pythonLoop_run _ objects w'⟩

end Python

section Calls
variable {w : World F D W}

theorem void_deref [Stored F D W A] {p : Address} {a : A} (live : Stored.objects w p = some a)
    (next : A → CBody F D W Unit) :
    tryCatchVoid (deref (some p) >>= next) w = tryCatchVoid (next a) w :=
  void_bind (by rw [deref_run, Option.bind_some, live]) next

theorem outside_run (f : W → Except Exception A × W) (w : World F D W) :
    (CApi.outside f : CBody F D W A).run w =
      ((f w.outside).1.mapError Fault.raised, { w with outside := (f w.outside).2 }) := by
  change (raising (f w.outside).1 : CBody F D W A).run { w with outside := (f w.outside).2 } = _
  rcases f w.outside with ⟨x | a, out⟩
  · rfl
  · rfl

/-- How a C function ends that returns what FDB does. -/
def codeOf : Except Exception Unit → Code
  | .ok () => .success
  | .error x => x.code

/-- The error string after a call that returns what FDB does. -/
def told (w : World F D W) : Except Exception Unit → World F D W
  | .ok () => w
  | .error x => { w with errorString := x.what }

@[simp] theorem told_keys (w : World F D W) (result : Except Exception Unit) :
    (told w result).keys = w.keys := by
  cases result <;> rfl

@[simp] theorem told_dasis (w : World F D W) (result : Except Exception Unit) :
    (told w result).dasis = w.dasis := by
  cases result <;> rfl

@[simp] theorem told_fresh (w : World F D W) (result : Except Exception Unit) :
    (told w result).fresh = w.fresh := by
  cases result <;> rfl

@[simp] theorem told_outside (w : World F D W) (result : Except Exception Unit) :
    (told w result).outside = w.outside := by
  cases result <;> rfl

theorem void_outside (f : W → Except Exception Unit × W) (w : World F D W) :
    tryCatchVoid (CApi.outside f) w = (.returned (codeOf (f w.outside).1),
      told { w with outside := (f w.outside).2 } (f w.outside).1) := by
  simp only [tryCatchVoid, tryCatchBody, run_bind, outside_run]
  rcases f w.outside with ⟨x | _, out⟩
  · rfl
  · rfl

theorem newKey_run (cell : Address) (w : World F D W) :
    dasiNewKey (some cell) w = (.returned .success, { w with
      keys := Function.update w.keys w.fresh (some Key.new)
      fresh := w.fresh + 1
      handles := Function.update w.handles cell (some w.fresh) }) := rfl

theorem keySet_run {p : Address} {k : Key} (live : w.keys p = some k) (keyword value : CText) :
    dasiKeySet (some p) keyword.pointer value.pointer w = (.returned .success, { w with
      keys := Function.update w.keys p (some (k.set keyword.1 value.1)) }) := by
  rw [dasiKeySet, void_bind (asserts_pass (by simp [CText.pointer])), void_deref live,
    void_readCStr, void_readCStr]
  rfl

theorem freeKey_run {p : Address} {k : Key} (live : w.keys p = some k) :
    dasiFreeKey (some p) w = (.returned .success, { w with
      keys := Function.update w.keys p none }) := by
  rw [dasiFreeKey, void_bind (asserts_pass (by simp)), deleteObject, void_deref live]
  rfl

theorem archive_run (env : CApi.Environment F P D W) {d p : Address} {session : F} {k : Key}
    (bytes : Bytes) (opened : w.dasis d = some session) (live : w.keys p = some k) :
    CApi.dasiArchive env (some d) (some p) (some bytes) bytes.length w =
      (.returned (codeOf (env.fdb.archive session ⟨k.items, some bytes⟩ w.outside).1),
        told { w with outside := (env.fdb.archive session ⟨k.items, some bytes⟩ w.outside).2 }
          (env.fdb.archive session ⟨k.items, some bytes⟩ w.outside).1) := by
  have whole : readRegion bytes bytes.length = some bytes := (readRegion_eq_whole_iff _ _).mpr rfl
  have nonnegative : (0 : Int) ≤ (bytes.length : Int) := Int.natCast_nonneg _
  have read : (readData (some bytes) : CBody F D W Bytes).run w = (.ok bytes, w) := rfl
  rw [CApi.dasiArchive, void_bind (asserts_pass (by simp)), void_deref opened, void_deref live,
    void_bind read]
  simp only [Session.dasiArchive, assert, nonnegative, decide_true, if_true, Session.archive,
    Int.toNat_natCast, whole]
  exact void_outside _ w

theorem open_run (env : CApi.Environment F P D W) (cell : Address) (config : CText)
    (w : World F D W) : dasiOpen env (some cell) config.pointer w =
      match env.fdb.open_ config.1 w.outside with
      | (.error x, out) => (.returned x.code, { w with outside := out, errorString := x.what })
      | (.ok session, out) => (.returned .success, { w with
          outside := out
          dasis := Function.update w.dasis w.fresh (some session)
          fresh := w.fresh + 1
          handles := Function.update w.handles cell (some w.fresh) }) := by
  rw [dasiOpen, void_bind (asserts_pass (by simp [CText.pointer])), void_readCStr]
  simp only [tryCatchVoid, tryCatchBody, run_bind, outside_run]
  rcases env.fdb.open_ config.1 w.outside with ⟨x | session, out⟩
  · rfl
  · rfl

end Calls

section CProgram
variable (env : CApi.Environment F P D W)

/-- `dasi_key_set` for every pair, as long as it succeeds. -/
def setPairs (key : Ptr) : List (CText × CText) → Entry F D W
  | [], w => (.returned .success, w)
  | (keyword, value) :: rest, w =>
    match dasiKeySet key keyword.pointer value.pointer w with
    | (.returned .success, w) => setPairs key rest w
    | stopped => stopped

/-- A key is made for the object and freed again; `cell` holds the key. -/
def archiveObject (dasi : Ptr) (cell : Address) (o : Object) : Entry F D W := fun w =>
  match dasiNewKey (some cell) w with
  | (.returned .success, w) =>
    let key := w.handles cell
    match setPairs key o.pairs w with
    | (.returned .success, w) =>
      let (archived, w) := CApi.dasiArchive env dasi key (some o.data) o.data.length w
      match dasiFreeKey key w with
      | (.returned .success, w) => (archived, w)
      | stopped => stopped
    | stopped => stopped
  | stopped => stopped

def archiveObjects (dasi : Ptr) (cell : Address) : List Object → Entry F D W
  | [], w => (.returned .success, w)
  | o :: rest, w =>
    match archiveObject env dasi cell o w with
    | (.returned .success, w) => archiveObjects dasi cell rest w
    | stopped => stopped

/-- The program, up to the first call that does not return `DASI_SUCCESS`. -/
def cProgram (config : CText) (session cell : Address) (objects : List Object) :
    Entry F D W := fun w =>
  match dasiOpen env (some session) config.pointer w with
  | (.returned .success, w) => archiveObjects env (w.handles session) cell objects w
  | stopped => stopped

/-- Nothing is at the addresses that are still to be given out. -/
def Unused (w : World F D W) : Prop := ∀ p, w.fresh ≤ p → w.keys p = none

/-- A program has ended with what FDB answered, and left no key behind. -/
structure Ended (result : Except Exception Unit × W) (before : World F D W)
    (out : Exit × World F D W) : Prop where
  code : out.1 = .returned (codeOf result.1)
  text : ∀ x, result.1 = .error x → out.2.errorString = x.what
  outside : out.2.outside = result.2
  keys : out.2.keys = before.keys

variable {env} {w : World F D W}

theorem setPairs_run {p : Address} (pairs : List (CText × CText)) {k : Key}
    (live : w.keys p = some k) :
    setPairs (some p) pairs w = (.returned .success, { w with
      keys := Function.update w.keys p
        (some (pairs.foldl (fun key b => key.set b.1.1 b.2.1) k)) }) := by
  induction pairs generalizing k w with
  | nil =>
    rw [List.foldl_nil, ← live, Function.update_eq_self]
    rfl
  | cons b rest ih =>
    rw [setPairs, keySet_run live]
    dsimp only
    rw [ih (Function.update_self ..), List.foldl_cons, Function.update_idem]

/-- An object is archived, and its key made and freed. -/
theorem archiveObject_run {d : Address} (cell : Address) {session : F}
    (opened : w.dasis d = some session) (unused : Unused w) (o : Object)
    {answer : Except Exception Unit × W}
    (called : env.fdb.archive session ⟨o.key.items, some o.data⟩ w.outside = answer) :
    ∃ w', archiveObject env (some d) cell o w = (.returned (codeOf answer.1), w') ∧
      Ended answer w (.returned (codeOf answer.1), w') ∧ w'.dasis = w.dasis ∧ Unused w' := by
  have key : (o.pairs.foldl (fun key b => key.set b.1.1 b.2.1) Key.new) = o.key := by
    rw [← o.setAll_texts, setAll, Object.texts, List.foldl_map]
  let w₁ : World F D W := { w with
    keys := Function.update w.keys w.fresh (some Key.new)
    fresh := w.fresh + 1
    handles := Function.update w.handles cell (some w.fresh) }
  have made : dasiNewKey (some cell) w = (.returned .success, w₁) := newKey_run ..
  have handle : w₁.handles cell = some w.fresh := Function.update_self ..
  let w₂ : World F D W := { w₁ with keys := Function.update w₁.keys w.fresh (some o.key) }
  have set : setPairs (some w.fresh) o.pairs w₁ = (.returned .success, w₂) := by
    have live : w₁.keys w.fresh = some Key.new := Function.update_self ..
    rw [setPairs_run o.pairs live, key]
  have live : w₂.keys w.fresh = some o.key := Function.update_self ..
  -- all that archiving may change in the memory is the error string
  let w₃ : World F D W := told { w₂ with outside := answer.2 } answer.1
  have archived : CApi.dasiArchive env (some d) (some w.fresh) (some o.data) o.data.length w₂ =
      (.returned (codeOf answer.1), w₃) := by
    have outcome := archive_run env o.data (show w₂.dasis d = some session from opened) live
    rwa [show w₂.outside = w.outside from rfl, called] at outcome
  have freed : dasiFreeKey (some w.fresh) w₃ = (.returned .success, { w₃ with
      keys := Function.update w₃.keys w.fresh none }) := by
    apply freeKey_run
    rw [told_keys]
    exact live
  have keys : Function.update w₃.keys w.fresh none = w.keys := by
    simp only [w₃, told_keys, w₂, w₁, Function.update_idem]
    rw [Function.update_eq_self_iff, unused _ (Nat.le_refl _)]
  refine ⟨{ w₃ with keys := Function.update w₃.keys w.fresh none }, ?_, ⟨rfl, ?_, ?_, keys⟩,
    ?_, ?_⟩
  · simp only [archiveObject, made, handle, set, archived, freed]
  · intro x failed
    simp only [w₃, failed, told]
  · simp only [w₃, told_outside]
  · simp only [w₃, told_dasis, w₂, w₁]
  · intro p past
    change w₃.fresh ≤ p at past
    rw [told_fresh] at past
    change w.fresh + 1 ≤ p at past
    change Function.update w₃.keys w.fresh none p = none
    rw [keys]
    exact unused p (Nat.le_of_succ_le past)

theorem archiveObjects_run {d : Address} (cell : Address) {session : F}
    (opened : w.dasis d = some session) (unused : Unused w) (objects : List Object) :
    Ended (archiveAll (env.fdb.archive session) objects w.outside) w
      (archiveObjects env (some d) cell objects w) := by
  induction objects generalizing w with
  | nil =>
    refine ⟨rfl, fun x failed => ?_, rfl, rfl⟩
    cases failed
  | cons o rest ih =>
    cases called : env.fdb.archive session ⟨o.key.items, some o.data⟩ w.outside with
    | mk result out =>
      obtain ⟨w', run, ended, dasis, unused'⟩ :=
        archiveObject_run cell opened unused o called
      cases result with
      | error x =>
        have stopped : archiveObjects env (some d) cell (o :: rest) w =
            (.returned x.code, w') := by
          rw [archiveObjects, run]
          cases x <;> rfl
        rw [stopped, archiveAll, called]
        exact ended
      | ok =>
        have goes : archiveObjects env (some d) cell (o :: rest) w =
            archiveObjects env (some d) cell rest w' := by
          rw [archiveObjects, run]
          rfl
        have later := ih (dasis ▸ opened) unused'
        rw [goes, archiveAll, called]
        rw [ended.outside] at later
        exact ⟨later.code, later.text, later.outside, later.keys.trans ended.keys⟩

/-- The C program, on memory in which nothing is at addresses still to be given out. -/
theorem cProgram_run (config : CText) (session cell : Address) (unused : Unused w)
    (objects : List Object) :
    Ended (openAndArchive env.fdb config.1 objects w.outside) w
      (cProgram env config session cell objects w) := by
  rw [cProgram, open_run, openAndArchive]
  rcases env.fdb.open_ config.1 w.outside with ⟨x | s, out⟩
  · have stopped : ∀ w', (match ((.returned x.code, w') : Exit × World F D W) with
        | (.returned .success, w) => archiveObjects env (w.handles session) cell objects w
        | stopped => stopped) = (.returned x.code, w') := by
      intro w'
      cases x <;> rfl
    dsimp only
    rw [stopped]
    refine ⟨rfl, fun y failed => ?_, rfl, rfl⟩
    cases failed
    rfl
  · have handle : Function.update w.handles session (some w.fresh) session = some w.fresh :=
      Function.update_self ..
    let w₁ : World F D W := { w with
      outside := out
      dasis := Function.update w.dasis w.fresh (some s)
      fresh := w.fresh + 1
      handles := Function.update w.handles session (some w.fresh) }
    have opened : w₁.dasis w.fresh = some s := Function.update_self ..
    have unused₁ : Unused w₁ := fun p past => unused p (Nat.le_of_succ_le past)
    have ended : Ended (archiveAll (env.fdb.archive s) objects out) w₁
        (archiveObjects env (some w.fresh) cell objects w₁) :=
      archiveObjects_run cell opened unused₁ objects
    dsimp only
    rw [handle]
    exact ⟨ended.code, ended.text, ended.outside, ended.keys⟩

end CProgram

section Agreement
variable {tool : Tools.Environment F P D W} {world : World F D W}

/-- Whatever is archived, and whether or not it all can be: the command line tool, a Python
program and a C program open a session and archive the objects in turn, up to the first that
fails. They leave the same outside behind and end in the same way. -/
theorem front_ends_archive_alike (cuts : CutsAndDrops tool.split) (env : CApi.Environment F P D W)
    (same : env.fdb = tool.fdb) {config : PyStr} (path : CText)
    (named : encode (.text config) = .ok path.1) (configured : tool.configPath = path.1)
    {objects : List Object} (some_ : objects ≠ [])
    (readable : ∀ o ∈ objects, ∀ w, tool.readFile o.path w = (.ok o.data, w))
    (unused : Unused world) (session cell : Address) :
    let done := openAndArchive tool.fdb path.1 objects world.outside
    ((put tool (arguments objects)).run ⟨none, [], world.outside⟩).1 = done.1 ∧
      ((put tool (arguments objects)).run ⟨none, [], world.outside⟩).2.outside = done.2 ∧
      (∃ function, pythonProgram tool.split tool.fdb config objects world.outside =
        (checkError function done.1, done.2)) ∧
      Ended done world (cProgram env path session cell objects world) := by
  intro done
  have put := put_run cuts some_ readable world.outside
  rw [configured] at put
  have ended : Ended (openAndArchive env.fdb path.1 objects world.outside) world
      (cProgram env path session cell objects world) :=
    cProgram_run path session cell unused objects
  rw [same] at ended
  exact ⟨put.1, put.2, python_run named objects world.outside, ended⟩

private def levelText : CText := ⟨ascii "level", by decide⟩

private def firstText : CText := ⟨ascii "1", by decide⟩

private def secondText : CText := ⟨ascii "2", by decide⟩

private theorem levelPairs_legal {value : CText} (legal : LegalPair (levelText.1, value.1)) :
    ∀ b ∈ [(levelText, value)], LegalPair (b.1.1, b.2.1) := by
  intro b inside
  obtain rfl := List.mem_singleton.mp inside
  exact legal

def levelObject : Object where
  path := ascii "level1.grib"
  data := [1, 2, 3]
  pairs := [(levelText, firstText)]
  items := [(.text (py "level"), .text (py "1"))]
  encoded := rfl
  legal := levelPairs_legal ⟨by decide, by decide, by decide⟩
  distinct := List.nodup_singleton _

def secondObject : Object where
  path := ascii "level2.grib"
  data := [4]
  pairs := [(levelText, secondText)]
  items := [(.text (py "level"), .text (py "2"))]
  encoded := rfl
  legal := levelPairs_legal ⟨by decide, by decide, by decide⟩
  distinct := List.nodup_singleton _

/-- An FDB in memory with room for one object. -/
def smallFdb : Fdb Unit ArchiveStore.Kept :=
  { ArchiveStore.keptFdb with
    archive := fun session handed w =>
      if w.pending = [] then ArchiveStore.keptFdb.archive session handed w
      else (.error (.userError (ascii "full")), w) }

/-- The tools over it, with a file for each of the objects. -/
def keptTools : Tools.Environment Unit Bytes (Bool × Bytes) ArchiveStore.Kept where
  fdb := smallFdb
  eckit := ArchiveStore.idle (RetrieveReading.storeEckit id)
  split := splitTokens
  readFile path w := (.ok (if path = levelObject.path then [1, 2, 3] else [4]), w)
  saveInto _ _ w := (.ok (), w)
  configPath := ascii "./dasi.yml"

def keptCalls : CApi.Environment Unit Bytes (Bool × Bytes) ArchiveStore.Kept where
  fdb := smallFdb
  eckit := keptTools.eckit
  initialise w := (.ok (), w)
  destroySession _ w := w
  destroyHandle _ _ w := w
  split := splitTokens
  version := ascii "0.3.3"
  gitSha1 := []

/-- Memory in which there is nothing. -/
def blank (outside : W) : World F D W where
  dasis _ := none
  keys _ := none
  queries _ := none
  lists _ := none
  retrieves _ := none
  wipes _ := none
  purges _ := none
  handles _ := none
  texts _ := none
  numbers _ := 0
  buffers _ := []
  fresh := 0
  initialised := true
  errorString := []
  outside := outside

/-- The second object does not fit. -/
theorem front_ends_archive_alike_sample :
    ((put keptTools (arguments [levelObject, secondObject])).run ⟨none, [], ⟨[], []⟩⟩).1 =
      .error (.userError (ascii "full")) ∧
    (∃ function, pythonProgram splitTokens smallFdb (py "./dasi.yml") [levelObject, secondObject]
      ⟨[], []⟩ = (checkError function (.error (.userError (ascii "full"))),
        ⟨[], [(levelObject.key, [1, 2, 3])]⟩)) ∧
    Ended (.error (.userError (ascii "full")), ⟨[], [(levelObject.key, [1, 2, 3])]⟩)
      (blank ⟨[], []⟩) (cProgram keptCalls ⟨ascii "./dasi.yml", by decide⟩ 0 1
        [levelObject, secondObject] (blank ⟨[], []⟩)) := by
  have cuts : CutsAndDrops keptTools.split := fun _ _ => rfl
  have readable : ∀ o ∈ [levelObject, secondObject], ∀ w,
      keptTools.readFile o.path w = (.ok o.data, w) := by
    intro o inside w
    rcases List.mem_cons.mp inside with rfl | inside
    · rfl
    · obtain rfl := List.mem_singleton.mp inside
      rfl
  have unused : Unused (blank ⟨[], []⟩ : World Unit (Bool × Bytes) ArchiveStore.Kept) :=
    fun _ _ => rfl
  have done : openAndArchive keptTools.fdb (ascii "./dasi.yml") [levelObject, secondObject]
      ⟨[], []⟩ = (.error (.userError (ascii "full")), ⟨[], [(levelObject.key, [1, 2, 3])]⟩) := by
    rw [← ArchiveStore.ofCombined_items levelObject.key]
    rfl
  have named : encode (.text (py "./dasi.yml")) = .ok (ascii "./dasi.yml") := rfl
  have alike := front_ends_archive_alike cuts keptCalls rfl ⟨ascii "./dasi.yml", by decide⟩
    named rfl (List.cons_ne_nil _ _) readable unused 0 1
  dsimp only [blank] at alike
  rw [done] at alike
  exact ⟨alike.1, alike.2.2⟩

end Agreement

end FrontEnds
