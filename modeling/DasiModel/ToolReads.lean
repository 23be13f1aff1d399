import DasiModel.FrontEnds

/-!
# A retrieval, saved or looped over

`dasi-get` saves all objects of a retrieval to one file. A Python program gets them one by
one, each with its own bytes.
-/

namespace ToolReads
open Texts Exceptions DasiKey Generators CHandles RetrieveReading Session Cursors Loops RangeLoops
open PythonKey PythonIterators PythonItems PythonRetrieve ArchiveStore Tools FrontEnds HandleMaps

variable {F P D W : Type}

section Get
variable {env : Tools.Environment F P D W} {data : FdbListElement → Bytes} {content : P → Bytes}
  {isOpen : D → Prop} {remaining : D → Bytes} {values : List FdbListElement}

/-- What `saveInto` is relied on for: it opens the handle, and all that can then be read is in
the file of the path, if it raises nothing. -/
def SavesAll (env : Tools.Environment F P D W) (isOpen : D → Prop) (remaining : D → Bytes)
    (file : W → Bytes → Option Bytes) : Prop :=
  ∀ {d d' : D} {path : Bytes} {w w₁ w₂ : W}, env.saveInto d path w = (.ok (), w₂) →
    env.eckit.openForRead d w = (.ok (), d', w₁) → isOpen d' →
    file w₂ path = some (remaining d')

/-- `chunks.append(item.data)`. -/
def collect (chunks : List Bytes) (item : Option RetrieveRecord) : Option Empty × List Bytes :=
  (none, chunks ++ [(item.map RetrieveRecord.data).getD []])

/-- `for item in retrieve: chunks.append(item.data)`. -/
def gather (io : Eckit P D W) (fuel : Nat) (retrieve : PyRetrieve D W) (chunks : List Bytes) :
    Option (Outcome Empty PyException (List Bytes) (PyRetrieve D W)) :=
  pullLoop (pullObject io) collect fuel retrieve chunks

/-- What is left of a loop over these objects: it collects the data of those before the first
empty one, and is left there with the exception of the C library, or else goes to its end. -/
def Gathers (data : FdbListElement → Bytes) (objects : List FdbListElement) (chunks : List Bytes)
    (outcome : Option (Outcome Empty PyException (List Bytes) (PyRetrieve D W))) : Prop :=
  ∃ ending later,
    outcome = some (ending, chunks ++ (objects.takeWhile (data · ≠ [])).map data, later) ∧
    ((∀ e ∈ objects, data e ≠ []) → ending = .complete) ∧
    ((∃ e ∈ objects, data e = []) →
      ∃ message error, ending = .failed (.dasiException message error))

theorem gather_gathers {io : Eckit P D W} (eckit : ReadsFully io data content isOpen remaining)
    (lengths : TrueLengths data values) {k : Nat} {retrieve : PyRetrieve D W}
    (position : PyRetrieveAt data isOpen remaining values k retrieve) {fuel : Nat}
    (enough : values.length < k + fuel) (within : k ≤ values.length) (chunks : List Bytes) :
    Gathers data (values.drop k) chunks (gather io fuel retrieve chunks) := by
  induction fuel generalizing k retrieve chunks with
  | zero => omega
  | succ fuel ih =>
    have moved := (next_at eckit lengths position).1
    rw [← pullObject_snd] at moved
    rcases pullObject_cases eckit lengths position with
      ⟨e, own, some_, shown⟩ | ⟨e, message, error, own, empty, raised⟩ | ⟨past, ended⟩
    · obtain ⟨room, rfl⟩ := List.getElem?_eq_some_iff.mp own
      obtain ⟨ending, later, goes, whole, broken⟩ :=
        ih moved (by omega) room (chunks ++ [data values[k]])
      rw [List.append_assoc] at goes
      rw [List.drop_eq_getElem_cons room]
      refine ⟨ending, later, ?_, ?_, ?_⟩
      · rw [gather, pullLoop_of_element shown, List.takeWhile_cons_of_pos (by simpa using some_)]
        exact goes
      · intro all
        exact whole (List.forall_mem_cons.mp all).2
      · rintro ⟨e, inside, empty⟩
        rcases List.mem_cons.mp inside with rfl | inside
        · exact absurd empty some_
        · exact broken ⟨e, inside, empty⟩
    · -- `dasi_retrieve_read` refuses the length 0
      obtain ⟨room, rfl⟩ := List.getElem?_eq_some_iff.mp own
      rw [List.drop_eq_getElem_cons room]
      refine ⟨.failed (.dasiException message error), (pullObject io retrieve).2, ?_, ?_, ?_⟩
      · rw [gather, pullLoop_of_failure raised,
          List.takeWhile_cons_of_neg (by simpa using empty), List.map_nil, List.append_nil]
      · intro all
        exact absurd empty (all _ List.mem_cons_self)
      · exact fun _ => ⟨message, error, rfl⟩
    · rw [List.drop_eq_nil_of_le past]
      refine ⟨.complete, (pullObject io retrieve).2, ?_, fun _ => rfl, ?_⟩
      · rw [gather, pullLoop_of_ended ended]
        exact congrArg (fun c => some (Loops.Ending.complete, c, _)) (List.append_nil chunks).symm
      · rintro ⟨e, ⟨⟩, -⟩

/-- How `dasi-get` goes when it raises nothing. -/
theorem get_run {query path : Bytes} {w : W} {s : Tools.State F W}
    (ran : (Tools.get env query path).run ⟨none, [], w⟩ = (.ok (), s)) :
    ∃ q session w₁ iter w₂ result d w₃,
      Query.ofString env.split query = .ok q ∧ env.fdb.open_ env.configPath w = (.ok session, w₁) ∧
      env.fdb.inspect session (queryToMarsRequest q) w₁ = (.ok iter, w₂) ∧
      RetrieveResultImpl.create iter = .ok result ∧
      dataHandle env.eckit result w₂ = (.ok d, w₃) ∧
      env.saveInto d path w₃ = (.ok (), s.outside) := by
  simp only [Tools.get, tool_bind, tool_ofExcept] at ran
  cases asked : Query.ofString env.split query with
  | error x =>
    rw [asked] at ran
    cases ran
  | ok q =>
    simp only [asked, dasi_first] at ran
    cases opened : env.fdb.open_ env.configPath w with
    | mk answer w₁ =>
      cases answer with
      | error x =>
        rw [opened] at ran
        cases ran
      | ok session =>
        simp only [opened, tool_outside] at ran
        cases called : env.fdb.inspect session (queryToMarsRequest q) w₁ with
        | mk answer w₂ =>
          cases answer with
          | error x =>
            rw [called] at ran
            cases ran
          | ok iter =>
            simp only [called] at ran
            cases created : RetrieveResultImpl.create iter with
            | error x =>
              rw [created] at ran
              cases ran
            | ok result =>
              simp only [created] at ran
              cases made : dataHandle env.eckit result w₂ with
              | mk answer w₃ =>
                cases answer with
                | error x =>
                  rw [made] at ran
                  cases ran
                | ok d =>
                  simp only [made] at ran
                  refine ⟨q, session, w₁, iter, w₂, result, d, w₃, rfl, rfl, called, created,
                    made, ?_⟩
                  obtain ⟨answered, rfl⟩ := Prod.mk.inj ran
                  exact Prod.ext answered rfl

theorem file_of_saved (eckit : ReadsFully env.eckit data content isOpen remaining)
    {file : W → Bytes → Option Bytes} (saves : SavesAll env isOpen remaining file)
    {result : RetrieveResultImpl} {d : D} {path : Bytes} {w w₁ w₂ : W}
    (made : dataHandle env.eckit result w = (.ok d, w₁))
    (saved : env.saveInto d path w₁ = (.ok (), w₂)) :
    file w₂ path = some (result.values.flatMap data) := by
  obtain ⟨d₁, w₃, d₂, w₄, made₁, opened, isOpen, rest⟩ :=
    dataHandle_ok eckit.toReadsConcatenation result w
  rw [made] at made₁
  obtain ⟨⟨⟩, rfl⟩ := Prod.mk.inj made₁
  rw [saves saved opened isOpen, rest]

/-- The file that `dasi-get` leaves holds the data of all objects of the retrieval in order. A
Python loop over the same retrieval collects the data of each, up to the first empty object: it
is left there with a `DASIException`. -/
theorem get_saves_what_loops_collect (eckit : ReadsFully env.eckit data content isOpen remaining)
    {file : W → Bytes → Option Bytes} (saves : SavesAll env isOpen remaining file)
    (lengths : ∀ session rq w (values : List FdbListElement) w',
      env.fdb.inspect session rq w = (.ok (values.map Event.element), w') →
        TrueLengths data values)
    {str : PyStr} {query : CText} (named : encode (.text str) = .ok query.1) {path : Bytes}
    {w : W} {s : Tools.State F W}
    (ran : (Tools.get env query.1 path).run ⟨none, [], w⟩ = (.ok (), s)) :
    ∃ q session w₁ w₂ objects, ∃ cdata : DasiRetrieve D,
      Query.ofString env.split query.1 = .ok q ∧
      env.fdb.open_ env.configPath w = (.ok session, w₁) ∧
      env.fdb.inspect session (queryToMarsRequest q) w₁ = (.ok (objects.map Event.element), w₂) ∧
      ArchiveStore.retrieve env.split env.fdb (fun _ : Unit => session) () (.arg (.text str)) w₁ =
        (.ok cdata, w₂) ∧
      file s.outside path = some (objects.flatMap data) ∧
      ∀ (m : Memory) (fuel : Nat), objects.length < fuel →
        Gathers data objects [] (gather env.eckit fuel ⟨cdata, m, w₂⟩ []) := by
  obtain ⟨q, session, w₁, iter, w₂, result, d, w₃, parsed, opened, called, created, made, saved⟩ :=
    get_run ran
  obtain ⟨values, whole, made_⟩ := of_map_eq_ok created
  obtain rfl := drain_eq_ok whole
  have elements : result.values = values := by
    rw [← made_]
    exact RetrieveResultImpl.updateResult_values _
  have retrieved : newDasiRetrieve (D := D) (values.map Event.element) =
      .ok ⟨⟨true, result⟩, none, false⟩ := by
    rw [newDasiRetrieve, created]
    rfl
  have inside := file_of_saved eckit saves made saved
  rw [elements] at inside
  refine ⟨q, session, w₁, w₂, values, ⟨⟨true, result⟩, none, false⟩, parsed, opened, called, ?_,
    inside, ?_⟩
  · have asked : (QueryGiven.arg (.text str)).init env.split = .ok q := by
      simp only [QueryGiven.init, PythonQuery.init, PythonQuery.newQuery, named, bind, Except.bind,
        cString_text, parsed, checkError]
    simp only [ArchiveStore.retrieve, asked, called, Except.bind, retrieved, checkError]
  · intro m fuel enough
    have start : PyRetrieveAt data isOpen remaining values 0 ⟨_, m, w₂⟩ :=
      pyRetrieveAt_new retrieved m w₂
    have rounds : values.length < 0 + fuel := by omega
    exact gather_gathers eckit (lengths _ _ _ _ _ called) start rounds (Nat.zero_le _) []

end Get

section Samples

/-- A file system, as what is in its files. -/
abbrev Files := Bytes → Option Bytes

/-- Every query retrieves three objects, the second one empty; the URI of a location is the data
at it. -/
def threeObjects : Tools.Environment Unit Bytes (Bool × Bytes) Files where
  fdb := {
    open_ := fun _ w => (.ok (), w)
    archive := fun _ _ w => (.ok (), w)
    wipe := fun _ _ _ _ _ w => (.ok [], w)
    purge := fun _ _ _ _ w => (.ok [], w)
    list := fun _ _ _ w => (.ok [], w)
    inspect := fun _ _ w => (.ok ([⟨[], 0, ⟨ascii "abc", 0, 3⟩⟩, ⟨[], 0, ⟨[], 3, 0⟩⟩,
      ⟨[], 0, ⟨ascii "d", 3, 1⟩⟩].map Event.element), w)
    flush := fun _ w => (.ok (), w) }
  eckit := ArchiveStore.idle (storeEckit id)
  split := splitTokens
  readFile _ w := (.error .other, w)
  saveInto d path w := (.ok (), Function.update w path (some d.2))
  configPath := ascii "./dasi.yml"

theorem threeObjects_saves : SavesAll threeObjects (fun d => d.1 = true) Prod.snd
    (fun w : Files => w) := by
  intro d d' path w w₁ w₂ saved opened isOpen
  obtain ⟨-, rfl⟩ := Prod.mk.inj saved
  obtain ⟨-, same⟩ := Prod.mk.inj opened
  obtain ⟨rfl, -⟩ := Prod.mk.inj same
  exact Function.update_self ..

theorem threeObjects_lengths (session : Unit) (rq : MarsRequest) (w : Files)
    (values : List FdbListElement) (w' : Files)
    (called : threeObjects.fdb.inspect session rq w = (.ok (values.map Event.element), w')) :
    TrueLengths (fun e => e.location.uri) values := by
  obtain ⟨same, -⟩ := Prod.mk.inj called
  have injective : Function.Injective (Event.element (E := FdbListElement) (X := Exception)) :=
    fun _ _ same => Event.element.inj same
  obtain rfl := List.map_injective_iff.mpr injective (Except.ok.inj same)
  decide

private theorem queryText_legal : (0 : Byte) ∉ ascii "a=1" := by decide

theorem get_saves_what_loops_collect_sample :
    ∃ s, (Tools.get threeObjects (ascii "a=1") (ascii "out")).run ⟨none, [], fun _ => none⟩ =
        (.ok (), s) ∧
      ∃ w₁ w₂ objects, ∃ cdata : DasiRetrieve (Bool × Bytes),
        ArchiveStore.retrieve splitTokens threeObjects.fdb (fun _ : Unit => ()) ()
          (.arg (.text (py "a=1"))) w₁ = (.ok cdata, w₂) ∧
        s.outside (ascii "out") = some (objects.flatMap fun e => e.location.uri) ∧
        Gathers (fun e => e.location.uri) objects []
          (gather threeObjects.eckit (objects.length + 1) ⟨cdata, ⟨[], []⟩, w₂⟩ []) := by
  have ran : (Tools.get threeObjects (ascii "a=1") (ascii "out")).run ⟨none, [], fun _ => none⟩ =
      (.ok (), _) := rfl
  have named : encode (.text (py "a=1")) = .ok (⟨ascii "a=1", queryText_legal⟩ : CText).1 := rfl
  have eckit : ReadsFully threeObjects.eckit (fun e => e.location.uri) id (fun d => d.1 = true)
      Prod.snd := ArchiveStore.idle_reads
  obtain ⟨q, session, w₁, w₂, objects, cdata, -, -, -, retrieved, inside, loops⟩ :=
    get_saves_what_loops_collect eckit threeObjects_saves threeObjects_lengths named ran
  exact ⟨_, ran, w₁, w₂, objects, cdata, retrieved, inside, loops ⟨[], []⟩ _ (Nat.lt_succ_self _)⟩

end Samples

end ToolReads
