import DasiModel.IterationProtocol

/-!
# Reading the data of a retrieve handle

The bytes come from one data handle over all elements, made and opened by the
first read; the iteration uses the vector of elements only. eckit's handles
are not part of this repository: `Eckit` collects the operations used, and
`ReadsConcatenation` what they are relied on for. All of them act on an
outside state, so that two calls may behave differently.
-/

namespace RetrieveReading
open Texts Exceptions DasiKey Generators CHandles Machines Cursors

universe u v w

/-- The handle operations of eckit and FDB that retrieval calls. `P` are the
handles of single locations, `D` the gathered ones, `W` the outside. -/
structure Eckit (P : Type u) (D : Type v) (W : Type w) where
  /-- `elem.location().dataHandle()` -/
  locationDataHandle : FdbListElement → W → Except Exception P × W
  /-- `HandleGatherer result(sorted)`, `result.add(..)` in turn, `result.dataHandle()` -/
  gather : Bool → List P → W → Except Exception D × W
  openForRead : D → W → Except Exception Unit × D × W
  /-- `dh->read(data, length)`: the bytes put into the buffer -/
  read : D → Nat → W → Except Exception Bytes × D × W

section Model
variable {P : Type u} {D : Type v} {W : Type w}

/-- The loop that adds the handle of every element to the gatherer. -/
def addHandles (io : Eckit P D W) : List FdbListElement → W → Except Exception (List P) × W
  | [], w => (.ok [], w)
  | elem :: rest, w =>
    match io.locationDataHandle elem w with
    | (.error x, w) => (.error x, w)
    | (.ok p, w) =>
      match addHandles io rest w with
      | (.error x, w) => (.error x, w)
      | (.ok ps, w) => (.ok (p :: ps), w)

/-- `RetrieveResultImpl::dataHandle`. -/
def dataHandle (io : Eckit P D W) (r : RetrieveResultImpl) (w : W) : Except Exception D × W :=
  match addHandles io r.values w with
  | (.error x, w) => (.error x, w)
  | (.ok ps, w) => io.gather false ps w

/-- The end of `dasi_retrieve_read`, on a handle that exists. -/
def readFrom (io : Eckit P D W) (retrieve : DasiRetrieve D) (d : D) (w : W) (length : Int) :
    Except Exception (Code × Bytes) × DasiRetrieve D × W :=
  match io.read d length.toNat w with
  | (.error x, d, w) => (.error x, { retrieve with dh := some d }, w)
  | (.ok bytes, d, w) =>
    (.ok (if bytes.length = 0 then .iterationComplete else .success, bytes),
      { retrieve with dh := some d }, w)

/-- `dasi_retrieve_read`; the bytes returned are those in the buffer, and their
number is what `*length` is set to. -/
def dasiRetrieveRead (io : Eckit P D W) (retrieve : DasiRetrieve D) (w : W) (length : Int) :
    Except Exception (Code × Bytes) × DasiRetrieve D × W :=
  match assert (0 < length) "*length > 0" with
  | .error x => (.error x, retrieve, w)
  | .ok () =>
    match retrieve.dh with
    | some d => readFrom io retrieve d w length
    | none =>
      match dataHandle io retrieve.generator w with
      | (.error x, w) => (.error x, retrieve, w)
      | (.ok d, w) =>
        -- the handle is stored before it is opened
        match io.openForRead d w with
        | (.error x, d, w) => (.error x, { retrieve with dh := some d }, w)
        | (.ok (), d, w) => readFrom io { retrieve with closer := true } d w length

/-- `dasi_retrieve_read` up to the call of `read`: the handle to read from. -/
def handleToRead (io : Eckit P D W) (retrieve : DasiRetrieve D) (w : W) :
    Except Exception D × DasiRetrieve D × W :=
  match retrieve.dh with
  | some d => (.ok d, retrieve, w)
  | none =>
    match dataHandle io retrieve.generator w with
    | (.error x, w) => (.error x, retrieve, w)
    | (.ok d, w) =>
      match io.openForRead d w with
      | (.error x, d, w) => (.error x, { retrieve with dh := some d }, w)
      | (.ok (), d, w) => (.ok d, { retrieve with closer := true }, w)

theorem dasiRetrieveRead_eq (io : Eckit P D W) (retrieve : DasiRetrieve D) (w : W) {length : Int}
    (positive : 0 < length) : dasiRetrieveRead io retrieve w length =
      match handleToRead io retrieve w with
      | (.error x, retrieve, w) => (.error x, retrieve, w)
      | (.ok d, retrieve, w) => readFrom io retrieve d w length := by
  simp only [dasiRetrieveRead, assert, positive, decide_true, if_true, handleToRead]
  cases retrieve.dh with
  | some d => rfl
  | none =>
    rcases dataHandle io retrieve.generator w with ⟨_ | d, w⟩
    · rfl
    · simp only
      rcases io.openForRead d w with ⟨_ | _, d, w⟩
      · rfl
      · rfl

inductive RetrieveCall where
  | next
  | attrs (wanted : Wanted)
  | count
  | read (length : Int)

inductive RetrieveAnswer where
  | next (result : Except Exception Code)
  | attrs (result : Except Exception Attrs)
  | count (result : Except Exception Int)
  | read (result : Except Exception (Code × Bytes))

def RetrieveCall.isRead : RetrieveCall → Bool
  | .read _ => true
  | _ => false

/-- One call on a retrieve handle. -/
def retrieveStep (io : Eckit P D W) (state : DasiRetrieve D × W) :
    RetrieveCall → RetrieveAnswer × DasiRetrieve D × W
  | .next => (.next (dasiRetrieveNext state.1).1, (dasiRetrieveNext state.1).2, state.2)
  | .attrs wanted => (.attrs (dasiRetrieveAttrs state.1 wanted), state)
  | .count => (.count (dasiRetrieveCount state.1), state)
  | .read length =>
    (.read (dasiRetrieveRead io state.1 state.2 length).1,
      (dasiRetrieveRead io state.1 state.2 length).2)

/-- The bytes of one answer, if it is a successful read. -/
def chunk : RetrieveAnswer → Bytes
  | .read (.ok (.success, bytes)) => bytes
  | _ => []

/-- The bytes delivered by the successful reads of a run, in call order. -/
def delivered (run : List (RetrieveCall × RetrieveAnswer)) : Bytes :=
  run.flatMap (fun entry => chunk entry.2)

end Model

/-- What eckit is relied on for: the handle gathered without sorting opens, and
then reads as the concatenation of the handles added, at least one byte of it
at a time until nothing remains. -/
structure ReadsConcatenation {P : Type u} {D : Type v} {W : Type w} (io : Eckit P D W)
    (data : FdbListElement → Bytes) (content : P → Bytes) (isOpen : D → Prop)
    (remaining : D → Bytes) : Prop where
  located (e : FdbListElement) (w : W) :
    ∃ p w', io.locationDataHandle e w = (.ok p, w') ∧ content p = data e
  gathered (parts : List P) (w : W) : ∃ d w₁ d' w₂, io.gather false parts w = (.ok d, w₁) ∧
    io.openForRead d w₁ = (.ok (), d', w₂) ∧ isOpen d' ∧
    remaining d' = (parts.map content).flatten
  reads (d : D) (n : Nat) (w : W) : isOpen d → 0 < n → ∃ bytes d' w',
    io.read d n w = (.ok bytes, d', w') ∧ isOpen d' ∧ remaining d = bytes ++ remaining d' ∧
    bytes.length ≤ n ∧ (bytes = [] → remaining d = [])

/-- A handle that also fills every request up to the bytes remaining. -/
structure ReadsFully {P : Type u} {D : Type v} {W : Type w} (io : Eckit P D W)
    (data : FdbListElement → Bytes) (content : P → Bytes) (isOpen : D → Prop)
    (remaining : D → Bytes) : Prop
    extends ReadsConcatenation io data content isOpen remaining where
  fills (d : D) (n : Nat) (w : W) {bytes : Bytes} {d' : D} {w' : W} : isOpen d →
    io.read d n w = (.ok bytes, d', w') → bytes.length = min n (remaining d).length

section Reading
variable {P : Type u} {D : Type v} {W : Type w} {io : Eckit P D W}
  {data : FdbListElement → Bytes} {content : P → Bytes} {isOpen : D → Prop}
  {remaining : D → Bytes} {values : List FdbListElement}

/-- The state after `out` has been delivered: the vector is the one retrieved,
and the data handle, once made, has the rest in front of it. -/
structure ReadAt (isOpen : D → Prop) (remaining : D → Bytes) (values : List FdbListElement)
    (full out : Bytes) (retrieve : DasiRetrieve D) : Prop where
  elements : retrieve.generator.values = values
  unread : retrieve.dh = none → out = []
  opened : ∀ d ∈ retrieve.dh, isOpen d ∧ out ++ remaining d = full

theorem ReadAt.isPrefix {full out : Bytes} {retrieve : DasiRetrieve D}
    (position : ReadAt isOpen remaining values full out retrieve) : out <+: full := by
  cases hd : retrieve.dh with
  | none =>
    rw [position.unread hd]
    exact List.nil_prefix
  | some d => exact ⟨remaining d, (position.opened d hd).2⟩

theorem addHandles_ok (eckit : ReadsConcatenation io data content isOpen remaining)
    (values : List FdbListElement) (w : W) :
    ∃ parts w', addHandles io values w = (.ok parts, w') ∧
      parts.map content = values.map data := by
  induction values generalizing w with
  | nil => exact ⟨[], w, rfl, rfl⟩
  | cons e rest ih =>
    obtain ⟨p, w₁, hp, hc⟩ := eckit.located e w
    obtain ⟨parts, w₂, hparts, hmap⟩ := ih w₁
    refine ⟨p :: parts, w₂, ?_, ?_⟩
    · simp only [addHandles, hp, hparts]
    · simp only [List.map_cons, hc, hmap]

/-- The handle the first read makes and opens has all the data in front of it. -/
theorem dataHandle_ok (eckit : ReadsConcatenation io data content isOpen remaining)
    (r : RetrieveResultImpl) (w : W) :
    ∃ d w₁ d' w₂, dataHandle io r w = (.ok d, w₁) ∧ io.openForRead d w₁ = (.ok (), d', w₂) ∧
      isOpen d' ∧ remaining d' = r.values.flatMap data := by
  obtain ⟨parts, w₁, hparts, hmap⟩ := addHandles_ok eckit r.values w
  obtain ⟨d, w₂, d', w₃, hd, hopen, opened, hrem⟩ := eckit.gathered parts w₁
  refine ⟨d, w₂, d', w₃, ?_, hopen, opened, ?_⟩
  · simp only [dataHandle, hparts, hd]
  · rw [hrem, hmap, List.flatMap_def]

@[simp] theorem dasiRetrieveNext_dh (retrieve : DasiRetrieve D) :
    (dasiRetrieveNext retrieve).2.dh = retrieve.dh := rfl

@[simp] theorem dasiRetrieveNext_values (retrieve : DasiRetrieve D) :
    (dasiRetrieveNext retrieve).2.generator.values = retrieve.generator.values := by
  obtain ⟨⟨_ | _, r⟩, dh, closer⟩ := retrieve
  · change r.next.values = r.values
    rw [RetrieveResultImpl.next]
    split
    · rfl
    · exact RetrieveResultImpl.updateResult_values _
  · rfl

theorem readFrom_toHandle (retrieve : DasiRetrieve D) (d : D) (w : W) (length : Int) :
    (readFrom io retrieve d w length).2.1.toHandle = retrieve.toHandle := by
  rw [readFrom]
  split <;> rfl

/-- Whatever eckit does, a read leaves the iteration alone. -/
theorem dasiRetrieveRead_toHandle (retrieve : DasiRetrieve D) (w : W) (length : Int) :
    (dasiRetrieveRead io retrieve w length).2.1.toHandle = retrieve.toHandle := by
  rw [dasiRetrieveRead]
  split
  · rfl
  · split
    · exact readFrom_toHandle retrieve _ w length
    · split
      · rfl
      · split
        · rfl
        · exact readFrom_toHandle _ _ _ length

/-- A read of positive length returned the next bytes, or nothing at the end. -/
def ReadsNext (isOpen : D → Prop) (remaining : D → Bytes) (values : List FdbListElement)
    (full out : Bytes) (length : Int)
    (result : Except Exception (Code × Bytes) × DasiRetrieve D × W) : Prop :=
  ∃ bytes, result.1 = .ok (if out = full then .iterationComplete else .success, bytes) ∧
    (bytes = [] ↔ out = full) ∧ (bytes.length : Int) ≤ length ∧
    ReadAt isOpen remaining values full (out ++ bytes) result.2.1

theorem readFrom_readsNext (eckit : ReadsConcatenation io data content isOpen remaining)
    (retrieve : DasiRetrieve D) {d : D} {full out : Bytes} {length : Int}
    (same : retrieve.generator.values = values) (opened : isOpen d)
    (split : out ++ remaining d = full) (positive : 0 < length) (w : W) :
    ReadsNext isOpen remaining values full out length (readFrom io retrieve d w length) := by
  obtain ⟨bytes, d', w', hread, opened', hrem, hle, hend⟩ :=
    eckit.reads d length.toNat w opened (by omega)
  have finished : bytes = [] ↔ out = full := by
    constructor
    · intro empty
      rw [← split, hend empty, List.append_nil]
    · intro whole
      have nothing : remaining d = [] := List.append_right_eq_self.mp (split.trans whole.symm)
      rw [nothing] at hrem
      exact (List.append_eq_nil_iff.mp hrem.symm).1
  have result : readFrom io retrieve d w length =
      (.ok (if out = full then .iterationComplete else .success, bytes),
        { retrieve with dh := some d' }, w') := by
    simp only [readFrom, hread, List.length_eq_zero_iff, finished]
  rw [result]
  refine ⟨bytes, rfl, finished, by omega, same, nofun, ?_⟩
  rintro e ⟨⟩
  exact ⟨opened', by rw [List.append_assoc, ← hrem, split]⟩

theorem dasiRetrieveRead_refused (io : Eckit P D W) (retrieve : DasiRetrieve D) {length : Int}
    (short : ¬ 0 < length) (w : W) : dasiRetrieveRead io retrieve w length =
      (.error (.assertionFailed (ascii "*length > 0")), retrieve, w) := by
  simp [dasiRetrieveRead, assert, short]

/-- The first read makes the data handle, the others find it: either way the
bytes come from an open handle with the rest in front of it. -/
theorem dasiRetrieveRead_opened (eckit : ReadsConcatenation io data content isOpen remaining)
    {retrieve : DasiRetrieve D} {out : Bytes} {length : Int}
    (position : ReadAt isOpen remaining values (values.flatMap data) out retrieve)
    (positive : 0 < length) (w : W) :
    ∃ (opening : DasiRetrieve D) (d : D) (w' : W), opening.generator.values = values ∧ isOpen d ∧
      out ++ remaining d = values.flatMap data ∧
      dasiRetrieveRead io retrieve w length = readFrom io opening d w' length := by
  cases hd : retrieve.dh with
  | some d =>
    obtain ⟨opened, split⟩ := position.opened d hd
    refine ⟨retrieve, d, w, position.elements, opened, split, ?_⟩
    simp only [dasiRetrieveRead, assert, positive, decide_true, if_true, hd]
  | none =>
    obtain ⟨d, w₁, d', w₂, hmade, hopen, opened, hrem⟩ :=
      dataHandle_ok eckit retrieve.generator w
    have nothing := position.unread hd
    subst nothing
    refine ⟨{ retrieve with closer := true }, d', w₂, position.elements, opened, ?_, ?_⟩
    · rw [List.nil_append, hrem, position.elements]
    · simp only [dasiRetrieveRead, assert, positive, decide_true, if_true, hd, hmade, hopen]

theorem dasiRetrieveRead_readsNext (eckit : ReadsConcatenation io data content isOpen remaining)
    {retrieve : DasiRetrieve D} {out : Bytes} {length : Int}
    (position : ReadAt isOpen remaining values (values.flatMap data) out retrieve)
    (positive : 0 < length) (w : W) :
    ReadsNext isOpen remaining values (values.flatMap data) out length
      (dasiRetrieveRead io retrieve w length) := by
  obtain ⟨opening, d, w', same, opened, split, result⟩ :=
    dasiRetrieveRead_opened eckit position positive w
  rw [result]
  exact readFrom_readsNext eckit opening same opened split positive w'

/-- A handle that fills requests returns exactly the next `length` bytes. -/
theorem dasiRetrieveRead_fills (eckit : ReadsFully io data content isOpen remaining)
    {retrieve : DasiRetrieve D} {out : Bytes} {length : Int}
    (position : ReadAt isOpen remaining values (values.flatMap data) out retrieve)
    (positive : 0 < length) (w : W) {code : Code} {bytes : Bytes}
    (answered : (dasiRetrieveRead io retrieve w length).1 = .ok (code, bytes)) :
    bytes = ((values.flatMap data).drop out.length).take length.toNat := by
  obtain ⟨opening, d, w', -, opened, split, result⟩ :=
    dasiRetrieveRead_opened eckit.toReadsConcatenation position positive w
  obtain ⟨read, d', w'', hread, -, hrem, -, -⟩ := eckit.reads d length.toNat w' opened (by omega)
  have filled := eckit.fills d length.toNat w' opened hread
  have same : read = bytes := by
    simp only [result, readFrom, hread, Except.ok.injEq, Prod.mk.injEq] at answered
    exact answered.2
  subst same
  rw [← split, List.drop_left, List.take_eq_take_min, ← filled, hrem, List.take_left]

/-- One call delivers its chunk and nothing else; the vector stays. -/
theorem retrieveStep_readAt (eckit : ReadsConcatenation io data content isOpen remaining)
    {out : Bytes} (state : DasiRetrieve D × W) (call : RetrieveCall)
    (position : ReadAt isOpen remaining values (values.flatMap data) out state.1) :
    ReadAt isOpen remaining values (values.flatMap data)
      (out ++ chunk (retrieveStep io state call).1) (retrieveStep io state call).2.1 := by
  cases call with
  | next =>
    simp only [retrieveStep, chunk, List.append_nil]
    refine ⟨?_, fun h => position.unread ?_, fun d hd => position.opened d ?_⟩
    · rw [dasiRetrieveNext_values, position.elements]
    · rwa [dasiRetrieveNext_dh] at h
    · rwa [dasiRetrieveNext_dh] at hd
  | attrs wanted => simpa only [retrieveStep, chunk, List.append_nil] using position
  | count => simpa only [retrieveStep, chunk, List.append_nil] using position
  | read length =>
    by_cases positive : 0 < length
    · obtain ⟨bytes, hresult, hend, -, next⟩ :=
        dasiRetrieveRead_readsNext eckit position positive state.2
      simp only [retrieveStep, hresult]
      by_cases whole : out = values.flatMap data
      · simpa only [whole, if_true, chunk, hend.mpr whole] using next
      · simpa only [whole, if_false, chunk] using next
    · have refused := dasiRetrieveRead_refused io state.1 positive state.2
      simpa only [retrieveStep, refused, chunk, List.append_nil] using position

/-- After any run the bytes delivered are where the handle stands. -/
theorem readAt_after (eckit : ReadsConcatenation io data content isOpen remaining) {out : Bytes}
    (state : DasiRetrieve D × W)
    (position : ReadAt isOpen remaining values (values.flatMap data) out state.1)
    (history : List RetrieveCall) :
    ReadAt isOpen remaining values (values.flatMap data)
      (out ++ delivered (trace (retrieveStep io) state history))
      (after (retrieveStep io) state history).1 := by
  induction history generalizing out state with
  | nil =>
    simpa only [trace_nil, after_nil, delivered, List.flatMap_nil, List.append_nil] using position
  | cons call rest ih =>
    have next := ih _ (retrieveStep_readAt eckit state call position)
    simpa only [trace_cons, delivered, List.flatMap_cons, List.append_assoc, after_cons]
      using next

/-- A handle just made has read nothing. -/
theorem readAt_new {retrieve : DasiRetrieve D} {full : Bytes}
    (created : newDasiRetrieve (values.map Event.element) = .ok retrieve) :
    ReadAt isOpen remaining values full [] retrieve := by
  rw [newDasiRetrieve, RetrieveResultImpl.create, drain_map_element] at created
  cases created
  refine ⟨RetrieveResultImpl.updateResult_values _, fun _ => rfl, ?_⟩
  intro d unopened
  cases unopened

/-- The calls other than reads are answered from the iteration alone, and a read
leaves the iteration where it was. -/
theorem answers_without_reads (state : DasiRetrieve D × W) (history : List RetrieveCall) :
    (trace (retrieveStep io) state history).filter (fun entry => !entry.1.isRead) =
      trace (retrieveStep io) state (history.filter (fun call => !call.isRead)) := by
  have erased := @trace_filter_of_erasure _ _ _ (retrieveStep io) (fun call => !call.isRead)
    (fun s t => s.1.toHandle = t.1.toHandle)
  refine erased ?_ ?_ rfl history
  · rintro s t (_ | wanted | _ | length) kept same
    · simp only [retrieveStep, dasiRetrieveNext, same, and_self]
    · simp only [retrieveStep, dasiRetrieveAttrs, same, and_self]
    · simp only [retrieveStep, dasiRetrieveCount, same, and_self]
    · cases kept
  · rintro s t (_ | wanted | _ | length) dropped same
    · cases dropped
    · cases dropped
    · cases dropped
    · exact (dasiRetrieveRead_toHandle s.1 s.2 length).trans same

end Reading

/-- Reading beside the iteration: what is delivered is a prefix of the data, a
read ends exactly when all of it is delivered and then stays so, and the other
calls answer as they do without the reads. -/
theorem reads_independent {P : Type u} {D : Type v} {W : Type w} {io : Eckit P D W}
    {data : FdbListElement → Bytes} {content : P → Bytes} {isOpen : D → Prop}
    {remaining : D → Bytes} (eckit : ReadsConcatenation io data content isOpen remaining)
    {values : List FdbListElement} {retrieve : DasiRetrieve D}
    (created : newDasiRetrieve (values.map Event.element) = .ok retrieve) (w : W)
    (history : List RetrieveCall) :
    let out := delivered (trace (retrieveStep io) (retrieve, w) history)
    let state := after (retrieveStep io) (retrieve, w) history
    out <+: values.flatMap data ∧
    (∀ length : Int, 0 < length → ∃ code bytes,
      (dasiRetrieveRead io state.1 state.2 length).1 = .ok (code, bytes) ∧
      (code = .success ∧ 1 ≤ (bytes.length : Int) ∧ (bytes.length : Int) ≤ length ∧
          out ≠ values.flatMap data ∨
        code = .iterationComplete ∧ bytes = [] ∧ out = values.flatMap data)) ∧
    (out = values.flatMap data → ∀ more : List RetrieveCall,
      delivered (trace (retrieveStep io) (retrieve, w) (history ++ more)) = out) ∧
    (trace (retrieveStep io) (retrieve, w) history).filter (fun entry => !entry.1.isRead) =
      trace (retrieveStep io) (retrieve, w) (history.filter (fun call => !call.isRead)) := by
  intro out state
  have position : ReadAt isOpen remaining values (values.flatMap data) out state.1 :=
    readAt_after eckit (retrieve, w) (readAt_new created) history
  refine ⟨position.isPrefix, ?_, ?_, answers_without_reads (retrieve, w) history⟩
  · intro length positive
    obtain ⟨bytes, hresult, hend, hle, -⟩ :=
      dasiRetrieveRead_readsNext eckit position positive state.2
    by_cases whole : out = values.flatMap data
    · rw [if_pos whole] at hresult
      exact ⟨_, bytes, hresult, .inr ⟨rfl, hend.mpr whole, whole⟩⟩
    · rw [if_neg whole] at hresult
      have some : bytes ≠ [] := fun h => whole (hend.mp h)
      have one := List.length_pos_iff.mpr some
      exact ⟨_, bytes, hresult, .inl ⟨rfl, by omega, hle, whole⟩⟩
  · intro whole more
    have bound := (readAt_after eckit state position more).isPrefix
    rw [trace_append, delivered, List.flatMap_append]
    change out ++ delivered _ = out
    rw [← whole] at bound
    have nothing := List.append_right_eq_self.mp
      ((List.prefix_append out _).eq_of_length_le bound.length_le).symm
    rw [nothing, List.append_nil]

/-- A store in which the URI of a location is the data at it. A read of `n` bytes
returns up to `most n` of them; the flag of a handle tells that it is open. -/
def storeEckit (most : Nat → Nat) : Eckit Bytes (Bool × Bytes) Unit where
  locationDataHandle e _ := (.ok e.location.uri, ())
  gather _ parts _ := (.ok (false, parts.flatten), ())
  openForRead d _ := (.ok (), (true, d.2), ())
  read d n _ :=
    if d.1 then (.ok (d.2.take (most n)), (true, d.2.drop (most n)), ()) else (.error .other, d, ())

theorem storeEckit_reads {most : Nat → Nat} (bounded : ∀ n, 0 < n → 0 < most n ∧ most n ≤ n) :
    ReadsConcatenation (storeEckit most) (fun e => e.location.uri) id (fun d => d.1 = true)
      Prod.snd where
  located e w := ⟨_, _, rfl, rfl⟩
  gathered parts w := ⟨_, _, _, _, rfl, rfl, rfl, (congrArg List.flatten parts.map_id).symm⟩
  reads := by
    rintro ⟨opened, rest⟩ n w ⟨⟩ positive
    obtain ⟨some, most_le⟩ := bounded n positive
    refine ⟨rest.take (most n), (true, rest.drop (most n)), (), rfl, rfl, ?_, ?_, ?_⟩
    · exact (List.take_append_drop _ _).symm
    · exact (List.length_take_le _ _).trans most_le
    · intro h
      rcases List.take_eq_nil_iff.mp h with none | none
      · omega
      · exact none

theorem storeEckit_fills : ReadsFully (storeEckit id) (fun e => e.location.uri) id
    (fun d => d.1 = true) Prod.snd where
  toReadsConcatenation := storeEckit_reads (fun _ positive => ⟨positive, Nat.le_refl _⟩)
  fills := by
    rintro ⟨opened, rest⟩ n w bytes d' w' ⟨⟩ hread
    cases hread
    exact List.length_take

/-- Two elements of three and one bytes, read two bytes at a time at most. -/
theorem reads_independent_sample : ∃ retrieve : DasiRetrieve (Bool × Bytes),
    newDasiRetrieve ([⟨[], 0, ⟨ascii "abc", 0, 3⟩⟩, ⟨[], 0, ⟨ascii "d", 3, 1⟩⟩].map
      Event.element) = .ok retrieve ∧
    delivered (trace (retrieveStep (storeEckit (min · 2))) (retrieve, ())
      [.next, .read 5, .count, .read 1, .next]) <+: ascii "abcd" := by
  have created : newDasiRetrieve (D := Bool × Bytes)
      ([⟨[], 0, ⟨ascii "abc", 0, 3⟩⟩, ⟨[], 0, ⟨ascii "d", 3, 1⟩⟩].map Event.element) =
      .ok _ := rfl
  have eckit : ReadsConcatenation (storeEckit (min · 2)) _ id _ _ :=
    storeEckit_reads (fun n positive => by omega)
  exact ⟨_, created, (reads_independent eckit created ()
    [.next, .read 5, .count, .read 1, .next]).1⟩

end RetrieveReading
