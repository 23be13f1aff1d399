import DasiModel.RucioRetrieval
import DasiModel.Library.Iterators
import DasiModel.Library.ResultCursors

/-!
# What a Rucio retrieval yields

Downloading a DID yields its bytes, finds nothing to download, or fails. The loop
of `next` passes over what cannot be downloaded with the index already moved, so
the answers still to come are those of the entries from the index on. Which file
is read is another matter: it is looked for by name and then by the order of a walk.
-/

namespace RucioIteration
open Texts DirectoryTrees Paths RucioRetrieval Iterators ResultCursors

universe u v
variable {F : Type u} {V : Type v} {settings : Settings F V}

inductive Outcome where
  | bytes (data : Bytes)
  | notDownloadable
  | fails (exc : RetrieveException)

/-- The download of a DID as it is asked for, with its temporary directory. -/
def downloadDid (settings : Settings F V) (name : PyStr) :
    Except RetrieveException (PyStr × Downloaded) :=
  match settings.clients.temporaryDirectory name with
  | .error exc => .error exc
  | .ok tmpdir => (settings.clients.downloadDids
      ⟨settings.did name, tmpdir, true, settings.rse, settings.protocol⟩).map (Prod.mk tmpdir)

/-- The state of the first result, if it is there. -/
def firstState (downloaded : Downloaded) : Option PyStr := downloaded.clientStates.head?.join

/-- The first result does not tell of an incomplete download. -/
def Complete (downloaded : Downloaded) : Prop :=
  ∀ state, firstState downloaded = some state → state = py "DONE" ∨ state = py "ALREADY_DONE"

/-- The file of the DID, where the client wrote it. -/
def ownFile (downloaded : Downloaded) : AtPath := downloaded.ownPath.bind downloaded.fileAt

/-- There is nothing to read. -/
def Gone (file : AtPath) : Prop := file = none ∨ file = some (.error .fileNotFound)

/-- What the clients may do on a DID, and the outcome this stands for. -/
inductive Downloads (settings : Settings F V) (name : PyStr) : Outcome → Prop where
  | bytes {tmpdir : PyStr} {downloaded : Downloaded} {data : Bytes}
    (returned : downloadDid settings name = .ok (tmpdir, downloaded))
    (complete : Complete downloaded)
    (own : ownFile downloaded = some (.ok data)) : Downloads settings name (.bytes data)
  | noFilesDownloaded (raised : downloadDid settings name = .error .noFilesDownloaded) :
    Downloads settings name .notDownloadable
  | fileNotFound (raised : downloadDid settings name = .error .fileNotFound) :
    Downloads settings name .notDownloadable
  | missing {tmpdir : PyStr} {downloaded : Downloaded}
    (returned : downloadDid settings name = .ok (tmpdir, downloaded))
    (complete : Complete downloaded)
    (own : Gone (ownFile downloaded)) : Downloads settings name .notDownloadable
  | raises {exc : RetrieveException}
    (raised : downloadDid settings name = .error exc)
    (other : exc ≠ .noFilesDownloaded ∧ exc ≠ .fileNotFound) :
    Downloads settings name (.fails exc)
  | incomplete {tmpdir : PyStr} {downloaded : Downloaded} {state : PyStr}
    (returned : downloadDid settings name = .ok (tmpdir, downloaded))
    (first : firstState downloaded = some state)
    (unfinished : state ≠ py "DONE" ∧ state ≠ py "ALREADY_DONE") :
    Downloads settings name (.fails (.incomplete (settings.did name) state))
  | unreadable {tmpdir : PyStr} {downloaded : Downloaded} {text : PyStr}
    (returned : downloadDid settings name = .ok (tmpdir, downloaded))
    (complete : Complete downloaded)
    (own : ownFile downloaded = some (.error (.other text))) :
    Downloads settings name (.fails (.other text))

/-- Whatever the clients do on a DID has an outcome. -/
theorem exists_downloads (settings : Settings F V) (name : PyStr) :
    ∃ outcome, Downloads settings name outcome := by
  cases returned : downloadDid settings name with
  | error exc =>
    by_cases first : exc = .noFilesDownloaded
    · exact ⟨_, .noFilesDownloaded (first ▸ returned)⟩
    · by_cases second : exc = .fileNotFound
      · exact ⟨_, .fileNotFound (second ▸ returned)⟩
      · exact ⟨_, .raises returned ⟨first, second⟩⟩
  | ok result =>
    obtain ⟨tmpdir, downloaded⟩ := result
    by_cases complete : Complete downloaded
    · match own : ownFile downloaded with
      | none => exact ⟨_, .missing returned complete (Or.inl own)⟩
      | some (.ok data) => exact ⟨_, .bytes returned complete own⟩
      | some (.error .fileNotFound) => exact ⟨_, .missing returned complete (Or.inr own)⟩
      | some (.error (.other text)) => exact ⟨_, .unreadable returned complete own⟩
    · rw [Complete] at complete
      push Not at complete
      obtain ⟨state, first, unfinished⟩ := complete
      exact ⟨_, .incomplete returned first unfinished⟩

/-- Reading one is as good as reading the other. -/
def ReadAlike (file file' : AtPath) : Prop := file = file' ∨ Gone file ∧ Gone file'

/-- The file that the search comes to, if nothing is at the path of the DID: the first of all
files below the temporary directory, whatever its name. -/
def firstWalked (tmpdir : PyStr) (downloaded : Downloaded) : AtPath :=
  (walked tmpdir downloaded.content).head?.bind (fun file => downloaded.fileAt (fullPath file))

/-- A completed download lets the own file of the DID be found: it is what is at the DID's
path, or else what comes first in the temporary directory. -/
def FindsOwnFile (settings : Settings F V) (name : PyStr) : Prop :=
  ∀ tmpdir downloaded, downloadDid settings name = .ok (tmpdir, downloaded) →
    Complete downloaded →
    (∀ contents, downloaded.fileAt (join tmpdir name) = some contents →
      ReadAlike (some contents) (ownFile downloaded)) ∧
    (downloaded.fileAt (join tmpdir name) = none →
      ReadAlike (firstWalked tmpdir downloaded) (ownFile downloaded))

section Search

/-- The search finds the first file of all. -/
theorem firstFile_eq (levels : List (PyStr × List FileName)) :
    firstFile levels =
      (levels.flatMap (fun level => level.2.map (Prod.mk level.1))).head?.map fullPath := by
  induction levels with
  | nil => rfl
  | cons level levels ih =>
    obtain ⟨root, files⟩ := level
    cases files with
    | nil => simpa [firstFile] using ih
    | cons file files => simp [firstFile, fullPath]

/-- What `dest` reads as. -/
def located (tmpdir name : PyStr) (downloaded : Downloaded) : AtPath :=
  downloaded.fileAt (downloaded.dest tmpdir name)

theorem located_eq (tmpdir name : PyStr) (downloaded : Downloaded) :
    located tmpdir name downloaded =
      (downloaded.fileAt (join tmpdir name)).or (firstWalked tmpdir downloaded) := by
  simp only [located, Downloaded.dest, firstFile_eq, firstWalked, walked, listing]
  cases here : downloaded.fileAt (join tmpdir name) with
  | some contents => simp [here]
  | none =>
    cases (walk (fun path (name : FileName) => join path name.1) tmpdir
        downloaded.content).flatMap (fun level => level.2.map (Prod.mk level.1)) with
    | nil => simp [here]
    | cons file files => simp

/-- Reading what was found, or not. -/
def readFound (file : AtPath) : Except RetrieveException Bytes :=
  match file with
  | none => .error .fileNotFound
  | some contents => contents.mapError ReadException.raised

theorem download_eq (settings : Settings F V) (name : PyStr) : settings.download name =
    match downloadDid settings name with
    | .error exc => .error exc
    | .ok (tmpdir, downloaded) =>
      match (firstState downloaded).filter (fun state => !isComplete state) with
      | some state => .error (.incomplete (settings.did name) state)
      | none => readFound (located tmpdir name downloaded) := by
  rw [Settings.download, downloadDid]
  cases settings.clients.temporaryDirectory name with
  | error exc => rfl
  | ok tmpdir =>
    dsimp only
    cases settings.clients.downloadDids
      ⟨settings.did name, tmpdir, true, settings.rse, settings.protocol⟩ <;> rfl

theorem isComplete_iff (state : PyStr) :
    isComplete state = true ↔ state = py "DONE" ∨ state = py "ALREADY_DONE" := by
  simp [isComplete]

theorem download_of_raised {name : PyStr} {exc : RetrieveException}
    (raised : downloadDid settings name = .error exc) :
    settings.download name = .error exc := by
  rw [download_eq, raised]

/-- `_download` after a download that completed. -/
theorem download_of_complete {name tmpdir : PyStr} {downloaded : Downloaded}
    (returned : downloadDid settings name = .ok (tmpdir, downloaded))
    (complete : Complete downloaded) :
    settings.download name = readFound (located tmpdir name downloaded) := by
  have finished : (firstState downloaded).filter (fun state => !isComplete state) = none := by
    cases first : firstState downloaded with
    | none => rfl
    | some state =>
      have done := (isComplete_iff state).mpr (complete state first)
      rw [Option.filter, done]
      rfl
  rw [download_eq, returned]
  simp only [finished]

theorem download_of_incomplete {name tmpdir state : PyStr} {downloaded : Downloaded}
    (returned : downloadDid settings name = .ok (tmpdir, downloaded))
    (first : firstState downloaded = some state)
    (unfinished : state ≠ py "DONE" ∧ state ≠ py "ALREADY_DONE") :
    settings.download name = .error (.incomplete (settings.did name) state) := by
  have other : isComplete state = false := by
    rw [Bool.eq_false_iff, ne_eq, isComplete_iff]
    exact not_or.mpr unfinished
  rw [download_eq, returned]
  simp only [first, Option.filter, other, Bool.not_false, if_true]

/-- The content is at the path of the DID, or it comes first and nothing is at the path. -/
def Holds (downloaded : Downloaded) (tmpdir name : PyStr) (content : Bytes) : Prop :=
  downloaded.fileAt (join tmpdir name) = some (.ok content) ∨
    downloaded.fileAt (join tmpdir name) = none ∧
      firstWalked tmpdir downloaded = some (.ok content)

theorem download_of_holds {name tmpdir : PyStr} {downloaded : Downloaded} {content : Bytes}
    (returned : downloadDid settings name = .ok (tmpdir, downloaded))
    (complete : Complete downloaded) (holds : Holds downloaded tmpdir name content) :
    settings.download name = .ok content := by
  rw [download_of_complete returned complete, located_eq]
  rcases holds with here | ⟨nothing, first⟩
  · rw [here]
    rfl
  · rw [nothing, first]
    rfl

end Search

section Outcomes

/-- `_download` ends with an outcome. -/
def Outcome.Ends (result : Except RetrieveException Bytes) : Outcome → Prop
  | .bytes data => result = .ok data
  | .notDownloadable => result = .error .noFilesDownloaded ∨ result = .error .fileNotFound
  | .fails exc => result = .error exc ∧ exc ≠ .noFilesDownloaded ∧ exc ≠ .fileNotFound

theorem isSkipped_iff (exc : RetrieveException) :
    exc.isSkipped = true ↔ exc = .noFilesDownloaded ∨ exc = .fileNotFound := by
  cases exc <;> simp [RetrieveException.isSkipped]

theorem readFound_ok_iff (file : AtPath) (data : Bytes) :
    readFound file = .ok data ↔ file = some (.ok data) := by
  rcases file with - | (- | -) | data' <;> simp [readFound, Except.mapError]

theorem readFound_gone_iff (file : AtPath) : readFound file = .error .fileNotFound ↔ Gone file := by
  rcases file with - | (- | -) | data' <;>
    simp [readFound, Except.mapError, Gone, ReadException.raised]

theorem readFound_other_iff (file : AtPath) (text : PyStr) :
    readFound file = .error (.other text) ↔ file = some (.error (.other text)) := by
  rcases file with - | (- | -) | data' <;>
    simp [readFound, Except.mapError, ReadException.raised]

theorem readFound_ne_noFilesDownloaded (file : AtPath) :
    readFound file ≠ .error .noFilesDownloaded := by
  rcases file with - | (- | -) | data' <;>
    simp [readFound, Except.mapError, ReadException.raised]

theorem readAlike_iff (file file' : AtPath) :
    ReadAlike file file' ↔ readFound file = readFound file' := by
  constructor
  · rintro (rfl | ⟨gone, gone'⟩)
    · rfl
    · rw [(readFound_gone_iff _).mpr gone, (readFound_gone_iff _).mpr gone']
  · intro same
    match file' with
    | none =>
      exact Or.inr ⟨(readFound_gone_iff _).mp same, Or.inl rfl⟩
    | some (.error .fileNotFound) =>
      exact Or.inr ⟨(readFound_gone_iff _).mp same, Or.inr rfl⟩
    | some (.error (.other text)) => exact Or.inl ((readFound_other_iff _ _).mp same)
    | some (.ok data) => exact Or.inl ((readFound_ok_iff _ _).mp same)

/-- The search succeeds exactly if what it finds reads like the own file. -/
theorem findsOwnFile_iff {name tmpdir : PyStr} {downloaded : Downloaded}
    (returned : downloadDid settings name = .ok (tmpdir, downloaded))
    (complete : Complete downloaded) : FindsOwnFile settings name ↔
      ReadAlike (located tmpdir name downloaded) (ownFile downloaded) := by
  have condition : FindsOwnFile settings name ↔
      (∀ contents, downloaded.fileAt (join tmpdir name) = some contents →
        ReadAlike (some contents) (ownFile downloaded)) ∧
      (downloaded.fileAt (join tmpdir name) = none →
        ReadAlike (firstWalked tmpdir downloaded) (ownFile downloaded)) := by
    constructor
    · intro finds
      exact finds tmpdir downloaded returned complete
    · intro finds tmpdir' downloaded' returned' _
      rw [returned] at returned'
      cases returned'
      exact finds
  rw [condition, located_eq]
  cases downloaded.fileAt (join tmpdir name) with
  | none => simp
  | some contents => simp

theorem findsOwnFile_of_error {name : PyStr} {exc : RetrieveException}
    (raised : downloadDid settings name = .error exc) : FindsOwnFile settings name := by
  intro tmpdir downloaded returned
  rw [raised] at returned
  cases returned

/-- `_download` ends with the outcome of the DID exactly if its own file can be found. -/
theorem ends_iff {name : PyStr} {outcome : Outcome}
    (downloads : Downloads settings name outcome) :
    outcome.Ends (settings.download name) ↔ FindsOwnFile settings name := by
  cases downloads with
  | bytes returned complete own =>
    rw [findsOwnFile_iff returned complete, download_of_complete returned complete, own,
      readAlike_iff]
    exact Iff.rfl
  | missing returned complete own =>
    rw [findsOwnFile_iff returned complete, download_of_complete returned complete,
      readAlike_iff, (readFound_gone_iff _).mpr own]
    exact or_iff_right (readFound_ne_noFilesDownloaded _)
  | @unreadable tmpdir downloaded text returned complete own =>
    rw [findsOwnFile_iff returned complete, download_of_complete returned complete, own,
      readAlike_iff]
    exact and_iff_left ⟨by simp, by simp⟩
  | noFilesDownloaded raised =>
    exact iff_of_true (Or.inl (download_of_raised raised)) (findsOwnFile_of_error raised)
  | fileNotFound raised =>
    exact iff_of_true (Or.inr (download_of_raised raised)) (findsOwnFile_of_error raised)
  | raises raised other =>
    exact iff_of_true ⟨download_of_raised raised, other⟩ (findsOwnFile_of_error raised)
  | @incomplete tmpdir downloaded state returned first unfinished =>
    have broken : ¬ Complete downloaded :=
      fun complete => not_or.mpr unfinished (complete state first)
    refine iff_of_true ⟨download_of_incomplete returned first unfinished, by simp⟩ ?_
    intro tmpdir' downloaded' returned' complete
    rw [returned] at returned'
    cases returned'
    exact absurd complete broken

end Outcomes

section Calls
variable {outcome : PyStr → Outcome}

/-- The metadata of a DID, or an empty dictionary if they cannot be had. -/
def metadataOf (settings : Settings F V) (name : PyStr) : List (PyStr × V) :=
  match settings.clients.getMetadata settings.scope name with
  | .ok metadata => metadata
  | .error _ => []

/-- What `next` answers on account of an entry; a skipped entry gets no answer. -/
def answerFor (settings : Settings F V) (outcome : PyStr → Outcome) (entry : DidEntry) :
    Option (Except RetrieveException (RucioRetrieveItem V)) :=
  match outcome entry.ownName with
  | .bytes data =>
    some (.ok ⟨settings.scope, entry.ownName, data, metadataOf settings entry.ownName⟩)
  | .notDownloadable => none
  | .fails exc => some (.error exc)

theorem item_eq (settings : Settings F V) (name : PyStr) (data : Bytes) :
    settings.item name data = ⟨settings.scope, name, data, metadataOf settings name⟩ := by
  rw [Settings.item, metadataOf]
  cases settings.clients.getMetadata settings.scope name <;> rfl

/-- The loop answers for the first entry that gets an answer, and stops behind it. -/
theorem nextFrom_spec (retrieve : RucioRetrieve F V) {entries : List DidEntry}
    (ends : ∀ entry ∈ entries,
      (outcome entry.ownName).Ends (retrieve.settings.download entry.ownName)) :
    let answers := answersAt (answerFor retrieve.settings outcome) entries retrieve.index
    ((retrieve.nextFrom entries).1, (retrieve.nextFrom entries).2.index) =
      answers.headD (.error .stopIteration, retrieve.index + entries.length) ∧
    (retrieve.nextFrom entries).2.settings = retrieve.settings ∧
    (retrieve.nextFrom entries).2.didList = retrieve.didList ∧
    ∃ passed, passed ≤ entries.length ∧
      (retrieve.nextFrom entries).2.index = retrieve.index + passed ∧
      answersAt (answerFor retrieve.settings outcome) (entries.drop passed)
        (retrieve.index + passed) = answers.tail := by
  induction entries generalizing retrieve with
  | nil => exact ⟨rfl, rfl, rfl, 0, Nat.zero_le _, rfl, rfl⟩
  | cons entry rest ih =>
    obtain ⟨here, later⟩ := List.forall_mem_cons.mp ends
    rw [RucioRetrieve.nextFrom]
    have one : 1 ≤ (entry :: rest).length := Nat.succ_pos _
    cases case : outcome entry.ownName with
    | bytes data =>
      rw [case] at here
      have answer : answerFor retrieve.settings outcome entry =
          some (.ok (retrieve.settings.item entry.ownName data)) := by
        rw [answerFor, case, item_eq]
      have downloaded : retrieve.settings.download entry.ownName = .ok data := here
      simp only [downloaded, answersAt, answer]
      exact ⟨rfl, trivial, trivial, 1, one, rfl, rfl⟩
    | fails exc =>
      rw [case] at here
      have answer : answerFor retrieve.settings outcome entry = some (.error exc) := by
        rw [answerFor, case]
      obtain ⟨raised, other⟩ := here
      have skipped : exc.isSkipped = false := by
        rw [Bool.eq_false_iff, ne_eq, isSkipped_iff]
        exact not_or.mpr other
      simp only [raised, skipped, Bool.false_eq_true, if_false, answersAt, answer]
      exact ⟨rfl, trivial, trivial, 1, one, rfl, rfl⟩
    | notDownloadable =>
      rw [case] at here
      have answer : answerFor retrieve.settings outcome entry = none := by
        rw [answerFor, case]
      obtain ⟨exc, raised, skipped⟩ : ∃ exc,
          retrieve.settings.download entry.ownName = .error exc ∧ exc.isSkipped = true := by
        rcases here with raised | raised
        · exact ⟨_, raised, rfl⟩
        · exact ⟨_, raised, rfl⟩
      obtain ⟨first, settings, list, passed, few, index, rest'⟩ :=
        ih { retrieve with index := retrieve.index + 1 } later
      have total : retrieve.index + (entry :: rest).length =
          retrieve.index + 1 + rest.length := by
        rw [List.length_cons]
        omega
      have moved : retrieve.index + (passed + 1) = retrieve.index + 1 + passed := by omega
      simp only [raised, skipped, if_true, answersAt, answer, total]
      refine ⟨first, settings, list, passed + 1, ?_, ?_, ?_⟩
      · rw [List.length_cons]
        omega
      · rw [index, moved]
      · rw [moved]
        exact rest'

/-- The answers still to come, with the positions behind their entries. -/
def pending (settings : Settings F V) (outcome : PyStr → Outcome) (retrieve : RucioRetrieve F V) :
    List (Except RetrieveException (RucioRetrieveItem V) × Nat) :=
  answersAt (answerFor settings outcome) (retrieve.didList.drop retrieve.index) retrieve.index

/-- A retrieval with these settings, on these entries, whose DIDs have outcomes. -/
structure Lists (settings : Settings F V) (outcome : PyStr → Outcome) (entries : List DidEntry)
    (retrieve : RucioRetrieve F V) : Prop where
  own : retrieve.settings = settings
  list : retrieve.didList = entries
  inside : retrieve.index ≤ entries.length
  ends : ∀ entry ∈ entries, (outcome entry.ownName).Ends (settings.download entry.ownName)

/-- What a call of `next` answers, and the index it leaves. -/
def nextAnswered (retrieve : RucioRetrieve F V) :
    Except RetrieveException (RucioRetrieveItem V) × Nat :=
  (retrieve.next.1, retrieve.next.2.index)

variable {entries : List DidEntry}

theorem next_pending {retrieve : RucioRetrieve F V}
    (lists : Lists settings outcome entries retrieve) :
    nextAnswered retrieve = (pending settings outcome retrieve).headD
      (.error .stopIteration, entries.length) ∧
    Lists settings outcome entries retrieve.next.2 ∧
    pending settings outcome retrieve.next.2 = (pending settings outcome retrieve).tail := by
  obtain ⟨rfl, rfl, inside, ends⟩ := lists
  have ahead : ∀ entry ∈ retrieve.didList.drop retrieve.index,
      (outcome entry.ownName).Ends (retrieve.settings.download entry.ownName) :=
    fun entry inside => ends entry (List.mem_of_mem_drop inside)
  obtain ⟨first, settings, list, passed, few, index, rest⟩ := nextFrom_spec retrieve ahead
  rw [List.length_drop] at first few
  have total : retrieve.index + (retrieve.didList.length - retrieve.index) =
      retrieve.didList.length := by omega
  rw [total] at first
  refine ⟨first, ⟨settings, list, ?_, ends⟩, ?_⟩
  · rw [RucioRetrieve.next, index]
    omega
  · rw [pending, RucioRetrieve.next, list, index, ← List.drop_drop]
    exact rest

/-- The calls of `next` give the pending answers in turn, and stop behind them. -/
theorem answered_of_lists {retrieve : RucioRetrieve F V}
    (lists : Lists settings outcome entries retrieve) (i : Nat) :
    nextAnswered (stateAfter RucioRetrieve.next retrieve i) =
      (pending settings outcome retrieve)[i]?.getD (.error .stopIteration, entries.length) := by
  have moves : ∀ r, Lists settings outcome entries r →
      Lists settings outcome entries (RucioRetrieve.next r).2 ∧
      pending settings outcome (RucioRetrieve.next r).2 = (pending settings outcome r).tail :=
    fun _ lists => (next_pending lists).2
  exact shown_of_pending (fun _ lists => (next_pending lists).1) moves lists i

/-- One call on a retrieval, as far as the later calls see it. -/
def perform (retrieve : RucioRetrieve F V) : Op → RucioRetrieve F V
  | .iter => retrieve.iter.2
  | .next => retrieve.next.2
  | .len => retrieve

theorem nextFrom_settings (retrieve : RucioRetrieve F V) (entries : List DidEntry) :
    (retrieve.nextFrom entries).2.settings = retrieve.settings := by
  induction entries generalizing retrieve with
  | nil => rfl
  | cons entry rest ih =>
    rw [RucioRetrieve.nextFrom]
    split
    · split
      · exact ih _
      · rfl
    · rfl

theorem perform_settings (retrieve : RucioRetrieve F V) (op : Op) :
    (perform retrieve op).settings = retrieve.settings := by
  cases op with
  | iter =>
    rw [perform, RucioRetrieve.iter]
    split <;> rfl
  | next => exact nextFrom_settings retrieve _
  | len => rfl

theorem history_settings (retrieve : RucioRetrieve F V) (history : List Op) :
    (history.foldl perform retrieve).settings = retrieve.settings := by
  induction history generalizing retrieve with
  | nil => rfl
  | cons op rest ih => exact (ih _).trans (perform_settings retrieve op)

/-- A retrieval that lists these entries answers for them in turn. -/
theorem answered_of_listed {retrieve : RucioRetrieve F V} (own : retrieve.settings = settings)
    (listed : settings.clients.listDids settings.scope settings.filters = .ok entries)
    (ends : ∀ entry ∈ entries,
      (outcome entry.ownName).Ends (settings.download entry.ownName)) :
    retrieve.iter.1 = .ok () ∧
    ∀ i, nextAnswered (stateAfter RucioRetrieve.next retrieve.iter.2 i) =
      (answersAt (answerFor settings outcome) entries 0)[i]?.getD
        (.error .stopIteration, entries.length) := by
  subst own
  rw [retrieve.iter_listed listed]
  exact ⟨rfl, answered_of_lists ⟨rfl, rfl, Nat.zero_le _, ends⟩⟩

/-- The answers alone. -/
theorem call_of_listed {retrieve : RucioRetrieve F V} (own : retrieve.settings = settings)
    (listed : settings.clients.listDids settings.scope settings.filters = .ok entries)
    (ends : ∀ entry ∈ entries,
      (outcome entry.ownName).Ends (settings.download entry.ownName)) :
    retrieve.iter.1 = .ok () ∧ ∀ i, call RucioRetrieve.next retrieve.iter.2 i =
      (entries.filterMap (answerFor settings outcome))[i]?.getD (.error .stopIteration) := by
  obtain ⟨opened, answers⟩ := answered_of_listed own listed ends
  refine ⟨opened, fun i => (congrArg Prod.fst (answers i)).trans ?_⟩
  rw [← map_fst_answersAt _ entries 0, List.getElem?_map]
  cases (answersAt (answerFor settings outcome) entries 0)[i]? <;> rfl

/-- Whatever was called before, after `iter` the calls of `next` answer for the entries in
turn, each at its position, and then stop. -/
def LosesNothing (settings : Settings F V) (outcome : PyStr → Outcome)
    (entries : List DidEntry) : Prop :=
  ∀ history : List Op,
    let retrieve := (history.foldl perform (RucioRetrieve.new settings)).iter
    retrieve.1 = .ok () ∧
    ∀ i, nextAnswered (stateAfter RucioRetrieve.next retrieve.2 i) =
      (answersAt (answerFor settings outcome) entries 0)[i]?.getD
        (.error .stopIteration, entries.length)

/-- The outcome that `_download` makes of a DID. -/
def Outcome.ofResult : Except RetrieveException Bytes → Outcome
  | .ok data => .bytes data
  | .error .noFilesDownloaded | .error .fileNotFound => .notDownloadable
  | .error exc => .fails exc

theorem ends_iff_eq (result : Except RetrieveException Bytes) (o : Outcome) :
    o.Ends result ↔ o = .ofResult result := by
  rcases result with (- | - | - | - | -) | data <;> cases o <;>
    simp [Outcome.Ends, Outcome.ofResult, eq_comm]
  all_goals
    rintro rfl
    simp

/-- What was read or not is no `StopIteration`. -/
theorem ofResult_readFound_ne (file : AtPath) :
    Outcome.ofResult (readFound file) ≠ .fails .stopIteration := by
  rcases file with - | (- | -) | data <;>
    simp [readFound, Except.mapError, ReadException.raised, Outcome.ofResult]

/-- Where `_download` does not end with the outcome of a DID, neither is a `StopIteration`. -/
theorem ofResult_eq_or {name : PyStr} {o : Outcome} (downloads : Downloads settings name o) :
    o = .ofResult (settings.download name) ∨
      o ≠ .fails .stopIteration ∧
        Outcome.ofResult (settings.download name) ≠ .fails .stopIteration := by
  by_cases finds : FindsOwnFile settings name
  · exact Or.inl ((ends_iff_eq _ _).mp ((ends_iff downloads).mpr finds))
  · rw [FindsOwnFile] at finds
    push Not at finds
    obtain ⟨tmpdir, downloaded, returned, complete, -⟩ := finds
    refine Or.inr ⟨?_, ?_⟩
    · rintro rfl
      cases downloads with
      | raises raised =>
        rw [returned] at raised
        cases raised
    · rw [download_of_complete returned complete]
      exact ofResult_readFound_ne _

theorem answerFor_congr {actual : PyStr → Outcome} {entry : DidEntry} :
    answerFor settings outcome entry = answerFor settings actual entry ↔
      outcome entry.ownName = actual entry.ownName := by
  rw [answerFor, answerFor]
  cases outcome entry.ownName <;> cases actual entry.ownName <;> simp

theorem answerFor_ne {entry : DidEntry} (other : outcome entry.ownName ≠ .fails .stopIteration) :
    answerFor settings outcome entry ≠ some (.error .stopIteration) := by
  rw [answerFor]
  cases own : outcome entry.ownName with
  | bytes data => simp
  | notDownloadable => simp
  | fails exc =>
    rw [own] at other
    simpa using other

/-- Retrieving loses and repeats nothing exactly if the own file of every DID that was
downloaded is the one that is found. -/
theorem losesNothing_iff
    (listed : settings.clients.listDids settings.scope settings.filters = .ok entries)
    (outcomes : ∀ entry ∈ entries, Downloads settings entry.ownName (outcome entry.ownName)) :
    LosesNothing settings outcome entries ↔
      ∀ entry ∈ entries, FindsOwnFile settings entry.ownName := by
  constructor
  · intro loses entry inside
    let actual := fun name => Outcome.ofResult (settings.download name)
    have ends : ∀ entry ∈ entries,
        (actual entry.ownName).Ends (settings.download entry.ownName) :=
      fun entry _ => (ends_iff_eq _ _).mpr rfl
    have fresh : (RucioRetrieve.new settings).settings = settings := rfl
    have answers := (answered_of_listed fresh listed ends).2
    have apart : ∀ entry ∈ entries,
        answerFor settings outcome entry = answerFor settings actual entry ∨
          answerFor settings outcome entry ≠ some (.error .stopIteration) ∧
          answerFor settings actual entry ≠ some (.error .stopIteration) := by
      intro entry inside
      rcases ofResult_eq_or (outcomes entry inside) with same | ⟨other, other'⟩
      · exact Or.inl (answerFor_congr.mpr same)
      · exact Or.inr ⟨answerFor_ne other, answerFor_ne other'⟩
    have same := eq_of_answersAt apart (k := 0) (fun i => by
      rw [Nat.zero_add]
      exact ((loses []).2 i).symm.trans (answers i)) entry inside
    exact (ends_iff (outcomes entry inside)).mp ((ends_iff_eq _ _).mpr (answerFor_congr.mp same))
  · intro finds history
    exact answered_of_listed (history_settings _ history) listed
      (fun entry inside => (ends_iff (outcomes entry inside)).mpr (finds entry inside))

end Calls

section Samples

/-- One DID in a sub-directory, one without a replica, one whose download breaks off, and
one whose metadata cannot be had. -/
def sampleEntries : List DidEntry :=
  [⟨some (py "a"), none⟩, ⟨some (py "b"), none⟩, ⟨some (py "c"), none⟩, ⟨none, some (py "d")⟩]

def fileA : FileName := ⟨py "a", by decide⟩

def fileD : FileName := ⟨py "d", by decide⟩

def subDirectory : FileName := ⟨py "sub", by decide⟩

def logFile : FileName := ⟨py "download.log", by decide⟩

/-- A download that left some files, each with its content, and wrote the own one to a path. -/
def left (content : Directory FileName) (files : List (PyStr × Bytes)) (ownPath : PyStr) :
    Downloaded where
  clientStates := [some (py "DONE")]
  content := content
  fileAt path := (files.lookup path).map Except.ok
  ownPath := some ownPath

def sampleSettings : Settings Unit PyStr where
  clients := {
    listDids := fun _ _ => .ok sampleEntries
    temporaryDirectory := fun _ => .ok (py "/tmp/x")
    downloadDids := fun item =>
      if item.did = py "s:a" then
        .ok (left (.dir subDirectory (.file fileA .nil) .nil) [(py "/tmp/x/sub/a", ascii "A")]
          (py "/tmp/x/sub/a"))
      else if item.did = py "s:b" then .error .noFilesDownloaded
      else if item.did = py "s:c" then .ok ⟨[some (py "FAILED")], .nil, fun _ => none, none⟩
      else .ok (left (.file logFile (.file fileD .nil))
        [(py "/tmp/x/download.log", ascii "log"), (py "/tmp/x/d", ascii "D")] (py "/tmp/x/d"))
    getMetadata := fun _ name => if name = py "a" then .ok [(py "k", py "v")] else
      .error (.other (py "DataIdentifierNotFound")) }
  scope := py "s"
  rse := py "MINIORSE"
  protocol := py "s3"
  filters := ()

def sampleOutcome (name : PyStr) : Outcome :=
  if name = py "a" then .bytes (ascii "A")
  else if name = py "b" then .notDownloadable
  else if name = py "c" then .fails (.incomplete (py "s:c") (py "FAILED"))
  else .bytes (ascii "D")

theorem complete_left (content : Directory FileName) (files : List (PyStr × Bytes))
    (ownPath : PyStr) : Complete (left content files ownPath) := by
  rintro state ⟨⟩
  exact Or.inl rfl

theorem sample_downloads : ∀ entry ∈ sampleEntries,
    Downloads sampleSettings entry.ownName (sampleOutcome entry.ownName) := by
  intro entry inside
  simp only [sampleEntries, List.mem_cons, List.not_mem_nil, or_false] at inside
  rcases inside with rfl | rfl | rfl | rfl
  · exact .bytes rfl (complete_left _ _ _) rfl
  · exact .noFilesDownloaded rfl
  · exact .incomplete rfl rfl (by decide)
  · exact .bytes rfl (complete_left _ _ _) rfl

theorem sample_findsOwnFile : ∀ entry ∈ sampleEntries,
    FindsOwnFile sampleSettings entry.ownName := by
  intro entry inside
  simp only [sampleEntries, List.mem_cons, List.not_mem_nil, or_false] at inside
  rcases inside with rfl | rfl | rfl | rfl
  · exact (findsOwnFile_iff rfl (complete_left _ _ _)).mpr (Or.inl rfl)
  · exact findsOwnFile_of_error rfl
  · rintro tmpdir downloaded ⟨⟩ complete
    exact absurd (complete (py "FAILED") rfl) (by decide)
  · exact (findsOwnFile_iff rfl (complete_left _ _ _)).mpr (Or.inl rfl)

theorem losesNothing_iff_sample : LosesNothing sampleSettings sampleOutcome sampleEntries :=
  (losesNothing_iff rfl sample_downloads).mpr sample_findsOwnFile

/-- The download of a DID wrote a log as well, and the own file to a sub-directory. -/
def logSettings : Settings Unit PyStr := { sampleSettings with
  clients := { sampleSettings.clients with
    listDids := fun _ _ => .ok [⟨some (py "a"), none⟩]
    downloadDids := fun _ =>
      .ok (left (.file logFile (.dir subDirectory (.file fileA .nil) .nil))
        [(py "/tmp/x/download.log", ascii "log"), (py "/tmp/x/sub/a", ascii "A")]
        (py "/tmp/x/sub/a")) } }

/-- The log is yielded under the name of the DID. -/
theorem log_for_object :
    logSettings.clients.listDids logSettings.scope logSettings.filters =
      .ok [⟨some (py "a"), none⟩] ∧
    Downloads logSettings (py "a") (.bytes (ascii "A")) ∧
    (RucioRetrieve.new logSettings).iter.2.next.1 =
      .ok ⟨py "s", py "a", ascii "log", [(py "k", py "v")]⟩ ∧
    ¬ LosesNothing logSettings (fun _ => .bytes (ascii "A")) [⟨some (py "a"), none⟩] := by
  refine ⟨rfl, .bytes rfl (complete_left _ _ _) rfl, rfl, ?_⟩
  intro loses
  have first : ((.ok ⟨py "s", py "a", ascii "log", [(py "k", py "v")]⟩, 1) :
      Except RetrieveException (RucioRetrieveItem PyStr) × Nat) =
      (.ok ⟨py "s", py "a", ascii "A", [(py "k", py "v")]⟩, 1) := (loses []).2 0
  have data := congrArg RucioRetrieveItem.data (Except.ok.inj (congrArg Prod.fst first))
  exact absurd data (by decide)

end Samples

end RucioIteration
