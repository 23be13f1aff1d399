import DasiModel.Library.Refinements
import Mathlib.Logic.Function.Basic
import Mathlib.Data.List.Basic

/-!
# Stores with pending entries

What a writer has written may be found at once and must be found once the writer
has committed, newer entries masking older ones. A reader goes through what was
found when it was opened. Requests may fail; a write that fails may have been
taken, a commit that fails may have been carried out in part. Over any run, a
committed entry is what every reader delivers until its key is written again.
-/

namespace PendingStores
open Refinements

universe u v w x y z
variable {S : Type u} {K : Type v} {V : Type w} {Q : Type x} {N : Type y} {X : Type z}

/-- What keys lead to, and what writers have written since they last committed. -/
structure Shelf (S : Type u) (K : Type v) (V : Type w) where
  accessible : K → Option V
  pending : S → List (K × V)

section Shelves
variable [DecidableEq S] [DecidableEq K]

/-- Entries laid in turn over what was accessible. -/
def mask (accessible : K → Option V) : List (K × V) → K → Option V
  | [] => accessible
  | entry :: rest => mask (Function.update accessible entry.1 (some entry.2)) rest

namespace Shelf

def write (shelf : Shelf S K V) (s : S) (entry : K × V) : Shelf S K V :=
  { shelf with pending := Function.update shelf.pending s (shelf.pending s ++ [entry]) }

def commit (shelf : Shelf S K V) (s : S) : Shelf S K V :=
  ⟨mask shelf.accessible (shelf.pending s), Function.update shelf.pending s []⟩

/-- A commit that failed: some of the entries are accessible, and all are pending still. -/
def commitPart (shelf : Shelf S K V) (part : List (K × V)) : Shelf S K V :=
  { shelf with accessible := mask shelf.accessible part }

omit [DecidableEq K] in
@[simp] theorem write_pending_self (shelf : Shelf S K V) (s : S) (entry : K × V) :
    (shelf.write s entry).pending s = shelf.pending s ++ [entry] :=
  Function.update_self ..

omit [DecidableEq K] in
theorem write_pending_other (shelf : Shelf S K V) {s s' : S} (other : s ≠ s') (entry : K × V) :
    (shelf.write s' entry).pending s = shelf.pending s :=
  Function.update_of_ne other _ _

@[simp] theorem commit_accessible (shelf : Shelf S K V) (s : S) :
    (shelf.commit s).accessible = mask shelf.accessible (shelf.pending s) := rfl

@[simp] theorem commit_pending_self (shelf : Shelf S K V) (s : S) :
    (shelf.commit s).pending s = [] :=
  Function.update_self ..

theorem commit_pending_other (shelf : Shelf S K V) {s s' : S} (other : s ≠ s') :
    (shelf.commit s').pending s = shelf.pending s :=
  Function.update_of_ne other _ _

omit [DecidableEq S] [DecidableEq K] in
/-- What may be found under a key. -/
def Visible (shelf : Shelf S K V) (k : K) (v : V) : Prop :=
  shelf.accessible k = some v ∨ ∃ s, (k, v) ∈ shelf.pending s

end Shelf

/-- None of the entries is for the key. -/
def Untouched (k : K) (entries : List (K × V)) : Prop := ∀ entry ∈ entries, entry.1 ≠ k

theorem mask_untouched {k : K} {entries : List (K × V)} (untouched : Untouched k entries)
    (accessible : K → Option V) : mask accessible entries k = accessible k := by
  induction entries generalizing accessible with
  | nil => rfl
  | cons entry rest ih =>
    obtain ⟨here, later⟩ := List.forall_mem_cons.mp untouched
    rw [mask, ih later, Function.update_of_ne (Ne.symm here)]

/-- The last entry of a key is what the key leads to. -/
theorem mask_last {k : K} {v : V} {before after : List (K × V)} (untouched : Untouched k after)
    (accessible : K → Option V) : mask accessible (before ++ (k, v) :: after) k = some v := by
  induction before generalizing accessible with
  | nil => rw [List.nil_append, mask, mask_untouched untouched, Function.update_self]
  | cons entry rest ih => exact ih _

theorem mask_append (accessible : K → Option V) (left right : List (K × V)) :
    mask accessible (left ++ right) = mask (mask accessible left) right := by
  induction left generalizing accessible with
  | nil => rfl
  | cons entry rest ih => exact ih _

/-- What is found under a key after a commit was found there before, or was committed. -/
theorem mask_cases {k : K} {v : V} {entries : List (K × V)} {accessible : K → Option V}
    (found : mask accessible entries k = some v) :
    accessible k = some v ∨ (k, v) ∈ entries := by
  induction entries generalizing accessible with
  | nil => exact .inl found
  | cons entry rest ih =>
    rcases ih found with old | new
    · by_cases same : k = entry.1
      · subst same
        rw [Function.update_self] at old
        obtain rfl := Option.some.inj old
        exact .inr List.mem_cons_self
      · rw [Function.update_of_ne same] at old
        exact .inl old
    · exact .inr (List.mem_cons_of_mem _ new)

end Shelves

section Specification

/-- A request, by writers `S` or for readers that are called `N`. What stands for nothing that
the store knows is `none`. -/
inductive Request (S : Type u) (K : Type v) (V : Type w) (Q : Type x) (N : Type y) where
  | write (writer : S) (entry : Option (K × V))
  | commit (writer : S)
  /-- Open a reader of keys. -/
  | scan (name : N) (query : Option Q)
  /-- Open a reader of entries. -/
  | read (name : N) (query : Option Q)
  | next (name : N)
  | count (name : N)

inductive Answer (K : Type v) (V : Type w) (X : Type z) where
  | done
  | key (k : K)
  | entry (k : K) (v : V)
  | number (n : Int)
  | stopped
  | unbound
  | failed (x : X)

/-- What a reader has yet to deliver; among keys there may be failures. -/
inductive Reader (K : Type v) (V : Type w) where
  | keys (left : List (Option K))
  | entries (found : List (K × V)) (position : Nat)

structure Store (S : Type u) (K : Type v) (V : Type w) (N : Type y) where
  shelf : Shelf S K V
  readers : N → Option (Reader K V)

/-- Only what a query finds is delivered, and all of it that is accessible. -/
structure Selects (finds : Q → K → Prop) (shelf : Shelf S K V) (q : Q)
    (found : List (K × V)) : Prop where
  sound : ∀ entry ∈ found, finds q entry.1 ∧ shelf.Visible entry.1 entry.2
  complete : ∀ k v, shelf.accessible k = some v → finds q k → ∃ entry ∈ found, entry.1 = k

/-- The same for keys, unless there is a failure among them. -/
structure Scans (finds : Q → K → Prop) (shelf : Shelf S K V) (q : Q)
    (left : List (Option K)) : Prop where
  sound : ∀ k, some k ∈ left → finds q k ∧ ∃ v, shelf.Visible k v
  complete : none ∉ left → ∀ k v, shelf.accessible k = some v → finds q k → some k ∈ left

variable [DecidableEq S] [DecidableEq K] [DecidableEq N]

def Store.onShelf (store : Store S K V N) (shelf : Shelf S K V) : Store S K V N :=
  { store with shelf := shelf }

def Store.bind (store : Store S K V N) (name : N) (reader : Reader K V) : Store S K V N :=
  { store with readers := Function.update store.readers name (some reader) }

/-- What a store may answer, and what it may be then. -/
inductive Allowed (finds : Q → K → Prop) (readable : V → Prop) (a : Store S K V N) :
    Request S K V Q N → Answer K V X → Store S K V N → Prop where
  | written {s : S} {entry : K × V} :
    Allowed finds readable a (.write s (some entry)) .done (a.onShelf (a.shelf.write s entry))
  | writtenUnheard {s : S} {entry : K × V} {x : X} : Allowed finds readable a
    (.write s (some entry)) (.failed x) (a.onShelf (a.shelf.write s entry))
  | refused {s : S} {entry : Option (K × V)} {x : X} :
    Allowed finds readable a (.write s entry) (.failed x) a
  | committed {s : S} :
    Allowed finds readable a (.commit s) .done (a.onShelf (a.shelf.commit s))
  | committedPart {s : S} {part : List (K × V)} {x : X} (first : part <+: a.shelf.pending s) :
    Allowed finds readable a (.commit s) (.failed x) (a.onShelf (a.shelf.commitPart part))
  | scanned {name : N} {q : Q} {left : List (Option K)} (scans : Scans finds a.shelf q left) :
    Allowed finds readable a (.scan name (some q)) .done (a.bind name (.keys left))
  | notScanned {name : N} {q : Option Q} {x : X} :
    Allowed finds readable a (.scan name q) (.failed x) a
  | opened {name : N} {q : Q} {found : List (K × V)} (selects : Selects finds a.shelf q found) :
    Allowed finds readable a (.read name (some q)) .done (a.bind name (.entries found 0))
  | notOpened {name : N} {q : Option Q} {x : X} :
    Allowed finds readable a (.read name q) (.failed x) a
  | key {name : N} {k : K} {left : List (Option K)}
    (ahead : a.readers name = some (.keys (some k :: left))) :
    Allowed finds readable a (.next name) (.key k) (a.bind name (.keys left))
  | broken {name : N} {left : List (Option K)} {x : X}
    (ahead : a.readers name = some (.keys (none :: left))) :
    Allowed finds readable a (.next name) (.failed x) (a.bind name (.keys left))
  | noKeys {name : N} (ahead : a.readers name = some (.keys [])) :
    Allowed finds readable a (.next name) .stopped (a.bind name (.keys []))
  | entry {name : N} {found : List (K × V)} {i : Nat} {k : K} {v : V}
    (ahead : a.readers name = some (.entries found i)) (here : found[i]? = some (k, v))
    (shown : readable v) :
    Allowed finds readable a (.next name) (.entry k v) (a.bind name (.entries found (i + 1)))
  | unreadable {name : N} {found : List (K × V)} {i : Nat} {k : K} {v : V} {x : X}
    (ahead : a.readers name = some (.entries found i)) (here : found[i]? = some (k, v))
    (hidden : ¬ readable v) :
    Allowed finds readable a (.next name) (.failed x) (a.bind name (.entries found (i + 1)))
  | noEntries {name : N} {found : List (K × V)} {i : Nat}
    (ahead : a.readers name = some (.entries found i)) (past : found.length ≤ i) :
    Allowed finds readable a (.next name) .stopped (a.bind name (.entries found (i + 1)))
  | counted {name : N} {found : List (K × V)} {i : Nat}
    (ahead : a.readers name = some (.entries found i)) :
    Allowed finds readable a (.count name) (.number found.length) a
  | uncounted {name : N} {left : List (Option K)} (ahead : a.readers name = some (.keys left)) :
    Allowed finds readable a (.count name) (.number 0) a
  | nextUnbound {name : N} (free : a.readers name = none) :
    Allowed finds readable a (.next name) .unbound a
  | countUnbound {name : N} (free : a.readers name = none) :
    Allowed finds readable a (.count name) .unbound a

/-- What a request may do to the shelf. -/
inductive Moves (shelf : Shelf S K V) : Request S K V Q N → Shelf S K V → Prop where
  | same {request : Request S K V Q N} : Moves shelf request shelf
  | write {s : S} {entry : K × V} : Moves shelf (.write s (some entry)) (shelf.write s entry)
  | commit {s : S} : Moves shelf (.commit s) (shelf.commit s)
  | commitPart {s : S} {part : List (K × V)} (first : part <+: shelf.pending s) :
    Moves shelf (.commit s) (shelf.commitPart part)

variable {finds : Q → K → Prop} {readable : V → Prop} {a b c : Store S K V N}

theorem Allowed.moves {request : Request S K V Q N} {answer : Answer K V X}
    (allowed : Allowed finds readable a request answer b) : Moves a.shelf request b.shelf := by
  cases allowed with
  | written | writtenUnheard => exact .write
  | committed => exact .commit
  | committedPart first => exact .commitPart first
  | _ => exact .same

end Specification

section Entries
variable [DecidableEq S] [DecidableEq K]

/-- Pending entries have been written, or were pending before. -/
theorem Moves.pending {shelf shelf' : Shelf S K V} {request : Request S K V Q N}
    (moves : Moves shelf request shelf') {s : S} {entry : K × V}
    (inside : entry ∈ shelf'.pending s) :
    entry ∈ shelf.pending s ∨ request = .write s (some entry) := by
  cases moves with
  | same => exact .inl inside
  | commitPart first => exact .inl inside
  | @write s' entry' =>
    by_cases same : s = s'
    · subst same
      rw [Shelf.write_pending_self] at inside
      rcases List.mem_append.mp inside with old | new
      · exact .inl old
      · obtain rfl := List.mem_singleton.mp new
        exact .inr rfl
    · rw [Shelf.write_pending_other _ same] at inside
      exact .inl inside
  | @commit s' =>
    by_cases same : s = s'
    · subst same
      rw [Shelf.commit_pending_self] at inside
      cases inside
    · rw [Shelf.commit_pending_other _ same] at inside
      exact .inl inside

/-- What is visible has been written, or was visible before. -/
theorem Moves.visible {shelf shelf' : Shelf S K V} {request : Request S K V Q N}
    (moves : Moves shelf request shelf') {k : K} {v : V} (visible : shelf'.Visible k v) :
    shelf.Visible k v ∨ ∃ s, request = .write s (some (k, v)) := by
  rcases visible with found | ⟨s, inside⟩
  · cases moves with
    | same => exact .inl (.inl found)
    | write => exact .inl (.inl found)
    | @commit s =>
      rcases mask_cases found with old | new
      · exact .inl (.inl old)
      · exact .inl (.inr ⟨s, new⟩)
    | @commitPart s part first =>
      rcases mask_cases found with old | new
      · exact .inl (.inl old)
      · exact .inl (.inr ⟨s, first.subset new⟩)
  · rcases moves.pending inside with old | written
    · exact .inl (.inr ⟨s, old⟩)
    · exact .inr ⟨s, written⟩

/-- A value is the newest of a key: nobody else has the key pending, and the writer has it
pending with this value last, or not at all while it leads to this value. -/
structure Newest (s : S) (k : K) (v : V) (shelf : Shelf S K V) : Prop where
  others : ∀ s', s' ≠ s → Untouched k (shelf.pending s')
  last : (∃ before after, shelf.pending s = before ++ (k, v) :: after ∧ Untouched k after) ∨
    (Untouched k (shelf.pending s) ∧ shelf.accessible k = some v)

omit [DecidableEq S] [DecidableEq K] in
/-- Where the newest value of a key is not pending, nothing else is found. -/
theorem visible_of_newest {s : S} {k : K} {v : V} {shelf : Shelf S K V}
    (newest : Newest s k v shelf) (settled : Untouched k (shelf.pending s)) :
    shelf.accessible k = some v ∧ ∀ v', shelf.Visible k v' → v' = v := by
  have found : shelf.accessible k = some v := by
    rcases newest.last with ⟨before, after, split, -⟩ | ⟨-, found⟩
    · have inside : (k, v) ∈ shelf.pending s := by
        rw [split]
        exact List.mem_append_right _ List.mem_cons_self
      exact absurd rfl (settled _ inside)
    · exact found
  refine ⟨found, ?_⟩
  rintro v' (same | ⟨s', inside⟩)
  · exact (Option.some.inj (found.symm.trans same)).symm
  · by_cases own : s' = s
    · subst own
      exact absurd rfl (settled _ inside)
    · exact absurd rfl (newest.others s' own _ inside)

/-- The request does not write the key. -/
def Request.Spares (k : K) (request : Request S K V Q N) : Prop :=
  ∀ s v, request ≠ .write s (some (k, v))

omit [DecidableEq S] [DecidableEq K] in
theorem untouched_append {k : K} {left right : List (K × V)} (first : Untouched k left)
    (second : Untouched k right) : Untouched k (left ++ right) := by
  intro entry inside
  rcases List.mem_append.mp inside with old | new
  · exact first entry old
  · exact second entry new

/-- Where a key is not pending, requests that spare it leave it so. -/
theorem Moves.untouched {shelf shelf' : Shelf S K V} {request : Request S K V Q N}
    (moves : Moves shelf request shelf') {k : K} (spares : request.Spares k) {s : S}
    (untouched : Untouched k (shelf.pending s)) : Untouched k (shelf'.pending s) := by
  rintro ⟨k', v⟩ inside same
  obtain rfl : k' = k := same
  rcases moves.pending inside with old | written
  · exact untouched _ old rfl
  · exact spares s v written

/-- The newest value stays the newest until the key is written again. -/
theorem Moves.newest {shelf shelf' : Shelf S K V} {request : Request S K V Q N}
    (moves : Moves shelf request shelf') {s : S} {k : K} {v : V} (spares : request.Spares k)
    (newest : Newest s k v shelf) : Newest s k v shelf' := by
  refine ⟨fun s' other => moves.untouched spares (newest.others s' other), ?_⟩
  cases moves with
  | same => exact newest.last
  | @write s' entry =>
    have apart : Untouched k [entry] := by
      rintro other member rfl
      obtain rfl := List.mem_singleton.mp member
      exact spares s' other.2 rfl
    by_cases same : s = s'
    · subst same
      rw [Shelf.write_pending_self]
      rcases newest.last with ⟨before, after, split, untouched⟩ | ⟨untouched, found⟩
      · refine .inl ⟨before, after ++ [entry], ?_, untouched_append untouched apart⟩
        rw [split, List.append_assoc, List.cons_append]
      · exact .inr ⟨untouched_append untouched apart, found⟩
    · rw [Shelf.write_pending_other _ same]
      exact newest.last
  | @commit s' =>
    by_cases same : s = s'
    · subst same
      refine .inr ⟨?_, ?_⟩
      · rw [Shelf.commit_pending_self]
        exact List.forall_mem_nil _
      · rcases newest.last with ⟨before, after, split, untouched⟩ | ⟨untouched, found⟩
        · rw [Shelf.commit_accessible, split, mask_last untouched]
        · rw [Shelf.commit_accessible, mask_untouched untouched, found]
    · have kept : (shelf.commit s').accessible k = shelf.accessible k :=
        mask_untouched (newest.others s' (Ne.symm same)) _
      rw [Shelf.commit_pending_other _ same, kept]
      exact newest.last
  | @commitPart s' part first =>
    rcases newest.last with pending | ⟨untouched, found⟩
    · exact .inl pending
    · have outside : Untouched k (shelf.pending s') := by
        by_cases same : s' = s
        · exact same ▸ untouched
        · exact newest.others s' same
      have kept : (shelf.commitPart part).accessible k = shelf.accessible k :=
        mask_untouched (fun entry inside => outside entry (first.subset inside)) _
      exact .inr ⟨untouched, kept.trans found⟩

/-- A key that leads somewhere goes on leading somewhere. -/
theorem mask_isSome {k : K} {accessible : K → Option V} (entries : List (K × V))
    (present : (accessible k).isSome) : (mask accessible entries k).isSome := by
  induction entries generalizing accessible with
  | nil => exact present
  | cons entry rest ih =>
    refine ih ?_
    by_cases same : k = entry.1
    · subst same
      rw [Function.update_self]
      rfl
    · rwa [Function.update_of_ne same]

theorem Moves.accessible {shelf shelf' : Shelf S K V} {request : Request S K V Q N}
    (moves : Moves shelf request shelf') {k : K} (present : (shelf.accessible k).isSome) :
    (shelf'.accessible k).isSome := by
  cases moves with
  | same => exact present
  | write => exact present
  | commit => exact mask_isSome _ present
  | commitPart first => exact mask_isSome _ present

theorem mask_of_mem {k : K} {v : V} {entries : List (K × V)} (inside : (k, v) ∈ entries)
    (accessible : K → Option V) : (mask accessible entries k).isSome := by
  induction entries generalizing accessible with
  | nil => cases inside
  | cons entry rest ih =>
    rcases List.mem_cons.mp inside with rfl | later
    · exact mask_isSome rest (by rw [Function.update_self]; rfl)
    · exact ih later _

/-- A key leads somewhere, or the writer has it pending. -/
def Present (s : S) (k : K) (shelf : Shelf S K V) : Prop :=
  (shelf.accessible k).isSome ∨ ∃ v, (k, v) ∈ shelf.pending s

theorem commit_present {shelf : Shelf S K V} {s : S} {k : K} (present : Present s k shelf) :
    ((shelf.commit s).accessible k).isSome := by
  rcases present with found | ⟨v, inside⟩
  · exact mask_isSome _ found
  · exact mask_of_mem inside _

/-- A key stays present, whatever is asked. -/
theorem Moves.present {shelf shelf' : Shelf S K V} {request : Request S K V Q N}
    (moves : Moves shelf request shelf') {s : S} {k : K} (present : Present s k shelf) :
    Present s k shelf' := by
  rcases present with found | ⟨v, inside⟩
  · exact .inl (moves.accessible found)
  · cases moves with
    | same => exact .inr ⟨v, inside⟩
    | commitPart first => exact .inr ⟨v, inside⟩
    | @write s' entry =>
      by_cases same : s = s'
      · subst same
        exact .inr ⟨v, by rw [Shelf.write_pending_self]; exact List.mem_append_left _ inside⟩
      · exact .inr ⟨v, by rwa [Shelf.write_pending_other _ same]⟩
    | @commit s' =>
      by_cases same : s = s'
      · subst same
        exact .inl (commit_present (.inr ⟨v, inside⟩))
      · exact .inr ⟨v, by rwa [Shelf.commit_pending_other _ same]⟩

end Entries

section Readers
variable [DecidableEq S] [DecidableEq K] [DecidableEq N] {finds : Q → K → Prop}
  {readable : V → Prop} {a b c : Store S K V N}

/-- The request opens no reader under the name. -/
def Request.Leaves (name : N) : Request S K V Q N → Prop
  | .scan n _ => n ≠ name
  | .read n _ => n ≠ name
  | _ => True

/-- What a reader of entries answers next. -/
theorem Allowed.next_of_entries {name : N} {found : List (K × V)} {i : Nat} {answer : Answer K V X}
    (ahead : a.readers name = some (.entries found i))
    (allowed : Allowed finds readable a (.next name : Request S K V Q N) answer b) :
    b.readers name = some (.entries found (i + 1)) ∧
      ((∃ k v, found[i]? = some (k, v) ∧ readable v ∧ answer = .entry k v) ∨
        (∃ k v x, found[i]? = some (k, v) ∧ ¬ readable v ∧ answer = .failed x) ∨
        (found.length ≤ i ∧ answer = .stopped)) := by
  cases allowed with
  | entry ahead' here shown =>
    cases ahead.symm.trans ahead'
    exact ⟨Function.update_self .., .inl ⟨_, _, here, shown, rfl⟩⟩
  | unreadable ahead' here hidden =>
    cases ahead.symm.trans ahead'
    exact ⟨Function.update_self .., .inr (.inl ⟨_, _, _, here, hidden, rfl⟩)⟩
  | noEntries ahead' past =>
    cases ahead.symm.trans ahead'
    exact ⟨Function.update_self .., .inr (.inr ⟨past, rfl⟩)⟩
  | key ahead' => cases ahead.symm.trans ahead'
  | broken ahead' => cases ahead.symm.trans ahead'
  | noKeys ahead' => cases ahead.symm.trans ahead'
  | nextUnbound free => cases ahead.symm.trans free

/-- Readers that a request does not name stay where they are. -/
theorem Allowed.readers_other {request : Request S K V Q N} {answer : Answer K V X}
    (allowed : Allowed finds readable a request answer b) {name : N}
    (leaves : request.Leaves name) (other : request ≠ .next name) :
    b.readers name = a.readers name := by
  have apart : ∀ {n : N}, request = .next n → name ≠ n := by
    rintro n rfl rfl
    exact other rfl
  cases allowed with
  | scanned | opened => exact Function.update_of_ne (Ne.symm leaves) _ _
  | key | broken | noKeys | entry | unreadable | noEntries =>
    exact Function.update_of_ne (apart rfl) _ _
  | _ => rfl

/-- A reader of entries has been opened on what was visible then, or was there before. -/
theorem Allowed.readers_found {request : Request S K V Q N} {answer : Answer K V X}
    (allowed : Allowed finds readable a request answer b) {name : N} {found : List (K × V)}
    {i : Nat} (ahead : b.readers name = some (.entries found i)) :
    (∃ i', a.readers name = some (.entries found i')) ∨
      ∃ q, Selects finds a.shelf q found := by
  by_cases same : request = .next name
  · subst same
    cases allowed with
    | entry before | unreadable before | noEntries before =>
      cases (Function.update_self ..).symm.trans ahead
      exact .inl ⟨_, before⟩
    | key | broken | noKeys => cases (Function.update_self ..).symm.trans ahead
    | nextUnbound => exact .inl ⟨i, ahead⟩
  · by_cases leaves : request.Leaves name
    · exact .inl ⟨i, (allowed.readers_other leaves same).symm.trans ahead⟩
    · cases allowed with
      | @opened n q found' selects =>
        obtain rfl : n = name := not_not.mp leaves
        cases (Function.update_self ..).symm.trans ahead
        exact .inr ⟨q, selects⟩
      | @scanned n q left scans =>
        obtain rfl : n = name := not_not.mp leaves
        cases (Function.update_self ..).symm.trans ahead
      | notScanned | notOpened => exact .inl ⟨i, ahead⟩
      | _ => exact absurd trivial leaves

/-- A reader delivers nothing but what was found. -/
theorem delivered_found {run : List (Request S K V Q N × Answer K V X)}
    (runs : Runs (Allowed finds readable) a run c) {name : N} {found : List (K × V)} {i : Nat}
    (ahead : a.readers name = some (.entries found i))
    (leaves : ∀ entry ∈ run, entry.1.Leaves name) {k : K} {v : V}
    (delivered : (.next name, .entry k v) ∈ run) : (k, v) ∈ found := by
  induction runs generalizing i with
  | nil => cases delivered
  | @cons a b c request answer rest allowed _ ih =>
    obtain ⟨here, later⟩ := List.forall_mem_cons.mp leaves
    by_cases same : request = .next name
    · subst same
      obtain ⟨moved, spec⟩ := allowed.next_of_entries ahead
      rcases List.mem_cons.mp delivered with now | afterwards
      · obtain rfl := (Prod.mk.inj now).2
        rcases spec with ⟨k', v', own, -, out⟩ | ⟨_, _, _, -, -, out⟩ | ⟨-, out⟩
        · cases out
          exact List.mem_of_getElem? own
        · cases out
        · cases out
      · exact ih moved later afterwards
    · rcases List.mem_cons.mp delivered with now | afterwards
      · exact absurd (Prod.mk.inj now).1.symm same
      · exact ih ((allowed.readers_other here same).trans ahead) later afterwards

/-- A reader that has stopped has delivered all that can be read. -/
theorem found_delivered {run : List (Request S K V Q N × Answer K V X)}
    (runs : Runs (Allowed finds readable) a run c) {name : N} {found : List (K × V)} {i : Nat}
    (ahead : a.readers name = some (.entries found i))
    (leaves : ∀ entry ∈ run, entry.1.Leaves name)
    (stopped : (.next name, .stopped) ∈ run) {j : Nat} (from_ : i ≤ j) {k : K} {v : V}
    (member : found[j]? = some (k, v)) (shown : readable v) :
    (.next name, .entry k v) ∈ run := by
  induction runs generalizing i with
  | nil => cases stopped
  | @cons a b c request answer rest allowed _ ih =>
    obtain ⟨here, later⟩ := List.forall_mem_cons.mp leaves
    by_cases same : request = .next name
    · subst same
      obtain ⟨moved, spec⟩ := allowed.next_of_entries ahead
      rcases spec with ⟨k', v', own, -, rfl⟩ | ⟨k', v', x, own, hidden, rfl⟩ | ⟨past, rfl⟩
      · rcases Nat.lt_or_eq_of_le from_ with ahead_ | rfl
        · rcases List.mem_cons.mp stopped with now | afterwards
          · cases now
          · exact List.mem_cons_of_mem _ (ih moved later afterwards ahead_)
        · cases own.symm.trans member
          exact List.mem_cons_self
      · rcases Nat.lt_or_eq_of_le from_ with ahead_ | rfl
        · rcases List.mem_cons.mp stopped with now | afterwards
          · cases now
          · exact List.mem_cons_of_mem _ (ih moved later afterwards ahead_)
        · cases own.symm.trans member
          exact absurd shown hidden
      · have room := (List.getElem?_eq_some_iff.mp member).1
        omega
    · rcases List.mem_cons.mp stopped with now | afterwards
      · exact absurd (Prod.mk.inj now).1.symm same
      · exact List.mem_cons_of_mem _
          (ih ((allowed.readers_other here same).trans ahead) later afterwards from_)

/-- What a reader of keys answers next. -/
theorem Allowed.next_of_keys {name : N} {left : List (Option K)} {answer : Answer K V X}
    (ahead : a.readers name = some (.keys left))
    (allowed : Allowed finds readable a (.next name : Request S K V Q N) answer b) :
    b.readers name = some (.keys left.tail) ∧
      ((∃ k, left.head? = some (some k) ∧ answer = .key k) ∨
        (∃ x, left.head? = some none ∧ answer = .failed x) ∨ (left = [] ∧ answer = .stopped)) := by
  cases allowed with
  | key ahead' =>
    cases ahead.symm.trans ahead'
    exact ⟨Function.update_self .., .inl ⟨_, rfl, rfl⟩⟩
  | broken ahead' =>
    cases ahead.symm.trans ahead'
    exact ⟨Function.update_self .., .inr (.inl ⟨_, rfl, rfl⟩)⟩
  | noKeys ahead' =>
    cases ahead.symm.trans ahead'
    exact ⟨Function.update_self .., .inr (.inr ⟨rfl, rfl⟩)⟩
  | entry ahead' => cases ahead.symm.trans ahead'
  | unreadable ahead' => cases ahead.symm.trans ahead'
  | noEntries ahead' => cases ahead.symm.trans ahead'
  | nextUnbound free => cases ahead.symm.trans free

/-- A reader of keys that has stopped has delivered all keys and answered every failure. -/
theorem keys_delivered {run : List (Request S K V Q N × Answer K V X)}
    (runs : Runs (Allowed finds readable) a run c) {name : N} {left : List (Option K)}
    (ahead : a.readers name = some (.keys left)) (leaves : ∀ entry ∈ run, entry.1.Leaves name)
    (stopped : (.next name, .stopped) ∈ run) :
    (∀ k, some k ∈ left → (.next name, .key k) ∈ run) ∧
      (none ∈ left → ∃ x, (.next name, .failed x) ∈ run) := by
  induction runs generalizing left with
  | nil => cases stopped
  | @cons a b c request answer rest allowed _ ih =>
    obtain ⟨here, later⟩ := List.forall_mem_cons.mp leaves
    by_cases same : request = .next name
    · subst same
      obtain ⟨moved, spec⟩ := allowed.next_of_keys ahead
      cases left with
      | nil => exact ⟨fun k inside => absurd inside List.not_mem_nil,
          fun inside => absurd inside List.not_mem_nil⟩
      | cons head tail =>
        have afterwards : (.next name, .stopped) ∈ rest := by
          rcases List.mem_cons.mp stopped with now | afterwards
          · obtain rfl := (Prod.mk.inj now).2
            rcases spec with ⟨k, -, out⟩ | ⟨x, -, out⟩ | ⟨out, -⟩
            · cases out
            · cases out
            · cases out
          · exact afterwards
        obtain ⟨keys, failures⟩ := ih moved later afterwards
        constructor
        · intro k inside
          rcases List.mem_cons.mp inside with rfl | behind
          · rcases spec with ⟨k', head, rfl⟩ | ⟨x, head, -⟩ | ⟨none, -⟩
            · cases head
              exact List.mem_cons_self
            · cases head
            · cases none
          · exact List.mem_cons_of_mem _ (keys k behind)
        · intro inside
          rcases List.mem_cons.mp inside with rfl | behind
          · rcases spec with ⟨k', head, -⟩ | ⟨x, head, rfl⟩ | ⟨none, -⟩
            · cases head
            · exact ⟨x, List.mem_cons_self⟩
            · cases none
          · obtain ⟨x, failed⟩ := failures behind
            exact ⟨x, List.mem_cons_of_mem _ failed⟩
    · have afterwards : (.next name, .stopped) ∈ rest := by
        rcases List.mem_cons.mp stopped with now | afterwards
        · exact absurd (Prod.mk.inj now).1.symm same
        · exact afterwards
      obtain ⟨keys, failures⟩ :=
        ih ((allowed.readers_other here same).trans ahead) later afterwards
      refine ⟨fun k inside => List.mem_cons_of_mem _ (keys k inside), fun inside => ?_⟩
      obtain ⟨x, failed⟩ := failures inside
      exact ⟨x, List.mem_cons_of_mem _ failed⟩

end Readers

section Runs
variable [DecidableEq S] [DecidableEq K] [DecidableEq N] {finds : Q → K → Prop}
  {readable : V → Prop} {a b c : Store S K V N} {run : List (Request S K V Q N × Answer K V X)}

theorem newest_after (runs : Runs (Allowed finds readable) a run c) {s : S} {k : K} {v : V}
    (spared : ∀ entry ∈ run, entry.1.Spares k) (newest : Newest s k v a.shelf) :
    Newest s k v c.shelf :=
  runs.keeps (P := fun a => Newest s k v a.shelf) (Q := fun request _ => request.Spares k)
    (fun allowed spares newest => allowed.moves.newest spares newest) spared newest

/-- A key that a writer does not write stays out of what is pending for it. -/
theorem untouched_after (runs : Runs (Allowed finds readable) a run c) {s : S} {k : K}
    (unwritten : ∀ entry ∈ run, ∀ v, entry.1 ≠ .write s (some (k, v)))
    (untouched : Untouched k (a.shelf.pending s)) : Untouched k (c.shelf.pending s) := by
  refine runs.keeps (P := fun a => Untouched k (a.shelf.pending s))
    (Q := fun request _ => ∀ v, request ≠ .write s (some (k, v)))
    (fun allowed unwritten untouched => ?_) unwritten untouched
  rintro ⟨k', v⟩ inside same
  obtain rfl : k' = k := same
  rcases allowed.moves.pending inside with old | written
  · exact untouched _ old rfl
  · exact unwritten v written

/-- A written and committed entry is delivered by every reader that is opened before the key is
written again, finds it and is gone through, and under its key nothing else. -/
theorem committed_delivered {s : S} {k : K} {v : V} {name : N} {q : Q}
    {r₁ r₂ r₃ r₄ : List (Request S K V Q N × Answer K V X)}
    (runs : Runs (Allowed finds readable) a (r₁ ++ (.write s (some (k, v)), .done) :: (r₂ ++
      (.commit s, .done) :: (r₃ ++ (.read name (some q), .done) :: r₄))) c)
    (start : ∀ s', Untouched k (a.shelf.pending s'))
    (own : ∀ entry ∈ r₁, ∀ s' v', entry.1 = .write s' (some (k, v')) → s' = s)
    (spared : ∀ entry ∈ r₂ ++ r₃, entry.1.Spares k) (finding : finds q k) (shown : readable v)
    (leaves : ∀ entry ∈ r₄, entry.1.Leaves name) (stopped : (.next name, .stopped) ∈ r₄) :
    (.next name, .entry k v) ∈ r₄ ∧ ∀ v', (.next name, .entry k v') ∈ r₄ → v' = v := by
  obtain ⟨spared₂, spared₃⟩ := List.forall_mem_append.mp spared
  obtain ⟨a₁, first, writes⟩ := runs.split
  have alone : ∀ s', s' ≠ s → Untouched k (a₁.shelf.pending s') := fun s' other =>
    untouched_after first (fun entry inside v' write => other (own entry inside s' v' write))
      (start s')
  cases writes with
  | @cons _ a₂ _ _ _ _ write uncommitted =>
  have newest : Newest s k v a₂.shelf := by
    cases write with
    | written =>
      refine ⟨fun s' other => ?_, .inl ⟨a₁.shelf.pending s, [], ?_, List.forall_mem_nil _⟩⟩
      · simp only [Store.onShelf, Shelf.write_pending_other _ other]
        exact alone s' other
      · simp only [Store.onShelf, Shelf.write_pending_self]
  obtain ⟨a₃, second, commits⟩ := uncommitted.split
  cases commits with
  | @cons _ a₄ _ _ _ _ commit committed =>
  have newest₄ := commit.moves.newest (fun _ _ same => by cases same)
    (newest_after second spared₂ newest)
  have settled : Untouched k (a₄.shelf.pending s) := by
    cases commit with
    | committed =>
      simp only [Store.onShelf, Shelf.commit_pending_self]
      exact List.forall_mem_nil _
  obtain ⟨a₅, third, opens⟩ := committed.split
  have newest₅ := newest_after third spared₃ newest₄
  have settled₅ := untouched_after third (fun entry inside v' => spared₃ entry inside s v') settled
  cases opens with
  | @cons _ a₆ _ _ _ _ open_ reading =>
  cases open_ with
  | @opened _ _ found selects =>
    have ahead : (a₅.bind name (.entries found 0)).readers name = some (.entries found 0) :=
      Function.update_self ..
    have only : ∀ v', (k, v') ∈ found → v' = v := fun v' inside =>
      (visible_of_newest newest₅ settled₅).2 v' (selects.sound _ inside).2
    obtain ⟨⟨k', v'⟩, inside, rfl⟩ := selects.complete k v
      (visible_of_newest newest₅ settled₅).1 finding
    obtain rfl := only v' inside
    obtain ⟨j, member⟩ := List.mem_iff_getElem?.mp inside
    exact ⟨found_delivered reading ahead leaves stopped (Nat.zero_le j) member shown,
      fun v' delivered => only v' (delivered_found reading ahead leaves delivered)⟩

/-- A committed key is delivered by every later reader of keys that finds it and is gone
through without a failure. -/
theorem committed_listed {s : S} {k : K} {v : V} {name : N} {q : Q}
    {r₁ r₂ r₃ r₄ : List (Request S K V Q N × Answer K V X)}
    (runs : Runs (Allowed finds readable) a (r₁ ++ (.write s (some (k, v)), .done) :: (r₂ ++
      (.commit s, .done) :: (r₃ ++ (.scan name (some q), .done) :: r₄))) c)
    (finding : finds q k) (leaves : ∀ entry ∈ r₄, entry.1.Leaves name)
    (stopped : (.next name, .stopped) ∈ r₄) (sound : ∀ x, (.next name, .failed x) ∉ r₄) :
    (.next name, .key k) ∈ r₄ := by
  obtain ⟨a₁, -, writes⟩ := runs.split
  cases writes with
  | @cons _ a₂ _ _ _ _ write uncommitted =>
  have present : Present s k a₂.shelf := by
    cases write with
    | written =>
      refine .inr ⟨v, ?_⟩
      simp only [Store.onShelf, Shelf.write_pending_self]
      exact List.mem_append_right _ (List.mem_singleton_self _)
  obtain ⟨a₃, second, commits⟩ := uncommitted.split
  have present₃ : Present s k a₃.shelf :=
    second.keeps (P := fun a => Present s k a.shelf) (Q := fun _ _ => True)
      (fun allowed _ present => allowed.moves.present present) (fun _ _ => trivial) present
  cases commits with
  | @cons _ a₄ _ _ _ _ commit committed =>
  have found : (a₄.shelf.accessible k).isSome := by
    cases commit with
    | committed => exact commit_present present₃
  obtain ⟨a₅, third, opens⟩ := committed.split
  have found₅ : (a₅.shelf.accessible k).isSome :=
    third.keeps (P := fun a => (a.shelf.accessible k).isSome) (Q := fun _ _ => True)
      (fun allowed _ found => allowed.moves.accessible found) (fun _ _ => trivial) found
  cases opens with
  | @cons _ a₆ _ _ _ _ open_ reading =>
  cases open_ with
  | @scanned _ _ left scans =>
    have ahead : (a₅.bind name (.keys left)).readers name = some (.keys left) :=
      Function.update_self ..
    obtain ⟨keys, failures⟩ := keys_delivered reading ahead leaves stopped
    have whole : none ∉ left := fun inside =>
      let ⟨x, failed⟩ := failures inside
      sound x failed
    obtain ⟨v', led⟩ := Option.isSome_iff_exists.mp found₅
    exact keys k (scans.complete whole k v' led finding)

/-- Nothing is there but what satisfies `P`. -/
structure Holds (P : K → V → Prop) (a : Store S K V N) : Prop where
  visible : ∀ k v, a.shelf.Visible k v → P k v
  found : ∀ name found i, a.readers name = some (.entries found i) →
    ∀ entry ∈ found, P entry.1 entry.2

theorem Allowed.holds {P : K → V → Prop} {request : Request S K V Q N} {answer : Answer K V X}
    (allowed : Allowed finds readable a request answer b)
    (given : ∀ s k v, request = .write s (some (k, v)) → P k v) (holds : Holds P a) :
    Holds P b := by
  constructor
  · intro k v visible
    rcases allowed.moves.visible visible with old | ⟨s, written⟩
    · exact holds.visible k v old
    · exact given s k v written
  · intro name found i ahead entry inside
    rcases allowed.readers_found ahead with ⟨i', before⟩ | ⟨q, selects⟩
    · exact holds.found name found i' before entry inside
    · exact holds.visible _ _ (selects.sound entry inside).2

/-- Nothing is delivered that has not been written before, or was visible at the start. -/
theorem delivered_written {before after : List (Request S K V Q N × Answer K V X)} {name : N}
    {k : K} {v : V}
    (runs : Runs (Allowed finds readable) a (before ++ (.next name, .entry k v) :: after) c)
    (start : ∀ name, a.readers name = none) :
    a.shelf.Visible k v ∨ ∃ s answer, (.write s (some (k, v)), answer) ∈ before := by
  obtain ⟨b, first, runs⟩ := runs.split
  have holds : Holds (fun k v =>
      a.shelf.Visible k v ∨ ∃ s answer, (.write s (some (k, v)), answer) ∈ before) b := by
    refine first.keeps (P := Holds _) (Q := fun request answer => (request, answer) ∈ before)
      (fun allowed inside holds => allowed.holds ?_ holds) (fun _ inside => inside)
      ⟨fun k v visible => .inl visible, fun name found i ahead => ?_⟩
    · cases (start name).symm.trans ahead
    · rintro s k v rfl
      exact .inr ⟨s, _, inside⟩
  cases runs with
  | cons next runs =>
    cases next with
    | entry ahead here shown =>
      exact holds.found _ _ _ ahead _ (List.mem_of_getElem? here)

end Runs

end PendingStores
