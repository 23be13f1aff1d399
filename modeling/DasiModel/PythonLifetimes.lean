import DasiModel.PythonHeap

/-!
# What the Python bindings leave behind

The destructors that `ffi.gc` ties to pointers keep the books of the C API: no
statement of a program uses what has been freed, in whatever order the collector
works. One thing escapes them: the key of an item that is being read, when the
read of its data fails. Nothing else is ever leaked.
-/

namespace PythonLifetimes
open Texts Exceptions CHandles CApi NullPointers ObjectLifetimes PythonHeap Triples Machines
open PythonKey (PyObject)
open PythonIterators (ListItem RetrieveItem)

variable {N F P D W A : Type}

/-- A pointer as the objects it leads to, one or none. -/
def handle (kind : Kind) (p : Ptr) : List (Kind × Address) := (p.map (Prod.mk kind)).toList

/-- The C objects are those with a destructor and some orphans, and variables lead to
objects with a destructor. -/
structure Sound (orphans : List (Kind × Address)) (h : Heap N F D W) : Prop where
  live : ∀ kind p, alive h.world kind p = true ↔ (kind, p) ∈ h.owned ++ orphans
  once : (h.owned ++ orphans).Nodup
  counted : ∀ kind p, (kind, p) ∈ h.owned ++ orphans → p < h.world.fresh
  named : ∀ {name r}, h.names name = some r → handle r.kind r.cdata ⊆ h.owned

/-- The same, with some of the objects in hand. -/
def Holds (orphans held : List (Kind × Address)) (h : Heap N F D W) : Prop :=
  Sound orphans h ∧ held ⊆ h.owned

/-- The exceptions that leave `Retrieve.__read` between its two calls of the library. -/
def readFailed : Failure → Bool
  | .dasiException function _ => function == "dasi_retrieve_read"
  | .valueError => true
  | _ => false

/-- Any other exception, and no new orphan. -/
def Raises (orphans : List (Kind × Address)) (abort : Abort) (h : Heap N F D W) : Prop :=
  (∃ x, abort = .raised x ∧ readFailed x = false) ∧ Sound orphans h

/-- A body that keeps what is in hand. -/
abbrev Steady (orphans held : List (Kind × Address)) (body : PyBody N F D W A) : Prop :=
  Triple (Holds orphans held) body (fun _ => Holds orphans held) (Raises orphans)

/-- A body that hands out a pointer to an object with a destructor. -/
abbrev Yields (orphans held : List (Kind × Address)) (kind : Kind)
    (body : PyBody N F D W Ptr) : Prop :=
  Triple (Holds orphans held) body (fun p => Holds orphans (handle kind p ++ held))
    (Raises orphans)

section Rules
variable {orphans held : List (Kind × Address)}

theorem steady_pure (a : A) : Steady orphans held (pure a : PyBody N F D W A) :=
  .pure fun _ holds => holds

theorem steady_raise {x : Failure} (plain : readFailed x = false) :
    Steady orphans held (raise x : PyBody N F D W A) :=
  .throw fun _ holds => ⟨⟨x, rfl, plain⟩, holds.1⟩

theorem steady_encoded (object : PyObject) :
    Steady orphans held (encoded object : PyBody N F D W Bytes) := by
  rw [encoded]
  split
  · exact steady_pure _
  · exact steady_raise rfl

theorem triple_encodedAll (objects : List PyObject) :
    Triple (Holds orphans held) (encodedAll objects : PyBody N F D W (List Bytes))
      (fun bytes h => bytes.length = objects.length ∧ Holds orphans held h) (Raises orphans) := by
  induction objects with
  | nil => exact .pure fun _ holds => ⟨rfl, holds⟩
  | cons object rest ih =>
    refine (steady_encoded object).bind fun head => ih.bind fun tail => .pure ?_
    rintro h ⟨counts, holds⟩
    exact ⟨congrArg (· + 1) counts, holds⟩

theorem triple_cInt (n : Int) :
    Triple (Holds orphans held) (cInt n : PyBody N F D W Int)
      (fun m h => m = n ∧ Holds orphans held h) (Raises orphans) := by
  rw [cInt]
  split
  · exact .pure fun _ holds => ⟨rfl, holds⟩
  · exact .throw fun _ holds => ⟨⟨_, rfl, rfl⟩, holds.1⟩

theorem steady_cInt (n : Int) : Steady orphans held (cInt n : PyBody N F D W Int) :=
  (triple_cInt n).imp (fun _ holds => holds) (fun _ _ holds => holds.2) (fun _ _ raises => raises)

/-- What concerns neither the C objects nor the variables. -/
theorem sound_world {h : Heap N F D W} {w : World F D W} (sound : Sound orphans h)
    (shape : Shape (alive h.world) h.world.fresh w) (cells : Address) :
    Sound orphans { h with cells := cells, world := w } where
  live := by
    intro kind p
    rw [show alive w = alive h.world from shape.1]
    exact sound.live kind p
  once := sound.once
  counted := by
    intro kind p inside
    rw [show w.fresh = h.world.fresh from shape.2]
    exact sound.counted kind p inside
  named := sound.named

theorem steady_newCell {fill : Address → World F D W → World F D W}
    (keeps : ∀ p w, alive (fill p w) = alive w) (counts : ∀ p w, (fill p w).fresh = w.fresh) :
    Steady orphans held (newCell fill : PyBody N F D W Address) :=
  (Triple.get fun _ holds => holds).bind fun _ =>
    (Triple.modify fun h holds => ⟨sound_world holds.1 ⟨keeps _ h.world, counts _ h.world⟩ _,
      holds.2⟩).bind fun _ => steady_pure _

theorem steady_newHandle : Steady orphans held (newHandle : PyBody N F D W Address) :=
  steady_newCell (fun _ _ => by funext k q; cases k <;> rfl) (fun _ _ => rfl)

theorem steady_newText : Steady orphans held (newText : PyBody N F D W Address) :=
  steady_newCell (fun _ _ => by funext k q; cases k <;> rfl) (fun _ _ => rfl)

theorem steady_newNumber (value : Int) :
    Steady orphans held (newNumber value : PyBody N F D W Address) :=
  steady_newCell (fun _ _ => by funext k q; cases k <;> rfl) (fun _ _ => rfl)

theorem steady_number (p : Address) : Steady orphans held (number p : PyBody N F D W Int) :=
  (Triple.get fun _ holds => holds).bind fun _ => steady_pure _

theorem steady_text (p : Address) : Steady orphans held (text p : PyBody N F D W PyStr) := by
  refine (Triple.get fun _ holds => holds).bind fun h => ?_
  cases h.world.texts p with
  | some bytes => exact steady_pure _
  | none => exact steady_raise rfl

theorem steady_textOrUnknown (p : Address) :
    Steady orphans held (textOrUnknown p : PyBody N F D W PyStr) := by
  refine (Triple.get fun _ holds => holds).bind fun h => ?_
  cases h.world.texts p with
  | some bytes => exact steady_pure _
  | none => exact steady_pure _

/-- A variable leads to an object in hand. -/
theorem triple_reference (name : N) :
    Triple (Holds orphans held) (reference name : PyBody N F D W Reference)
      (fun r => Holds orphans (handle r.kind r.cdata ++ held)) (Raises orphans) := by
  refine (Triple.get (Q := fun s h => s = h ∧ Holds orphans held h)
    fun h holds => ⟨rfl, holds⟩).bind fun s => ?_
  cases hname : s.names name with
  | none => exact .throw fun h holds => ⟨⟨_, rfl, rfl⟩, holds.2.1⟩
  | some r =>
    refine .pure ?_
    rintro h ⟨rfl, sound, inHand⟩
    exact ⟨sound, List.append_subset.mpr ⟨sound.named hname, inHand⟩⟩

end Rules

section Calls
variable {orphans held : List (Kind × Address)} {function : String} {c : Call}

/-- A C function answered with an error code. -/
def Refused (orphans : List (Kind × Address)) (function : String) (abort : Abort)
    (h : Heap N F D W) : Prop :=
  (∃ error, abort = .raised (.dasiException function error)) ∧ Sound orphans h

theorem Refused.raises {abort : Abort} {h : Heap N F D W}
    (plain : readFailed (.dasiException function []) = false)
    (refused : Refused orphans function abort h) : Raises orphans abort h := by
  obtain ⟨⟨error, rfl⟩, sound⟩ := refused
  exact ⟨⟨_, rfl, plain⟩, sound⟩

/-- What a call may be passed: the pointers are asserted, and lead to objects in hand. -/
structure Sent (held : List (Kind × Address)) (c : Call) : Prop where
  asserted : Asserted c
  inside : Inside c
  inHand : ∀ u ∈ uses c, handle u.1 u.2 ⊆ held

theorem did_of_sent (env : Environment F P D W) {h : Heap N F D W} (holds : Holds orphans held h)
    (sent : Sent held c) : Did (alive h.world) h.world.fresh c (runCall env c h.world) := by
  refine call_did env sent.asserted sent.inside (fun u used a here => ?_) ⟨rfl, rfl⟩
  have inside : (u.1, a) ∈ handle u.1 u.2 := by
    rw [here]
    exact List.mem_cons_self
  exact (holds.1.live u.1 a).mpr (List.mem_append_left _ (holds.2 (sent.inHand u used inside)))

theorem sound_made {h : Heap N F D W} {w : World F D W} {kind : Kind} (sound : Sound orphans h)
    (shape : Shape ((alive h.world).put kind h.world.fresh true) (h.world.fresh + 1) w) :
    Sound ((kind, h.world.fresh) :: orphans) { h with world := w } where
  live := by
    intro k q
    rw [show alive w = _ from shape.1, Objects.put, List.perm_middle.mem_iff, List.mem_cons,
      Prod.mk.injEq]
    split
    · rename_i same
      exact iff_of_true rfl (Or.inl same)
    · rename_i other
      rw [sound.live, or_iff_right other]
  once := by
    refine List.perm_middle.nodup_iff.mpr (List.nodup_cons.mpr ⟨fun inside => ?_, sound.once⟩)
    exact Nat.lt_irrefl _ (sound.counted _ _ inside)
  counted := by
    intro k q inside
    have counts : w.fresh = h.world.fresh + 1 := shape.2
    have below : q = h.world.fresh ∨ q < h.world.fresh := by
      rcases List.mem_cons.mp (List.perm_middle.mem_iff.mp inside) with new | old
      · exact Or.inl (Prod.mk.inj new).2
      · exact Or.inr (sound.counted k q old)
    change q < w.fresh
    rw [counts]
    rcases below with rfl | below
    · exact Nat.lt_succ_self _
    · exact Nat.lt_succ_of_lt below
  named := sound.named

theorem sound_gc {h : Heap N F D W} {u : Kind × Address} (sound : Sound (u :: orphans) h) :
    Sound orphans { h with owned := u :: h.owned } where
  live := by
    intro k q
    rw [sound.live, List.perm_middle.mem_iff]
    rfl
  once := List.perm_middle.nodup_iff.mp sound.once
  counted := fun k q inside => sound.counted k q (List.perm_middle.mem_iff.mpr inside)
  named := fun hname => List.Subset.trans (sound.named hname) (List.subset_cons_self _ _)

theorem sound_collected {h : Heap N F D W} {w : World F D W} {kind : Kind} {p : Address}
    (sound : Sound orphans h) (owned : (kind, p) ∈ h.owned)
    (unused : ∀ name, ∀ r ∈ h.names name, ¬ (r.kind = kind ∧ r.cdata = some p))
    (shape : Shape ((alive h.world).put kind p false) h.world.fresh w) :
    Sound orphans { h with owned := h.owned.erase (kind, p), world := w } where
  live := by
    intro k q
    have distinct := List.nodup_append.mp sound.once
    rw [show alive w = _ from shape.1, Objects.put]
    split
    · rename_i same
      obtain ⟨rfl, rfl⟩ := same
      refine iff_of_false Bool.false_ne_true fun inside => ?_
      rcases List.mem_append.mp inside with still | orphan
      · exact (distinct.1.mem_erase_iff.mp still).1 rfl
      · exact distinct.2.2 _ owned _ orphan rfl
    · rename_i other
      have apart : (k, q) ≠ (kind, p) := fun same => other (Prod.mk.inj same)
      rw [sound.live, List.mem_append, List.mem_append, List.mem_erase_of_ne apart]
  once := sound.once.sublist (List.erase_sublist.append_right _)
  counted := by
    intro k q inside
    rw [show w.fresh = h.world.fresh from shape.2]
    exact sound.counted k q ((List.erase_sublist.append_right _).subset inside)
  named := by
    intro name r hname u inside
    have here : ∃ a, r.cdata = some a ∧ u = (r.kind, a) := by
      obtain ⟨a, ha, rfl⟩ := Option.map_eq_some_iff.mp (Option.mem_toList.mp inside)
      exact ⟨a, ha, rfl⟩
    obtain ⟨a, ha, rfl⟩ := here
    refine (List.mem_erase_of_ne fun same => ?_).mpr (sound.named hname inside)
    cases same
    exact unused name r hname ⟨rfl, ha⟩

/-- A call that neither creates nor deletes. -/
theorem triple_call (env : Environment F P D W) (nothing : makes c = none ∧ frees c = none)
    (sent : Sent held c) :
    Triple (Holds orphans held) (call env function c : PyBody N F D W Code)
      (fun _ => Holds orphans held) (Refused orphans function) := by
  intro h holds
  have did := did_of_sent env holds sent
  simp only [ExceptT.run, call]
  cases out : runCall env c h.world with
  | mk exit w =>
    rw [out] at did
    cases did with
    | failed error shape =>
      simp only [error, if_true]
      exact ⟨⟨_, rfl⟩, sound_world holds.1 shape h.cells⟩
    | @kept code _ _ shape =>
      have sound := sound_world holds.1 shape h.cells
      cases error : code.isError with
      | true =>
        simp only [error, if_true]
        exact ⟨⟨_, rfl⟩, sound⟩
      | false =>
        simp only [error, Bool.false_eq_true, if_false]
        exact ⟨sound, holds.2⟩
    | made creates => cases nothing.1.symm.trans creates
    | freed deletes => cases nothing.2.symm.trans deletes

/-- A call that creates an object: until a destructor is tied to it, it is an orphan. -/
theorem triple_call_makes (env : Environment F P D W) {kind : Kind} {cell : Address}
    (creates : makes c = some (kind, cell)) (sent : Sent held c) :
    Triple (Holds orphans held) (call env function c : PyBody N F D W Code)
      (fun _ h => ∃ p, h.world.handles cell = some p ∧ Holds ((kind, p) :: orphans) held h)
      (Refused orphans function) := by
  intro h holds
  have did := did_of_sent env holds sent
  simp only [ExceptT.run, call]
  cases out : runCall env c h.world with
  | mk exit w =>
    rw [out] at did
    cases did with
    | failed error shape =>
      simp only [error, if_true]
      exact ⟨⟨_, rfl⟩, sound_world holds.1 shape h.cells⟩
    | kept nothing => cases nothing.1.symm.trans creates
    | made creates' made =>
      cases creates.symm.trans creates'
      exact ⟨h.world.fresh, made.2, sound_made holds.1 made.1, holds.2⟩
    | freed deletes => cases (frees_uses deletes).2.symm.trans creates

/-- A destructor is tied to the object in a cell. -/
theorem triple_gc {kind : Kind} {cell : Address} {E : Abort → Heap N F D W → Prop} :
    Triple (fun h => ∃ p, h.world.handles cell = some p ∧ Holds ((kind, p) :: orphans) held h)
      (gc kind cell : PyBody N F D W Ptr) (fun p => Holds orphans (handle kind p ++ held)) E := by
  rintro h ⟨p, there, sound, inHand⟩
  change Holds orphans (handle kind (h.world.handles cell) ++ held)
    { h with owned := handle kind (h.world.handles cell) ++ h.owned }
  rw [there]
  refine ⟨sound_gc sound, ?_⟩
  exact List.append_subset.mpr ⟨List.subset_append_left _ _,
    List.Subset.trans inHand (List.subset_append_right _ _)⟩

end Calls

/-- A body after which nothing needs to be in hand. -/
abbrev Ends (orphans held : List (Kind × Address)) (body : PyBody N F D W A) : Prop :=
  Triple (Holds orphans held) body (fun _ => Sound orphans) (Raises orphans)

section Methods
variable {orphans held : List (Kind × Address)} {function : String} {c : Call} {kind : Kind}
  {p : Ptr} (env : Environment F P D W)

theorem ends_of_steady {body : PyBody N F D W A} (steady : Steady orphans held body) :
    Ends orphans held body :=
  steady.imp (fun _ holds => holds) (fun _ _ holds => holds.1) (fun _ _ raises => raises)

theorem ends_pure (a : A) : Ends orphans held (pure a : PyBody N F D W A) :=
  .pure fun _ holds => holds.1

/-- What is not used any more may be put down. -/
theorem of_less {more : List (Kind × Address)} {body : PyBody N F D W A}
    {Q : A → Heap N F D W → Prop} {E : Abort → Heap N F D W → Prop} (less : held ⊆ more)
    (triple : Triple (Holds orphans held) body Q E) : Triple (Holds orphans more) body Q E :=
  triple.imp (fun _ holds => ⟨holds.1, List.Subset.trans less holds.2⟩) (fun _ _ q => q)
    (fun _ _ e => e)

/-- Calls other than the one that reads data. -/
def Plain (function : String) : Prop := readFailed (.dasiException function []) = false

theorem one (inHand : handle kind p ⊆ held) : ∀ u ∈ [(kind, p)], handle u.1 u.2 ⊆ held := by
  intro u inside
  obtain rfl := List.mem_singleton.mp inside
  exact inHand

theorem two {kind' : Kind} {p' : Ptr} (first : handle kind p ⊆ held)
    (second : handle kind' p' ⊆ held) :
    ∀ u ∈ [(kind, p), (kind', p')], handle u.1 u.2 ⊆ held :=
  List.forall_mem_cons.mpr ⟨first, one second⟩

theorem steady_perform (plain : Plain function) (nothing : makes c = none ∧ frees c = none)
    (sent : Sent held c) : Steady orphans held (perform env function c : PyBody N F D W Unit) :=
  .bind ((triple_call env nothing sent).imp (fun _ holds => holds) (fun _ _ holds => holds)
    fun _ _ refused => refused.raises plain) fun _ => steady_pure ()

/-- A new object, which a cell leads to. -/
theorem triple_perform_makes {cell : Address} (plain : Plain function)
    (creates : makes c = some (kind, cell)) (sent : Sent held c) :
    Triple (Holds orphans held) (perform env function c : PyBody N F D W Unit)
      (fun _ h => ∃ p, h.world.handles cell = some p ∧ Holds ((kind, p) :: orphans) held h)
      (Raises orphans) :=
  .bind ((triple_call_makes env creates sent).imp (fun _ holds => holds) (fun _ _ holds => holds)
    fun _ _ refused => refused.raises plain) fun _ => .pure fun _ holds => holds

theorem makeKey_makes (ckey : Address) (key : Option PyStr) :
    Triple (Holds orphans held) (makeKey env ckey key : PyBody N F D W Unit)
      (fun _ h => ∃ p, h.world.handles ckey = some p ∧ Holds ((.key, p) :: orphans) held h)
      (Raises orphans) := by
  have empty := @triple_perform_makes N F P D W orphans held "dasi_new_key" (.newKey (some ckey))
    .key env ckey rfl rfl ⟨trivial, trivial, List.forall_mem_nil _⟩
  cases key with
  | none => exact empty
  | some key =>
    rw [makeKey]
    split
    · exact .bind (steady_encoded _) fun str => triple_perform_makes env rfl rfl
        ⟨trivial, trivial, List.forall_mem_nil _⟩
    · exact empty

theorem newKey_yields (key : Option PyStr) :
    Yields orphans held .key (newKey env key : PyBody N F D W Ptr) :=
  .bind steady_newHandle fun ckey => .bind (makeKey_makes env ckey key) fun _ => triple_gc

theorem keySetItem_steady {key : Ptr} (inHand : handle .key key ⊆ held)
    (keyword value : PyObject) :
    Steady orphans held (keySetItem env key keyword value : PyBody N F D W Unit) :=
  .bind (steady_encoded keyword) fun _ => .bind (steady_encoded value) fun _ =>
    steady_perform env rfl ⟨rfl, rfl⟩ ⟨trivial, trivial, one inHand⟩

theorem keyInsert_steady {key : Ptr} (inHand : handle .key key ⊆ held)
    (keys : List (PyObject × PyObject)) :
    Steady orphans held (keyInsert env key keys : PyBody N F D W Unit) := by
  induction keys with
  | nil => exact steady_pure ()
  | cons item rest ih => exact .bind (keySetItem_steady env inHand _ _) fun _ => ih

theorem initKey_yields (key : KeyInit N) :
    Yields orphans held .key (initKey env key : PyBody N F D W Ptr) := by
  cases key with
  | object name =>
    refine .bind (triple_reference name) fun r => ?_
    by_cases isKey : r.kind = .key
    · rw [if_pos isKey, isKey]
      exact .pure fun _ holds => holds
    · rw [if_neg isKey]
      exact of_less (List.subset_append_right _ _) (newKey_yields env none)
  | text key => exact newKey_yields env (some key)
  | dict items =>
    refine .bind (newKey_yields env none) fun key => ?_
    exact .bind (keyInsert_steady env (List.subset_append_left _ _) items) fun _ =>
      .pure fun _ holds => holds
  | other => exact newKey_yields env none

theorem keyLen_steady {key : Ptr} (inHand : handle .key key ⊆ held) :
    Steady orphans held (keyLen env key : PyBody N F D W Int) :=
  .bind (steady_newNumber 0) fun count => .bind (steady_perform env rfl ⟨rfl, rfl⟩
    ⟨trivial, trivial, one inHand⟩) fun _ => steady_number count

theorem keyRepr_steady {key : Ptr} (inHand : handle .key key ⊆ held) (keyword value : Address)
    (indices : List Nat) (out : PyStr) :
    Steady orphans held (keyRepr env key keyword value indices out : PyBody N F D W PyStr) := by
  induction indices generalizing out with
  | nil => exact steady_pure out
  | cons i rest ih =>
    refine .bind (steady_cInt _) fun n => ?_
    refine .bind (steady_perform env rfl ⟨rfl, rfl⟩ ⟨trivial, trivial, one inHand⟩) fun _ => ?_
    exact .bind (steady_text keyword) fun _ => .bind (steady_text value) fun _ => ih _

theorem keyMethod_ends {key : Ptr} (inHand : handle .key key ⊆ held) (method : KeyMethod N) :
    Ends orphans held (keyMethod env key method : PyBody N F D W Answer) := by
  cases method with
  | setItem keyword value =>
    exact .bind (keySetItem_steady env inHand keyword value) fun _ => ends_pure _
  | getItem keyword =>
    exact .bind steady_newText fun value => .bind (steady_encoded keyword) fun _ =>
      .bind (steady_perform env rfl ⟨rfl, rfl⟩ ⟨trivial, trivial, one inHand⟩) fun _ =>
      .bind (steady_text value) fun _ => ends_pure _
  | delItem keyword =>
    exact .bind (steady_encoded keyword) fun _ => .bind (steady_perform env rfl ⟨rfl, rfl⟩
      ⟨trivial, trivial, one inHand⟩) fun _ => ends_pure _
  | len => exact .bind (keyLen_steady env inHand) fun _ => ends_pure _
  | repr =>
    exact .bind steady_newText fun keyword => .bind steady_newText fun value =>
      .bind (keyLen_steady env inHand) fun _ =>
      .bind (keyRepr_steady env inHand keyword value _ _) fun _ => ends_pure _
  | compare other =>
    refine .bind (triple_reference other) fun r => ?_
    by_cases isKey : r.kind = .key
    · rw [if_pos isKey, isKey]
      exact .bind (steady_newNumber 0) fun value => .bind (steady_perform env rfl ⟨rfl, rfl⟩
        ⟨trivial, trivial, two (List.Subset.trans inHand (List.subset_append_right _ _))
          (List.subset_append_left _ _)⟩) fun _ =>
        .bind (steady_number value) fun _ => ends_pure _
    · rw [if_neg isKey]
      exact ends_pure _
  | insert keys => exact .bind (keyInsert_steady env inHand keys) fun _ => ends_pure _
  | has keyword =>
    exact .bind (steady_newNumber 1) fun has => .bind (steady_encoded keyword) fun _ =>
      .bind (steady_perform env rfl ⟨rfl, rfl⟩ ⟨trivial, trivial, one inHand⟩) fun _ =>
      .bind (steady_number has) fun _ => ends_pure _
  | clear =>
    exact .bind (steady_perform env rfl ⟨rfl, rfl⟩ ⟨trivial, trivial, one inHand⟩) fun _ =>
      ends_pure _

theorem makeQuery_makes (cquery : Address) (query : Option PyStr) :
    Triple (Holds orphans held) (makeQuery env cquery query : PyBody N F D W Unit)
      (fun _ h => ∃ p, h.world.handles cquery = some p ∧ Holds ((.query, p) :: orphans) held h)
      (Raises orphans) := by
  cases query with
  | none => exact triple_perform_makes env rfl rfl ⟨trivial, trivial, List.forall_mem_nil _⟩
  | some query =>
    exact .bind (steady_encoded _) fun str => triple_perform_makes env rfl rfl
      ⟨trivial, trivial, List.forall_mem_nil _⟩

theorem newQuery_yields (query : Option PyStr) :
    Yields orphans held .query (newQuery env query : PyBody N F D W Ptr) :=
  .bind steady_newHandle fun cquery => .bind (makeQuery_makes env cquery query) fun _ => triple_gc

/-- The length that is passed to C is the one of the array. -/
theorem querySetItem_steady {query : Ptr} (inHand : handle .query query ⊆ held)
    (keyword : PyObject) (value : List PyObject) :
    Steady orphans held (querySetItem env query keyword value : PyBody N F D W Unit) := by
  refine .bind (triple_encodedAll value) fun buf => .assume fun counts => ?_
  refine .bind (steady_encoded keyword) fun k => ?_
  refine .bind (triple_cInt _) fun length => .assume fun same => ?_
  have inside : Inside (.querySet query (some k) (some (buf.map some)) length) := by
    change length ≤ ((buf.map some).length : Int)
    rw [List.length_map, counts, same]
  exact steady_perform env rfl ⟨rfl, rfl⟩ ⟨trivial, inside, one inHand⟩

theorem queryInsert_steady {query : Ptr} (inHand : handle .query query ⊆ held)
    (items : List (PyObject × List PyObject)) :
    Steady orphans held (queryInsert env query items : PyBody N F D W Unit) := by
  induction items with
  | nil => exact steady_pure ()
  | cons item rest ih => exact .bind (querySetItem_steady env inHand _ _) fun _ => ih

theorem initQuery_yields (query : QueryInit N) :
    Yields orphans held .query (initQuery env query : PyBody N F D W Ptr) := by
  cases query with
  | object name =>
    refine .bind (triple_reference name) fun r => ?_
    by_cases isQuery : r.kind = .query
    · rw [if_pos isQuery, isQuery]
      exact .pure fun _ holds => holds
    · rw [if_neg isQuery]
      exact of_less (List.subset_append_right _ _) (newQuery_yields env none)
  | text query => exact newQuery_yields env (some query)
  | dict items =>
    refine .bind (newQuery_yields env none) fun query => ?_
    exact .bind (queryInsert_steady env (List.subset_append_left _ _) items) fun _ =>
      .pure fun _ holds => holds
  | other => exact newQuery_yields env none

theorem queryGetValue_ends {query : Ptr} (inHand : handle .query query ⊆ held)
    (keyword : PyObject) (n : Int) :
    Ends orphans held (queryGetValue env query keyword n : PyBody N F D W Answer) := by
  refine .bind steady_newText fun value => .bind (steady_encoded keyword) fun k => ?_
  refine .bind (steady_cInt n) fun number => ?_
  exact .bind (steady_perform env rfl ⟨rfl, rfl⟩ ⟨trivial, trivial, one inHand⟩) fun _ =>
    .bind (steady_text value) fun _ => ends_pure _

theorem ends_zeroOnDasiException {body : PyBody N F D W Int} (ends : Ends orphans held body) :
    Ends orphans held (zeroOnDasiException body) := by
  intro h holds
  have done := ends h holds
  simp only [ExceptT.run, zeroOnDasiException] at done ⊢
  cases out : body h with
  | mk result h' =>
    rw [out] at done
    cases result with
    | ok n => exact done
    | error abort =>
      obtain ⟨⟨x, rfl, plain⟩, sound⟩ := done
      cases x with
      | dasiException function error => exact sound
      | _ => exact ⟨⟨_, rfl, plain⟩, sound⟩

theorem queryMethod_ends {query : Ptr} (inHand : handle .query query ⊆ held)
    (method : QueryMethod) :
    Ends orphans held (queryMethod env query method : PyBody N F D W Answer) := by
  cases method with
  | setItem keyword value =>
    exact .bind (querySetItem_steady env inHand keyword value) fun _ => ends_pure _
  | getItem keyword => exact queryGetValue_ends env inHand keyword 0
  | delItem keyword =>
    exact .bind (steady_encoded keyword) fun _ => .bind (steady_perform env rfl ⟨rfl, rfl⟩
      ⟨trivial, trivial, one inHand⟩) fun _ => ends_pure _
  | len =>
    exact .bind (steady_newNumber 0) fun count => .bind (steady_perform env rfl ⟨rfl, rfl⟩
      ⟨trivial, trivial, one inHand⟩) fun _ => .bind (steady_number count) fun _ => ends_pure _
  | insert items => exact .bind (queryInsert_steady env inHand items) fun _ => ends_pure _
  | append keyword value =>
    exact .bind (steady_encoded keyword) fun _ => .bind (steady_encoded value) fun _ =>
      .bind (steady_perform env rfl ⟨rfl, rfl⟩ ⟨trivial, trivial, one inHand⟩) fun _ =>
      ends_pure _
  | getValue keyword n => exact queryGetValue_ends env inHand keyword n
  | has keyword =>
    exact .bind (steady_newNumber 1) fun has => .bind (steady_encoded keyword) fun _ =>
      .bind (steady_perform env rfl ⟨rfl, rfl⟩ ⟨trivial, trivial, one inHand⟩) fun _ =>
      .bind (steady_number has) fun _ => ends_pure _
  | countValue keyword =>
    refine .bind (ends_zeroOnDasiException ?_) fun _ => .pure fun _ sound => sound
    refine .bind (steady_newNumber 0) fun count => .bind (steady_encoded keyword) fun k => ?_
    have asserted : Asserted (.queryValueCount query (some k) (some count)) := by
      cases query <;> trivial
    exact .bind (steady_perform env rfl ⟨rfl, rfl⟩ ⟨asserted, trivial, one inHand⟩) fun _ =>
      ends_of_steady (steady_number count)
  | clear =>
    exact .bind (steady_perform env rfl ⟨rfl, rfl⟩ ⟨trivial, trivial, one inHand⟩) fun _ =>
      ends_pure _

theorem newDasi_yields (config : PyStr) :
    Yields orphans held .session (newDasi env config : PyBody N F D W Ptr) :=
  .bind steady_newHandle fun _ => .bind (steady_encoded _) fun _ =>
    .bind (triple_perform_makes env rfl rfl ⟨trivial, trivial, List.forall_mem_nil _⟩) fun _ =>
    triple_gc

theorem archive_ends {dasi : Ptr} (inHand : handle .session dasi ⊆ held) (key : KeyInit N)
    {data : PythonArchive.Buffer} (covered : PythonArchive.Covered data) :
    Ends orphans held (archive env dasi key data : PyBody N F D W Answer) := by
  refine .bind (initKey_yields env key) fun ckey => ?_
  cases counted : data.counted with
  | none =>
    simp only [PythonArchive.Buffer.len, counted]
    exact .throw fun _ holds => ⟨⟨_, rfl, rfl⟩, holds.1⟩
  | some n =>
    have inside : Inside (.archive dasi ckey (some data.bytes) n) :=
      Int.ofNat_le.mpr (covered n counted)
    have both := two (List.Subset.trans inHand (List.subset_append_right (handle .key ckey) _))
      (List.subset_append_left (handle .key ckey) held)
    simp only [PythonArchive.Buffer.len, counted]
    exact .bind (steady_perform env rfl ⟨rfl, rfl⟩ ⟨trivial, inside, both⟩) fun _ => ends_pure _

/-- The session and the query of a request. -/
theorem request_inHand {dasi query : Ptr} (inHand : handle .session dasi ⊆ held) :
    ∀ u ∈ [(Kind.session, dasi), (Kind.query, query)],
      handle u.1 u.2 ⊆ handle .query query ++ held :=
  two (List.Subset.trans inHand (List.subset_append_right _ _)) (List.subset_append_left _ _)

/-- The query of a request is put down when the result is there. -/
theorem triple_gc_less {kind : Kind} {cell : Address} {more : List (Kind × Address)}
    {E : Abort → Heap N F D W → Prop} (less : held ⊆ more) :
    Triple (fun h => ∃ p, h.world.handles cell = some p ∧ Holds ((kind, p) :: orphans) more h)
      (gc kind cell : PyBody N F D W Ptr) (fun p => Holds orphans (handle kind p ++ held)) E := by
  refine triple_gc.imp (fun _ holds => holds) (fun p h holds => ⟨holds.1, ?_⟩) (fun _ _ e => e)
  have both := List.append_subset.mp holds.2
  exact List.append_subset.mpr ⟨both.1, List.Subset.trans less both.2⟩

theorem newList_yields {dasi : Ptr} (inHand : handle .session dasi ⊆ held) (query : QueryInit N) :
    Yields orphans held .list (newList env dasi query : PyBody N F D W Ptr) :=
  .bind (initQuery_yields env query) fun _ => .bind steady_newHandle fun _ =>
    .bind (triple_perform_makes env rfl rfl ⟨trivial, trivial, request_inHand inHand⟩) fun _ =>
    triple_gc_less (List.subset_append_right _ _)

theorem newRetrieve_yields {dasi : Ptr} (inHand : handle .session dasi ⊆ held)
    (query : QueryInit N) :
    Yields orphans held .retrieve (newRetrieve env dasi query : PyBody N F D W Ptr) :=
  .bind (initQuery_yields env query) fun _ => .bind steady_newHandle fun _ =>
    .bind (triple_perform_makes env rfl rfl ⟨trivial, trivial, request_inHand inHand⟩) fun _ =>
    triple_gc_less (List.subset_append_right _ _)

theorem newWipe_yields {dasi : Ptr} (inHand : handle .session dasi ⊆ held) (query : QueryInit N)
    (doit all : Bool) :
    Triple (Holds orphans held) (newWipe env dasi query doit all : PyBody N F D W (Ptr × Address))
      (fun out => Holds orphans (handle .wipe out.1 ++ held)) (Raises orphans) :=
  .bind (steady_newNumber _) fun _ => .bind (steady_newNumber _) fun _ =>
    .bind steady_newText fun _ => .bind (initQuery_yields env query) fun _ =>
    .bind steady_newHandle fun _ =>
    .bind (triple_perform_makes env rfl rfl ⟨trivial, trivial, request_inHand inHand⟩) fun _ =>
    .bind (triple_gc_less (List.subset_append_right _ _)) fun _ => .pure fun _ holds => holds

theorem steady_call (plain : Plain function) (nothing : makes c = none ∧ frees c = none)
    (sent : Sent held c) : Steady orphans held (call env function c : PyBody N F D W Code) :=
  (triple_call env nothing sent).imp (fun _ holds => holds) (fun _ _ holds => holds)
    fun _ _ refused => refused.raises plain

theorem listRead_yields {list : Ptr} (inHand : handle .list list ⊆ held) :
    Triple (Holds orphans held) (listRead env list : PyBody N F D W ListItem)
      (fun item => Holds orphans (handle .key item.key ++ held)) (Raises orphans) :=
  .bind steady_newHandle fun _ => .bind steady_newText fun _ => .bind (steady_newNumber 0) fun _ =>
    .bind (steady_newNumber 0) fun _ => .bind (steady_newNumber 0) fun _ =>
    .bind (triple_perform_makes env rfl rfl ⟨trivial, trivial, one inHand⟩) fun _ =>
    .bind triple_gc fun _ => .bind (steady_textOrUnknown _) fun _ =>
    .bind (steady_number _) fun _ => .bind (steady_number _) fun _ =>
    .bind (steady_number _) fun _ => .pure fun _ holds => holds

theorem listNext_yields {list : Ptr} (inHand : handle .list list ⊆ held) :
    Triple (Holds orphans held) (listNext env list : PyBody N F D W ListItem)
      (fun item => Holds orphans (handle .key item.key ++ held)) (Raises orphans) := by
  refine .bind (steady_call env rfl ⟨rfl, rfl⟩ ⟨trivial, trivial, one inHand⟩) fun code => ?_
  split
  · exact .throw fun _ holds => ⟨⟨_, rfl, rfl⟩, holds.1⟩
  · exact listRead_yields env inHand

theorem wipeNext_steady {wipe : Ptr} (inHand : handle .wipe wipe ⊆ held) (value : Ptr) :
    Steady orphans held (wipeNext env wipe value : PyBody N F D W Unit) := by
  refine .bind (steady_call env rfl ⟨rfl, rfl⟩ ⟨trivial, trivial, one inHand⟩) fun code => ?_
  split
  · exact steady_raise rfl
  · exact steady_perform env rfl ⟨rfl, rfl⟩ ⟨trivial, trivial, one inHand⟩

theorem retrieveLen_steady {retrieve : Ptr} (inHand : handle .retrieve retrieve ⊆ held) :
    Steady orphans held (retrieveLen env retrieve : PyBody N F D W Int) :=
  .bind (steady_newNumber 0) fun _ => .bind (steady_perform env rfl ⟨rfl, rfl⟩
    ⟨trivial, trivial, one inHand⟩) fun _ => steady_number _

end Methods

section Reading
variable {orphans held : List (Kind × Address)} (env : Environment F P D W)

/-- How a statement may raise: a failed read leaves the key of the item behind. -/
def Leaves (orphans : List (Kind × Address)) (abort : Abort) (h : Heap N F D W) : Prop :=
  ∃ x, abort = .raised x ∧
    if readFailed x then ∃ p, Sound ((.key, p) :: orphans) h else Sound orphans h

theorem Raises.leaves {abort : Abort} {h : Heap N F D W} (raises : Raises orphans abort h) :
    Leaves orphans abort h := by
  obtain ⟨⟨x, rfl, plain⟩, sound⟩ := raises
  refine ⟨x, rfl, ?_⟩
  rw [plain, if_neg Bool.false_ne_true]
  exact sound

/-- Between the two calls of `Retrieve.__read` the key has no destructor. -/
def Reading (orphans held : List (Kind × Address)) (ckey : Address) (h : Heap N F D W) : Prop :=
  ∃ p, h.world.handles ckey = some p ∧ Holds ((.key, p) :: orphans) held h

section Untouched
variable {P : World F D W → Prop}

theorem keeps_raising (result : Except Exception A) :
    Keeps P (raising result : CBody F D W A) := by
  cases result with
  | ok a => exact .pure a
  | error x => exact .throw _

theorem keeps_asserts (conditions : List (Bool × String)) :
    Keeps P (asserts conditions : CBody F D W Unit) := by
  induction conditions with
  | nil => exact .pure ()
  | cons condition rest ih => exact .bind (keeps_raising _) fun _ => ih

theorem keeps_deref [Stored F D W A] (p : Ptr) : Keeps P (deref p : CBody F D W A) := by
  refine .bind .get fun w => ?_
  split
  · exact .pure _
  · exact .throw _

theorem keeps_tryCatch {body : CBody F D W Code} {w : World F D W} (keeps : Keeps P body)
    (errors : ∀ w text, P w → P { w with errorString := text }) (start : P w) :
    P (tryCatchBody body w).2 := by
  have ends := keeps.run start
  rw [tryCatchBody]
  split
  · rename_i out
    rwa [out] at ends
  · rename_i out
    rw [out] at ends
    exact errors _ _ ends
  · rename_i out
    rwa [out] at ends

/-- No cell of handles is written when data is read. -/
theorem dasiRetrieveRead_handles (retrieve data length : Ptr) (w : World F D W) :
    (dasiRetrieveRead env retrieve data length w).2.handles = w.handles := by
  let Same := fun w' : World F D W => w'.handles = w.handles
  have read : Keeps Same (readNumber length : CBody F D W Int) := by
    cases length with
    | none => exact .throw _
    | some p => exact .bind .get fun _ => .pure _
  have assigned : ∀ r : CHandles.DasiRetrieve D,
      Keeps Same (assignObject retrieve (some r) : CBody F D W Unit) := by
    intro r
    cases retrieve with
    | none => exact .throw _
    | some p => exact .modify fun _ same => same
  have bytes : ∀ bytes, Keeps Same (writeBuffer data bytes : CBody F D W Unit) := by
    intro bytes
    cases data with
    | none => exact .throw _
    | some p => exact .modify fun _ same => same
  have written : ∀ n, Keeps Same (writeNumber length n : CBody F D W Unit) := by
    intro n
    cases length with
    | none => exact .throw _
    | some p => exact .modify fun _ same => same
  refine keeps_tryCatch (P := Same) (.bind (keeps_asserts _) fun _ => .bind read fun n =>
    .bind (keeps_deref retrieve) fun r => .bind .get fun w' => .bind (.modify fun _ same => same)
    fun _ => .bind (assigned _) fun _ => .bind (keeps_raising _) fun out => .bind (bytes _) fun _ =>
    .bind (written _) fun _ => .pure _) (fun _ _ same => same) rfl

end Untouched

theorem call_handles {function : String} {c : Call}
    (keeps : ∀ w, (runCall env c w).2.handles = w.handles) (h : Heap N F D W) :
    ((call env function c : PyBody N F D W Code).run h).2.world.handles = h.world.handles := by
  rw [← keeps h.world]
  simp only [ExceptT.run, call]
  split
  · split
    · rename_i out error
      rw [out]
    · rename_i out error
      rw [out]
  · rename_i out
    rw [out]

/-- The key of a failed read stays without a destructor. -/
theorem Reading.leaves {ckey : Address} {x : Failure} {h : Heap N F D W}
    (failed : readFailed x = true) (reading : Reading orphans held ckey h) :
    Leaves orphans (.raised x) h := by
  obtain ⟨p, -, sound, -⟩ := reading
  refine ⟨x, rfl, ?_⟩
  rw [if_pos failed]
  exact ⟨p, sound⟩

theorem readCall_triple {c : Call} (keeps : ∀ w, (runCall env c w).2.handles = w.handles)
    (nothing : makes c = none ∧ frees c = none) (sent : Sent held c) (ckey : Address) :
    Triple (Reading orphans held ckey)
      (call env "dasi_retrieve_read" c : PyBody N F D W Code)
      (fun _ => Reading orphans held ckey) (Leaves orphans) := by
  rintro h ⟨p, there, holds⟩
  have done := @triple_call N F P D W ((.key, p) :: orphans) held "dasi_retrieve_read" c env
    nothing sent
  have handles := @call_handles N F P D W env "dasi_retrieve_read" c keeps h
  cases out : (call env "dasi_retrieve_read" c : PyBody N F D W Code).run h with
  | mk result h' =>
    rw [out] at handles
    cases result with
    | ok code => exact ⟨p, (congrFun handles ckey).trans there, done.of_ok holds out⟩
    | error abort =>
      obtain ⟨⟨error, rfl⟩, sound⟩ := done.of_error holds out
      refine ⟨_, rfl, ?_⟩
      rw [if_pos (by rfl)]
      exact ⟨p, sound⟩

theorem readData_triple {retrieve : Ptr} (inHand : handle .retrieve retrieve ⊆ held)
    (ckey length : Address) :
    Triple (Reading orphans held ckey) (readData env retrieve length : PyBody N F D W Address)
      (fun _ => Reading orphans held ckey) (Leaves orphans) := by
  have size : Triple (Reading orphans held ckey) (number length : PyBody N F D W Int)
      (fun _ => Reading orphans held ckey) (Leaves orphans) :=
    .bind (.get fun _ reading => reading) fun _ => .pure fun _ reading => reading
  have data : ∀ bytes, Triple (Reading orphans held ckey)
      (newBuffer bytes : PyBody N F D W Address) (fun _ => Reading orphans held ckey)
      (Leaves orphans) := by
    intro bytes
    refine .bind (.get fun _ reading => reading) fun s => .bind (.modify ?_) fun _ =>
      .pure fun _ reading => reading
    rintro h ⟨p, there, sound, inHand⟩
    have shape : Shape (alive h.world) h.world.fresh
        { h.world with buffers := Function.update h.world.buffers s.cells bytes } := by
      refine ⟨?_, rfl⟩
      funext k q
      cases k <;> rfl
    exact ⟨p, there, sound_world sound shape _, inHand⟩
  refine .bind size fun n => ?_
  split
  · exact .throw fun _ reading => reading.leaves rfl
  · refine .bind (data _) fun p => .bind ?_ fun _ => .pure fun _ reading => reading
    exact .bind (readCall_triple env (c := .retrieveRead retrieve (some p) (some length))
      (dasiRetrieveRead_handles env retrieve (some p) (some length)) ⟨rfl, rfl⟩
      ⟨trivial, trivial, one inHand⟩ ckey) fun _ => .pure fun _ reading => reading

theorem leaving {body : PyBody N F D W A} {Q : A → Heap N F D W → Prop}
    (triple : Triple (Holds orphans held) body Q (Raises orphans)) :
    Triple (Holds orphans held) body Q (Leaves orphans) :=
  triple.imp (fun _ holds => holds) (fun _ _ q => q) fun _ _ raises => raises.leaves

/-- Reading an item either ties the key to its destructor or leaves it behind. -/
theorem retrieveRead_triple {retrieve : Ptr} (inHand : handle .retrieve retrieve ⊆ held) :
    Triple (Holds orphans held) (retrieveRead env retrieve : PyBody N F D W RetrieveItem)
      (fun item => Holds orphans (handle .key item.key ++ held)) (Leaves orphans) :=
  .bind (leaving steady_newHandle) fun ckey => .bind (leaving (steady_newNumber 0)) fun _ =>
    .bind (leaving (steady_newNumber 0)) fun _ => .bind (leaving (steady_newNumber 0)) fun length =>
    .bind (leaving (triple_perform_makes env rfl rfl ⟨trivial, trivial, one inHand⟩)) fun _ =>
    .bind (readData_triple env inHand ckey length) fun _ => .bind triple_gc fun _ =>
    .bind (leaving (steady_number _)) fun _ => .bind (leaving (steady_number _)) fun _ =>
    .bind (leaving (steady_number _)) fun _ => .pure fun _ holds => holds

theorem retrieveNext_triple {retrieve : Ptr} (inHand : handle .retrieve retrieve ⊆ held) :
    Triple (Holds orphans held) (retrieveNext env retrieve : PyBody N F D W RetrieveItem)
      (fun item => Holds orphans (handle .key item.key ++ held)) (Leaves orphans) := by
  refine .bind (leaving (steady_call env rfl ⟨rfl, rfl⟩ ⟨trivial, trivial, one inHand⟩))
    fun code => ?_
  split
  · exact leaving (.throw fun _ holds => ⟨⟨_, rfl, rfl⟩, holds.1⟩)
  · exact retrieveRead_triple env inHand

end Reading

section Statements
variable {orphans held : List (Kind × Address)} (env : Environment F P D W)

/-- A statement ends with a sound heap, and with one orphan more if a read failed. -/
abbrev Ended (orphans held : List (Kind × Address)) (body : PyBody N F D W A) : Prop :=
  Triple (Holds orphans held) body (fun _ => Sound orphans) (Leaves orphans)

theorem ended_pure (a : A) {E : Abort → Heap N F D W → Prop} :
    Triple (Sound orphans) (pure a : PyBody N F D W A) (fun _ => Sound orphans) E :=
  .pure fun _ sound => sound

theorem receiver_triple (kind : Kind) (name : N) :
    Triple (Holds orphans held) (receiver kind name : PyBody N F D W Ptr)
      (fun p => Holds orphans (handle kind p ++ held)) (Leaves orphans) := by
  refine leaving (.bind (triple_reference name) fun r => ?_)
  by_cases same : r.kind = kind
  · rw [if_pos same, same]
    exact .pure fun _ holds => holds
  · rw [if_neg same]
    exact .throw fun _ holds => ⟨⟨_, rfl, rfl⟩, holds.1⟩

theorem lenOf_ends {r : Reference} (inHand : handle r.kind r.cdata ⊆ held) :
    Ends orphans held (lenOf env r : PyBody N F D W Answer) := by
  rw [lenOf]
  split
  · rename_i isKey
    rw [isKey] at inHand
    exact keyMethod_ends env inHand .len
  · rename_i isQuery
    rw [isQuery] at inHand
    exact queryMethod_ends env inHand .len
  · exact ends_pure _
  · rename_i isRetrieve
    rw [isRetrieve] at inHand
    exact .bind (retrieveLen_steady env inHand) fun _ => ends_pure _
  · exact ends_pure _
  · exact .throw fun _ holds => ⟨⟨_, rfl, rfl⟩, holds.1⟩

variable [DecidableEq N]

theorem assign_triple {name : N} {r : Reference} {E : Abort → Heap N F D W → Prop}
    (inHand : handle r.kind r.cdata ⊆ held) :
    Triple (Holds orphans held) (assign name r : PyBody N F D W Unit)
      (fun _ => Sound orphans) E := by
  refine .modify ?_
  rintro h ⟨sound, owned⟩
  refine ⟨sound.live, sound.once, sound.counted, ?_⟩
  intro name' r' here
  change Function.update h.names name (some r) name' = some r' at here
  by_cases same : name' = name
  · rw [same, Function.update_self] at here
    cases here
    exact List.Subset.trans inHand owned
  · rw [Function.update_of_ne same] at here
    exact sound.named here

theorem nextOf_ended {item : N} {r : Reference} (inHand : handle r.kind r.cdata ⊆ held) :
    Ended orphans held (nextOf env item r : PyBody N F D W Answer) := by
  rw [nextOf]
  split
  · rename_i isList
    rw [isList] at inHand
    exact .bind (leaving (listNext_yields env inHand)) fun record =>
      .bind (assign_triple (List.subset_append_left _ _)) fun _ => ended_pure _
  · rename_i isRetrieve
    rw [isRetrieve] at inHand
    exact .bind (retrieveNext_triple env inHand) fun record =>
      .bind (assign_triple (List.subset_append_left _ _)) fun _ => ended_pure _
  · rename_i isWipe
    have inHand' := inHand
    rw [isWipe] at inHand
    exact .bind (leaving (wipeNext_steady env inHand r.value)) fun _ =>
      .bind (assign_triple inHand') fun _ => ended_pure _
  · exact leaving (.throw fun _ holds => ⟨⟨_, rfl, rfl⟩, holds.1⟩)

/-- The length of what is archived is not beyond its bytes. -/
def InBounds : Statement N → Prop
  | .archive _ _ data => PythonArchive.Covered data
  | _ => True

theorem exec_ended {statement : Statement N} (inBounds : InBounds statement) :
    Ended orphans [] (exec env statement : PyBody N F D W Answer) := by
  cases statement with
  | dasi name config =>
    exact .bind (leaving (newDasi_yields env config)) fun _ =>
      .bind (assign_triple (List.subset_append_left _ _)) fun _ => ended_pure _
  | key name key =>
    exact .bind (leaving (initKey_yields env key)) fun _ =>
      .bind (assign_triple (List.subset_append_left _ _)) fun _ => ended_pure _
  | query name query =>
    exact .bind (leaving (initQuery_yields env query)) fun _ =>
      .bind (assign_triple (List.subset_append_left _ _)) fun _ => ended_pure _
  | onKey name method =>
    exact .bind (receiver_triple .key name) fun _ =>
      leaving (keyMethod_ends env (List.subset_append_left _ _) method)
  | onQuery name method =>
    exact .bind (receiver_triple .query name) fun _ =>
      leaving (queryMethod_ends env (List.subset_append_left _ _) method)
  | archive dasi key data =>
    exact .bind (receiver_triple .session dasi) fun _ =>
      leaving (archive_ends env (List.subset_append_left _ _) key inBounds)
  | flush dasi =>
    exact .bind (receiver_triple .session dasi) fun _ => leaving (.bind (steady_perform env rfl
      ⟨rfl, rfl⟩ ⟨trivial, trivial, one (List.subset_append_left _ _)⟩) fun _ => ends_pure _)
  | list name dasi query =>
    exact .bind (receiver_triple .session dasi) fun _ =>
      .bind (leaving (newList_yields env (List.subset_append_left _ _) query)) fun _ =>
      .bind (assign_triple (List.subset_append_left _ _)) fun _ => ended_pure _
  | retrieve name dasi query =>
    exact .bind (receiver_triple .session dasi) fun _ =>
      .bind (leaving (newRetrieve_yields env (List.subset_append_left _ _) query)) fun _ =>
      .bind (assign_triple (List.subset_append_left _ _)) fun _ => ended_pure _
  | wipe name dasi query doit all =>
    exact .bind (receiver_triple .session dasi) fun _ =>
      .bind (leaving (newWipe_yields env (List.subset_append_left _ _) query doit all)) fun _ =>
      .bind (assign_triple (List.subset_append_left _ _)) fun _ => ended_pure _
  | next item name =>
    exact .bind (leaving (triple_reference name)) fun _ =>
      nextOf_ended env (List.subset_append_left _ _)
  | len name =>
    exact .bind (leaving (triple_reference name)) fun _ =>
      leaving (lenOf_ends env (List.subset_append_left _ _))
  | value wipe =>
    refine .bind (leaving (triple_reference wipe)) fun r => ?_
    split
    · exact leaving (.bind (steady_textOrUnknown _) fun _ => ends_pure _)
    · exact leaving (.throw fun _ holds => ⟨⟨_, rfl, rfl⟩, holds.1⟩)
  | same name other =>
    exact .bind (leaving (triple_reference other)) fun _ =>
      .bind (assign_triple (List.subset_append_left _ _)) fun _ => ended_pure _
  | del name =>
    refine .bind (leaving (triple_reference name)) fun _ => .bind (Q := fun _ => Sound orphans)
      (.modify ?_) fun _ => ended_pure _
    rintro h ⟨sound, -⟩
    refine ⟨sound.live, sound.once, sound.counted, ?_⟩
    intro name' r here
    change Function.update h.names name none name' = some r at here
    by_cases gone : name' = name
    · rw [gone, Function.update_self] at here
      cases here
    · rw [Function.update_of_ne gone] at here
      exact sound.named here

end Statements

section Runs
variable {orphans : List (Kind × Address)} (env : Environment F P D W)

/-- How many objects an event leaves without a destructor: the key of a failed read. -/
def leaks : Except Abort Answer → Nat
  | .error (.raised x) => if readFailed x then 1 else 0
  | _ => 0

/-- An event ends, and has left as many keys behind as reads have failed. -/
def Accounted (orphans : List (Kind × Address)) (out : Except Abort Answer × Heap N F D W) :
    Prop :=
  out.1 ≠ .error .undefined ∧ ∃ more : List (Kind × Address), more.length = leaks out.1 ∧
    (∀ u ∈ more, u.1 = .key) ∧ Sound (more ++ orphans) out.2

/-- A function that only frees an object succeeds on one that is there. -/
theorem free_body_succeeds [Stored F D W A] {kind : Kind} [Kinded F D W A kind]
    {w : World F D W} {p : Address} (there : alive w kind p = true) (text : String)
    {body : A → CBody F D W Unit} (goes : ∀ a w, ∃ w', (body a).run w = (.ok (), w')) :
    (tryCatchVoid (asserts [((some p : Ptr).isSome, text)] >>= fun _ =>
      deref (some p) >>= body) w).1 = .returned .success := by
  rw [Kinded.shows (A := A) w p] at there
  obtain ⟨object, found⟩ := Option.isSome_iff_exists.mp there
  have passes : (asserts [((some p : Ptr).isSome, text)] : CBody F D W Unit).run w = (.ok (), w) :=
    asserts_pass (by simp)
  have read : (deref (some p) : CBody F D W A).run w = (.ok object, w) := by
    rw [deref_run, Option.bind_some, found]
  obtain ⟨w', ends⟩ := goes object w
  rw [tryCatchVoid, tryCatchBody, run_bind, run_bind, passes]
  simp only [run_bind, read, ends]
  rfl

theorem delete_succeeds [Stored F D W A] {kind : Kind} [Kinded F D W A kind] {w : World F D W}
    {p : Address} (there : alive w kind p = true) (text : String) :
    (tryCatchVoid (asserts [((some p : Ptr).isSome, text)] >>= fun _ =>
      deleteObject A (some p)) w).1 = .returned .success :=
  free_body_succeeds (A := A) there text fun _ _ => ⟨_, rfl⟩

theorem destroy_succeeds [Stored F D W A] {kind : Kind} [Kinded F D W A kind] {w : World F D W}
    {p : Address} (there : alive w kind p = true) (text : String) (destructor : A → W → W) :
    (tryCatchVoid (asserts [((some p : Ptr).isSome, text)] >>= fun _ =>
      destroyObject destructor (some p)) w).1 = .returned .success :=
  free_body_succeeds (A := A) there text fun _ _ => ⟨_, rfl⟩

theorem free_succeeds {w : World F D W} {kind : Kind} {p : Address}
    (there : alive w kind p = true) :
    (runCall env (free kind (some p)).2 w).1 = .returned .success := by
  cases kind with
  | session => exact destroy_succeeds there _ env.destroySession
  | key => exact delete_succeeds (A := DasiKey.Key) there _
  | query => exact delete_succeeds (A := DasiKey.Query) there _
  | list => exact delete_succeeds (A := DasiList) there _
  | retrieve => exact destroy_succeeds there _ (destroyRetrieve env)
  | wipe => exact delete_succeeds (A := DasiWipe) there _
  | purge => exact delete_succeeds (A := DasiPurge) there _

/-- The destructor of what no variable leads to frees it. -/
theorem collect_accounted {h : Heap N F D W} (sound : Sound orphans h) {kind : Kind} {p : Address}
    (collectable : Collectable h (.collect kind p)) :
    Accounted orphans ((collect env kind p).run h) := by
  obtain ⟨owned, unused⟩ := collectable
  have there := (sound.live kind p).mpr (List.mem_append_left _ owned)
  have permitted : Asserted (free kind (some p)).2 ∧ Inside (free kind (some p)).2 ∧
      uses (free kind (some p)).2 = [(kind, some p)] ∧
      frees (free kind (some p)).2 = some (kind, p) := by
    cases kind <;> exact ⟨trivial, trivial, rfl, rfl⟩
  obtain ⟨asserted, inside, used, deletes⟩ := permitted
  have did := call_did env asserted inside (fun u inside a here => by
    rw [used] at inside
    obtain rfl := List.mem_singleton.mp inside
    cases here
    exact there) ⟨rfl, rfl⟩
  have succeeds := free_succeeds env there
  cases out : runCall env (free kind (some p)).2 h.world with
  | mk exit w =>
    rw [out] at did succeeds
    cases succeeds
    have ends : (collect env kind p).run h =
        (.ok .nothing, { h with owned := h.owned.erase (kind, p), world := w }) := by
      simp only [collect, call, ExceptT.run, out]
      rfl
    rw [ends]
    refine ⟨nofun, [], rfl, List.forall_mem_nil _, ?_⟩
    cases did with
    | failed error => cases error
    | kept nothing => cases nothing.2.symm.trans deletes
    | made creates => cases (frees_uses deletes).2.symm.trans creates
    | freed deletes' shape =>
      cases deletes.symm.trans deletes'
      exact sound_collected sound owned unused shape

variable [DecidableEq N]

theorem exec_accounted {h : Heap N F D W} (sound : Sound orphans h) {statement : Statement N}
    (inBounds : InBounds statement) : Accounted orphans ((exec env statement).run h) := by
  have ended : Ended orphans [] (exec env statement) := exec_ended env inBounds
  have holds : Holds orphans [] h := ⟨sound, List.nil_subset _⟩
  cases out : (exec env statement).run h with
  | mk result h' =>
    cases result with
    | ok answer => exact ⟨nofun, [], rfl, List.forall_mem_nil _, ended.of_ok holds out⟩
    | error abort =>
      obtain ⟨x, rfl, left⟩ := ended.of_error holds out
      refine ⟨nofun, ?_⟩
      cases failed : readFailed x with
      | false =>
        rw [failed, if_neg Bool.false_ne_true] at left
        exact ⟨[], by simp [leaks, failed], List.forall_mem_nil _, left⟩
      | true =>
        rw [failed, if_pos rfl] at left
        obtain ⟨p, sound⟩ := left
        exact ⟨[(.key, p)], by simp [leaks, failed], by simp, sound⟩

/-- What is archived is in bounds. -/
def Event.InBounds : Event N → Prop
  | .statement s => PythonLifetimes.InBounds s
  | .collect _ _ => True

theorem step_accounted {h : Heap N F D W} (sound : Sound orphans h) {event : Event N}
    (collectable : Collectable h event) (inBounds : Event.InBounds event) :
    Accounted orphans (step env h event) := by
  cases event with
  | statement s => exact exec_accounted env sound inBounds
  | collect kind p => exact collect_accounted env sound collectable

/-- Whatever a program does and whenever the collector works, no statement is undefined, and
the C objects are those that still have a destructor and one key for each failed read. -/
theorem only_failed_reads_leak {h : Heap N F D W} (sound : Sound orphans h)
    {events : List (Event N)} (inBounds : ∀ event ∈ events, Event.InBounds event)
    (collectable : Refinements.Throughout (step env) Collectable h events) :
    (∀ entry ∈ trace (step env) h events, entry.2 ≠ .error .undefined) ∧
      ∃ more : List (Kind × Address),
        more.length = ((trace (step env) h events).map (fun entry => leaks entry.2)).sum ∧
        (∀ u ∈ more, u.1 = .key) ∧ Sound (more ++ orphans) (after (step env) h events) := by
  induction events generalizing h orphans with
  | nil => exact ⟨List.forall_mem_nil _, [], rfl, List.forall_mem_nil _, sound⟩
  | cons event rest ih =>
    obtain ⟨allowed, later⟩ := collectable
    obtain ⟨here, there⟩ := List.forall_mem_cons.mp inBounds
    obtain ⟨defined, left, counts, keys, kept⟩ := step_accounted env sound allowed here
    obtain ⟨restDefined, more, restCounts, restKeys, ends⟩ := ih kept there later
    refine ⟨?_, more ++ left, ?_, ?_, ?_⟩
    · rw [trace_cons]
      exact List.forall_mem_cons.mpr ⟨defined, restDefined⟩
    · rw [trace_cons, List.map_cons, List.sum_cons, List.length_append, counts, restCounts,
        Nat.add_comm]
    · intro u inside
      rcases List.mem_append.mp inside with new | old
      · exact restKeys u new
      · exact keys u old
    · rw [List.append_assoc]
      exact ends

end Runs

/-- A retrieve finds one element, which cannot be opened. -/
def unreadable : Environment Unit Unit Unit Unit :=
  { idle with
    fdb := { idle.fdb with inspect := fun _ _ w => (.ok [.element ⟨[], 1, default⟩], w) }
    eckit := { idle.eckit with openForRead := fun _ w => (.error .other, (), w) } }

/-- No C object exists, and no variable is bound. -/
def emptyHeap : Heap Bool Unit Unit Unit :=
  ⟨{ oneQuery with queries := fun _ => none, fresh := 0 }, [], 0, fun _ => none⟩

/-- The session, the query, the retrieve and the key of the item are at 0, 1, 2 and 3. -/
def failingRead : List (Event Bool) :=
  [.statement (.dasi false []), .statement (.retrieve true false .other), .collect .query 1,
    .statement (.next true true), .statement (.del true), .collect .retrieve 2,
    .statement (.del false), .collect .session 0]

theorem only_failed_reads_leak_sample :
    (∀ entry ∈ trace (step unreadable) emptyHeap failingRead, entry.2 ≠ .error .undefined) ∧
      ∃ more : List (Kind × Address),
        more.length =
          ((trace (step unreadable) emptyHeap failingRead).map (fun entry => leaks entry.2)).sum ∧
        (∀ u ∈ more, u.1 = .key) ∧
        Sound (more ++ []) (after (step unreadable) emptyHeap failingRead) := by
  have sound : Sound [] emptyHeap := by
    refine ⟨?_, List.nodup_nil, ?_, ?_⟩
    · intro kind p
      cases kind <;> simp [alive, emptyHeap, oneQuery]
    · intro kind p inside
      cases inside
    · intro name r here
      cases here
  have inBounds : ∀ event ∈ failingRead, Event.InBounds event := by
    intro event inside
    simp only [failingRead, List.mem_cons, List.not_mem_nil, or_false] at inside
    rcases inside with rfl | rfl | rfl | rfl | rfl | rfl | rfl | rfl <;> trivial
  apply only_failed_reads_leak unreadable sound inBounds
  refine ⟨trivial, trivial, ⟨?_, ?_⟩, trivial, trivial, ⟨?_, ?_⟩, trivial, ⟨?_, ?_⟩, trivial⟩
  all_goals decide +kernel

end PythonLifetimes
