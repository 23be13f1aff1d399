import DasiModel.HandleMaps
import DasiModel.Library.Machines

/-!
# The key functions of the C API

A key is a finite map from keywords to values, and its indexes run through the
bindings in the order of the keywords. Listing a key index by index and setting
what is listed on a new key makes an equal key.
-/

namespace KeyMaps
open Texts Exceptions DasiKey OrderedMaps Machines CApi NullPointers HandleMaps

variable {F P D W : Type}

/-- A call of `dasi_new_key` or `dasi_key_*`; the outputs of an index may be null. -/
inductive KeyCall where
  | new (key : Address)
  | set (key : Address) (keyword value : CText)
  | getIndex (key : Address) (n : Int) (keyword value : Ptr)
  | get (key : Address) (keyword : CText) (value : Address)
  | has (key : Address) (keyword : CText) (found : Address)
  | count (key number : Address)
  | erase (key : Address) (keyword : CText)
  | clear (key : Address)

def KeyCall.call : KeyCall → Call
  | .new key => .newKey (some key)
  | .set key keyword value => .keySet (some key) keyword.pointer value.pointer
  | .getIndex key n keyword value => .keyGetIndex (some key) n keyword value
  | .get key keyword value => .keyGet (some key) keyword.pointer (some value)
  | .has key keyword found => .keyHas (some key) keyword.pointer (some found)
  | .count key number => .keyCount (some key) (some number)
  | .erase key keyword => .keyErase (some key) keyword.pointer
  | .clear key => .keyClear (some key)

/-- A text for an output that may be null. -/
def writeOutput (s : Caller Bytes) (cell : Ptr) (text : Bytes) : Caller Bytes :=
  match cell with
  | some cell => s.writeText cell text
  | none => s

/-- The calls as operations on finite maps. -/
def mapStep (s : Caller Bytes) : KeyCall → Outcome × Caller Bytes
  | .new key => s.new key
  | .set key keyword value => s.on key fun m => s.assign key (m.insert keyword.1 value.1)
  | .getIndex key n keyword value =>
    if 0 ≤ n then s.on key fun m =>
      match (inOrder m)[n.toNat]? with
      | some b => (.returned, writeOutput (writeOutput s keyword b.1) value b.2)
      | none => (.refused, s)
    else (.refused, s)
  | .get key keyword value => s.on key fun m =>
    match m.lookup keyword.1 with
    | some text => (.returned, s.writeText value text)
    | none => (.refused, s)
  | .has key keyword found => s.on key fun m =>
    (.returned, s.writeNumber found (if keyword.1 ∈ m then 1 else 0))
  | .count key number => s.on key fun m => (.returned, s.writeNumber number m.keys.card)
  | .erase key keyword => s.on key fun m => s.assign key (m.erase keyword.1)
  | .clear key => s.on key fun _ => s.assign key ∅

/-- The same calls on the library. -/
def keyStep (env : Environment F P D W) (w : World F D W) (c : KeyCall) : Outcome × World F D W :=
  (Outcome.of (runCall env c.call w).1, (runCall env c.call w).2)

section Operations
variable {w : World F D W}

/-- Writing the binding at an index that is inside. -/
theorem runs_binding (keyword value : Ptr) (b : Bytes × Bytes) :
    Runs Key w (tryCatchVoid (do
      if keyword.isSome then writeText keyword b.1
      if value.isSome then writeText value b.2) w)
      (.returned, writeOutput (writeOutput (view Key w) keyword b.1) value b.2) := by
  cases keyword with
  | none =>
    cases value with
    | none => exact .returned rfl
    | some value => exact .returned rfl
  | some keyword =>
    cases value with
    | none => exact .returned rfl
    | some value => exact .returned rfl

theorem runs_index (k : Key) {n : Int} (keyword value : Ptr) :
    Runs Key w (tryCatchVoid (asserts
        [(decide (n.toNat < k.size), "static_cast<size_t>(n) < key->size()")] >>= fun _ =>
      match k.items[n.toNat]? with
      | some binding => do
        if keyword.isSome then writeText keyword binding.1
        if value.isSome then writeText value binding.2
      | none => throw .undefined) w)
      (match (inOrder (contents k))[n.toNat]? with
      | some b => (.returned, writeOutput (writeOutput (view Key w) keyword b.1) value b.2)
      | none => (.refused, view Key w)) := by
  have items : k.items = inOrder (contents k) := (OrderedMap.inOrder_contents k.values).symm
  have size : k.size = (inOrder (contents k)).length := congrArg List.length items
  simp only [items, size]
  by_cases inside : n.toNat < (inOrder (contents k)).length
  · have checked : (asserts [(decide (n.toNat < (inOrder (contents k)).length),
        "static_cast<size_t>(n) < key->size()")] : CBody F D W Unit).run w = (.ok (), w) :=
      asserts_pass (by simpa using inside)
    simp only [void_bind checked, List.getElem?_eq_getElem inside]
    exact runs_binding keyword value _
  · simp only [List.getElem?_eq_none (Nat.le_of_not_lt inside)]
    exact .refused (void_failsCleanly (raisesAtOnce_bind (asserts_raise (by simpa using inside)) _))

/-- Every call does what its operation on finite maps says. -/
theorem call_runs (env : Environment F P D W) (w : World F D W) (c : KeyCall) :
    Runs Key w (runCall env c.call w) (mapStep (view Key w) c) := by
  cases c with
  | new key =>
    have isNew : contents Key.new = ∅ := rfl
    have given : ∀ c ∈ [((some key : Ptr).isSome, "key")], c.1 = true := by simp
    exact runs_new given isNew key
  | set key keyword value =>
    refine runs_on (by simp [CText.pointer]) (fun k => ?_)
    simp only [void_readCStr, contents_key, ← OrderedMap.contents_insertOrAssign]
    exact runs_assign key (k.set keyword.1 value.1)
  | getIndex key n keyword value =>
    by_cases negative : 0 ≤ n
    · simp only [mapStep, if_pos negative]
      exact runs_on (by simpa using negative) (fun k => runs_index k keyword value)
    · simp only [mapStep, if_neg negative]
      exact .refused (asserting_void (by simpa using negative) _)
  | get key keyword value =>
    refine runs_on (by simp [CText.pointer]) (fun k => ?_)
    simp only [void_readCStr, Key.get, contents_key, OrderedMap.lookup_contents]
    cases k.values.find keyword.1 with
    | none => exact .refused (void_failsCleanly (raisesAtOnce_bind ⟨_, rfl⟩ _))
    | some text => exact runs_text value text
  | has key keyword found =>
    refine runs_on (by simp [CText.pointer]) (fun k => ?_)
    simp only [void_readCStr, contents_key, Key.has, ← has_number]
    exact runs_number found _
  | count key number =>
    refine runs_on (by simp) (fun k => ?_)
    simp only [contents_key, OrderedMap.card_contents]
    exact runs_number number _
  | erase key keyword =>
    refine runs_on (by simp [CText.pointer]) (fun k => ?_)
    simp only [void_readCStr, contents_key, ← OrderedMap.contents_erase]
    exact runs_assign key (k.erase keyword.1)
  | clear key =>
    refine runs_on (by simp) (fun k => ?_)
    exact runs_assign key k.clear

theorem step_agrees (env : Environment F P D W) (w : World F D W) (s : Caller Bytes)
    (c : KeyCall) (same : view Key w = s) :
    (keyStep env w c).1 = (mapStep s c).1 ∧ view Key (keyStep env w c).2 = (mapStep s c).2 := by
  subst same
  exact (call_runs env w c).agrees

end Operations

section Invariant

/-- Handles come from before the next free address, and keys hold no NUL. -/
structure Sound (s : Caller Bytes) : Prop where
  allocated : ∀ p m, s.maps p = some m → p < s.fresh
  nulFree : ∀ p m, s.maps p = some m → ∀ k v, m.lookup k = some v → (0 : Byte) ∉ k ∧ (0 : Byte) ∉ v

variable {s : Caller Bytes}

theorem Sound.write (sound : Sound s) {s' : Caller Bytes} (maps : s'.maps = s.maps)
    (fresh : s'.fresh = s.fresh) : Sound s' := by
  obtain ⟨allocated, nulFree⟩ := sound
  constructor
  · simpa only [maps, fresh] using allocated
  · simpa only [maps] using nulFree

theorem Sound.output (sound : Sound s) (cell : Ptr) (text : Bytes) :
    Sound (writeOutput s cell text) := by
  cases cell with
  | none => exact sound
  | some cell => exact sound.write rfl rfl

theorem Sound.on (sound : Sound s) {p : Address}
    {use : (Finmap fun _ : Bytes => Bytes) → Outcome × Caller Bytes}
    (keeps : ∀ m, s.maps p = some m → Sound (use m).2) : Sound (s.on p use).2 := by
  rw [Caller.on]
  split
  · rename_i m found
    exact keeps m found
  · exact sound

theorem Sound.assign (sound : Sound s) {p : Address} {m m' : Finmap fun _ : Bytes => Bytes}
    (found : s.maps p = some m)
    (free : ∀ k v, m'.lookup k = some v → (0 : Byte) ∉ k ∧ (0 : Byte) ∉ v) :
    Sound (s.assign p m').2 := by
  constructor
  · intro q n hq
    by_cases same : q = p
    · subst same
      exact sound.allocated q m found
    · exact sound.allocated q n ((Function.update_of_ne same _ _).symm.trans hq)
  · intro q n hq
    by_cases same : q = p
    · subst same
      obtain rfl : m' = n := Option.some.inj ((Function.update_self q _ _).symm.trans hq)
      exact free
    · exact sound.nulFree q n ((Function.update_of_ne same _ _).symm.trans hq)

theorem Sound.new (sound : Sound s) (cell : Address) : Sound (s.new cell).2 := by
  constructor
  · intro q n hq
    change q < s.fresh + 1
    by_cases same : q = s.fresh
    · rw [same]
      exact Nat.lt_succ_self _
    · exact Nat.lt_succ_of_lt
        (sound.allocated q n ((Function.update_of_ne same _ _).symm.trans hq))
  · intro q n hq
    by_cases same : q = s.fresh
    · subst same
      obtain rfl : ∅ = n := Option.some.inj ((Function.update_self s.fresh _ _).symm.trans hq)
      intro k v found
      cases found
    · exact sound.nulFree q n ((Function.update_of_ne same _ _).symm.trans hq)

theorem mapStep_sound (sound : Sound s) (c : KeyCall) : Sound (mapStep s c).2 := by
  cases c with
  | new key => exact sound.new key
  | set key keyword value =>
    refine sound.on (fun m found => sound.assign found (fun k v inside => ?_))
    rw [lookup_insert_eq] at inside
    split at inside
    · rename_i same
      obtain rfl : value.1 = v := Option.some.inj inside
      exact same ▸ ⟨keyword.2, value.2⟩
    · exact sound.nulFree key m found k v inside
  | getIndex key n keyword value =>
    simp only [mapStep]
    split
    · refine sound.on (fun m found => ?_)
      split
      · exact (sound.output keyword _).output value _
      · exact sound
    · exact sound
  | get key keyword value =>
    refine sound.on (fun m found => ?_)
    split
    · exact sound.write rfl rfl
    · exact sound
  | has key keyword found => exact sound.on (fun m live => sound.write rfl rfl)
  | count key number => exact sound.on (fun m live => sound.write rfl rfl)
  | erase key keyword =>
    refine sound.on (fun m found => sound.assign found (fun k v inside => ?_))
    rw [lookup_erase_eq] at inside
    split at inside
    · cases inside
    · exact sound.nulFree key m found k v inside
  | clear key =>
    refine sound.on (fun m found => sound.assign found (fun k v inside => ?_))
    cases inside

end Invariant

section Listing
variable (env : Environment F P D W)

/-- One index of a listing: the texts behind the two outputs, if the call returned. -/
def listStep (key keyword value : Address) (w : World F D W) (n : Int) :
    Option (CText × CText) × World F D W :=
  let out := keyStep env w (.getIndex key n (some keyword) (some value))
  (match out.1, out.2.texts keyword, out.2.texts value with
    | .returned, some k, some v => some (CText.read k, CText.read v)
    | _, _, _ => none, out.2)

/-- The indexes 0 to `count - 1`. -/
def indexes (count : Nat) : List Int := (List.range count).map Int.ofNat

/-- Setting the listed pairs one by one. -/
def settings (key : Address) (listed : List (CText × CText)) : List KeyCall :=
  listed.map (fun b => .set key b.1 b.2)

variable {env}

theorem listStep_spec {key keyword value : Address} (apart : keyword ≠ value) {w : World F D W}
    {m : Finmap fun _ : Bytes => Bytes} (live : (view Key w).maps key = some m) {n : Nat}
    {b : Bytes × Bytes} (inside : (inOrder m)[n]? = some b) :
    (listStep env key keyword value w n).1 = some (CText.read b.1, CText.read b.2) ∧
    (view Key (listStep env key keyword value w n).2).maps = (view Key w).maps ∧
    (view Key (listStep env key keyword value w n).2).fresh = (view Key w).fresh := by
  obtain ⟨outcome, shown⟩ := step_agrees env w _
    (.getIndex key n (some keyword) (some value)) rfl
  have step : mapStep (view Key w) (.getIndex key n (some keyword) (some value)) =
      (.returned, ((view Key w).writeText keyword b.1).writeText value b.2) := by
    have positive : (0 : Int) ≤ n := by omega
    simp only [mapStep, if_pos positive, Caller.on, live, Int.toNat_natCast, inside]
    rfl
  rw [step] at outcome shown
  have texts : (keyStep env w (.getIndex key n (some keyword) (some value))).2.texts =
      (((view Key w).writeText keyword b.1).writeText value b.2).texts :=
    congrArg Caller.texts shown
  refine ⟨?_, (congrArg Caller.maps shown :), (congrArg Caller.fresh shown :)⟩
  simp only [listStep, outcome, texts, Caller.writeText, Function.update_self,
    Function.update_of_ne apart]

/-- Listing from some index on shows the bindings there, and keeps all maps. -/
theorem listing_spec {key keyword value : Address} (apart : keyword ≠ value)
    {m : Finmap fun _ : Bytes => Bytes} {ns : List Nat} (inside : ∀ n ∈ ns, n < (inOrder m).length)
    {w : World F D W} (live : (view Key w).maps key = some m) :
    (trace (listStep env key keyword value) w (ns.map Int.ofNat)).map Prod.snd =
      ns.map (fun n => (inOrder m)[n]?.map (fun b => (CText.read b.1, CText.read b.2))) ∧
    (view Key (after (listStep env key keyword value) w (ns.map Int.ofNat))).maps =
      (view Key w).maps ∧
    (view Key (after (listStep env key keyword value) w (ns.map Int.ofNat))).fresh =
      (view Key w).fresh := by
  induction ns generalizing w with
  | nil => exact ⟨rfl, rfl, rfl⟩
  | cons n rest ih =>
    obtain ⟨here, later⟩ := List.forall_mem_cons.mp inside
    have binding := List.getElem?_eq_getElem here
    obtain ⟨shown, maps, fresh⟩ := @listStep_spec _ _ _ _ env _ _ _ apart _ _ live _ _ binding
    obtain ⟨listed, maps', fresh'⟩ := ih later (maps ▸ live)
    refine ⟨?_, maps'.trans maps, fresh'.trans fresh⟩
    simp only [List.map_cons, trace_cons, binding, Option.map_some]
    exact congr (congrArg List.cons shown) listed

/-- The texts that a listing of the map shows. -/
def listedTexts (m : Finmap fun _ : Bytes => Bytes) : List (CText × CText) :=
  (inOrder m).map (fun b => (CText.read b.1, CText.read b.2))

/-- If no binding has a NUL, C reads all of it. -/
theorem listedTexts_eq {m : Finmap fun _ : Bytes => Bytes}
    (free : ∀ k v, m.lookup k = some v → (0 : Byte) ∉ k ∧ (0 : Byte) ∉ v) :
    (listedTexts m).map (fun b => (b.1.1, b.2.1)) = inOrder m := by
  rw [listedTexts, List.map_map]
  refine (List.map_congr_left (fun b hb => ?_)).trans (List.map_id _)
  obtain ⟨keyword_free, value_free⟩ := free b.1 b.2 (mem_inOrder.mp hb)
  exact Prod.ext ((cString_eq_self_iff _).mpr keyword_free)
    ((cString_eq_self_iff _).mpr value_free)

/-- All indexes of a key list its bindings and keep the maps. -/
theorem listing_whole {key keyword value : Address} (apart : keyword ≠ value)
    {m : Finmap fun _ : Bytes => Bytes} {w : World F D W}
    (live : (view Key w).maps key = some m) :
    (trace (listStep env key keyword value) w (indexes m.keys.card)).map Prod.snd =
      (listedTexts m).map some ∧
    (view Key (after (listStep env key keyword value) w (indexes m.keys.card))).maps =
      (view Key w).maps ∧
    (view Key (after (listStep env key keyword value) w (indexes m.keys.card))).fresh =
      (view Key w).fresh := by
  have count : m.keys.card = (inOrder m).length := by
    rw [← Finset.length_sort (· ≤ ·), ← keys_inOrder, List.length_map]
  have inside : ∀ n ∈ List.range m.keys.card, n < (inOrder m).length := by
    intro n hn
    rw [← count]
    exact List.mem_range.mp hn
  obtain ⟨shown, kept⟩ := @listing_spec _ _ _ _ env _ _ _ apart _ _ inside _ live
  refine ⟨shown.trans ?_, kept⟩
  rw [count, listedTexts, List.map_map]
  apply List.ext_getElem
  · simp
  · intro n bound bound'
    have here : n < (inOrder m).length := by simpa using bound'
    simp [List.getElem?_eq_getElem here]

theorem settings_agree {p : Address} (listed : List (CText × CText)) {s : Caller Bytes}
    {m : OrderedMap Bytes Bytes} (live : s.maps p = some m.contents) :
    (after mapStep s (settings p listed)).maps =
      Function.update s.maps p
        (some (m.assignAll (listed.map (fun b => (b.1.1, b.2.1)))).contents) := by
  induction listed generalizing s m with
  | nil =>
    rw [settings, List.map_nil, after_nil, List.map_nil]
    exact (Function.update_eq_self_iff.mpr live.symm).symm
  | cons b rest ih =>
    have step : mapStep s (.set p b.1 b.2) =
        s.assign p (m.insertOrAssign b.1.1 b.2.1).contents := by
      simp only [mapStep, Caller.on, live, OrderedMap.contents_insertOrAssign]
    have later := ih (s := (s.assign p (m.insertOrAssign b.1.1 b.2.1).contents).2)
      (Function.update_self p _ _)
    rw [settings, List.map_cons, after_cons, step]
    refine later.trans ?_
    exact Function.update_idem _ _ _

/-- `dasi_key_compare` on two keys writes what the two questions "less" make. -/
theorem compare_run (env : Environment F P D W) {w : World F D W} {a b : Address} {k k' : Key}
    (left : w.keys a = some k) (right : w.keys b = some k') (result : Address) :
    runCall env (.keyCompare (some a) (some b) (some result)) w =
      (.returned .success, { w with
        numbers := Function.update w.numbers result
          (if k.lt k' then -1 else if k'.lt k then 1 else 0) }) := by
  have given : (asserts [(true, "key"), (true, "other"), (true, "result")] :
      CBody F D W Unit).run w = (.ok (), w) := asserts_pass (by simp)
  have derefs : ∀ p k, w.keys p = some k →
      (deref (some p) : CBody F D W Key).run w = (.ok k, w) := by
    intro p k live
    have run := deref_run (F := F) (D := D) (W := W) (A := Key) (some p) w
    have found : (some p).bind (Stored.objects w : Address → Option Key) = some k := live
    rw [found] at run
    exact run
  exact (void_bind given _).trans
    ((void_bind (derefs a k left) _).trans (void_bind (derefs b k' right) _))

theorem compare_equal (env : Environment F P D W) {w : World F D W} {a b : Address} {k : Key}
    (left : w.keys a = some k) (right : w.keys b = some k) (result : Address) :
    runCall env (.keyCompare (some a) (some b) (some result)) w =
      (.returned .success, { w with numbers := Function.update w.numbers result 0 }) := by
  have irreflexive : k.lt k = false := decide_eq_false (lt_irrefl _)
  simp only [compare_run env left right result, irreflexive, Bool.false_eq_true, if_false]

theorem live_key {w : World F D W} {p : Address} {m : OrderedMap Bytes Bytes}
    (live : (view Key w).maps p = some m.contents) : w.keys p = some ⟨m⟩ := by
  obtain ⟨k, found, same⟩ := Option.map_eq_some_iff.mp live
  have keys : w.keys p = some k := found
  rw [keys, ← OrderedMap.contents_injective same]

/-- Setting all bindings of a key on a new one makes an equal key. -/
theorem rebuilt_equal (env : Environment F P D W) {w : World F D W} (sound : Sound (view Key w))
    {key : Address} {k : Key} (live : w.keys key = some k) {listed : List (CText × CText)}
    (whole : listed.map (fun b => (b.1.1, b.2.1)) = k.items) (cell result : Address) :
    let made := (keyStep env w (.new cell)).2
    ∃ p, made.handles cell = some p ∧
      (runCall env (.keyCompare (some key) (some p) (some result))
        (after (keyStep env) made (settings p listed))).1 = .returned .success ∧
      (runCall env (.keyCompare (some key) (some p) (some result))
        (after (keyStep env) made (settings p listed))).2.numbers result = 0 := by
  intro made
  have maps : (view Key w).maps key = some k.values.contents := congrArg (Option.map contents) live
  have older : key ≠ w.fresh := Nat.ne_of_lt (sound.allocated key _ maps)
  have shown : view Key made = ((view Key w).new cell).2 := (step_agrees env w _ (.new cell) rfl).2
  have handles : made.handles = ((view Key w).new cell).2.handles := congrArg Caller.handles shown
  refine ⟨w.fresh, ?_, ?_⟩
  · rw [handles]
    exact Function.update_self cell _ _
  · have empty : (view Key made).maps w.fresh = some (OrderedMap.empty : OrderedMap Bytes Bytes).contents := by
      rw [shown]
      exact Function.update_self _ _ _
    have all : OrderedMap.empty.assignAll k.items = k.values := by
      apply OrderedMap.eq_of_perm
      exact OrderedMap.assignAll_empty_perm k.values.keys_nodup
    have built := settings_agree listed empty
    rw [whole, all, ← after_related (step_agrees env) rfl] at built
    have new_live : (after (keyStep env) made (settings w.fresh listed)).keys w.fresh = some k := by
      apply live_key
      rw [built]
      exact Function.update_self _ _ _
    have old_live : (after (keyStep env) made (settings w.fresh listed)).keys key = some k := by
      apply live_key
      rw [built, Function.update_of_ne older, shown]
      exact (Function.update_of_ne older _ _).trans maps
    rw [compare_equal env old_live new_live result]
    exact ⟨rfl, Function.update_self result 0 _⟩

end Listing

/-- Whatever is called, the caller sees what finite maps from keywords to values
would show; a call that is refused changes neither a key nor an output; and listing
a key shows each binding once, in the order of the keywords, and is enough to make
an equal key. -/
theorem keys_refine_maps {F P D W : Type} (env : Environment F P D W) {w : World F D W}
    (sound : Sound (view Key w)) (history : List KeyCall) :
    let reached := after (keyStep env) w history
    let reference := after mapStep (view Key w) history
    trace (keyStep env) w history = trace mapStep (view Key w) history ∧
    view Key reached = reference ∧
    (∀ c : KeyCall, (keyStep env reached c).1 = .refused →
      FailsCleanly (runCall env c.call reached) reached) ∧
    ∀ (key : Address) (m : Finmap fun _ : Bytes => Bytes), reference.maps key = some m →
    ∀ keyword value : Address, keyword ≠ value →
      let listing := trace (listStep env key keyword value) reached (indexes m.keys.card)
      let listedAt := after (listStep env key keyword value) reached (indexes m.keys.card)
      ∃ listed : List (CText × CText), listing.map Prod.snd = listed.map some ∧
        (listed.map (fun b => b.1.1)).Pairwise (· < ·) ∧
        (∀ k v, (k, v) ∈ listed.map (fun b => (b.1.1, b.2.1)) ↔ m.lookup k = some v) ∧
        ∀ cell result : Address,
          let made := (keyStep env listedAt (.new cell)).2
          ∃ p, made.handles cell = some p ∧
            let built := after (keyStep env) made (settings p listed)
            let compared := runCall env (.keyCompare (some key) (some p) (some result)) built
            compared.1 = .returned .success ∧ compared.2.numbers result = 0 := by
  intro reached reference
  have same : view Key reached = reference := after_related (step_agrees env) rfl history
  have still : Sound reference := by
    have preserved : ∀ s c, Sound s → Sound (mapStep s c).2 := fun s c h => mapStep_sound h c
    exact after_invariant preserved sound history
  refine ⟨trace_eq_of_simulation (step_agrees env) rfl history, same, ?_, ?_⟩
  · intro c refused
    exact (call_runs env reached c).clean refused
  · intro key m live keyword value apart listing listedAt
    rw [← same] at live still
    obtain ⟨shown, maps, fresh⟩ := @listing_whole _ _ _ _ env _ _ _ apart _ _ live
    have texts := listedTexts_eq (still.nulFree key m live)
    have keywords : (listedTexts m).map (fun b => b.1.1) = (inOrder m).map Prod.fst := by
      rw [← texts]
      exact (@List.map_map _ _ _ Prod.fst (fun b => (b.1.1, b.2.1)) (listedTexts m)).symm
    refine ⟨listedTexts m, shown, ?_, ?_, ?_⟩
    · rw [keywords]
      exact List.pairwise_map.mpr (inOrder_increasing m)
    · intro k v
      rw [texts]
      exact mem_inOrder
    · intro cell result
      obtain ⟨k, found, contents_k⟩ := Option.map_eq_some_iff.mp live
      have keptMaps : (view Key listedAt).maps = (view Key reached).maps := maps
      have stillSound : Sound (view Key listedAt) := still.write maps fresh
      have key_live : listedAt.keys key = some k := by
        apply live_key
        rw [keptMaps, live, ← contents_k]
        rfl
      have whole : (listedTexts m).map (fun b => (b.1.1, b.2.1)) = k.items := by
        rw [texts, ← contents_k]
        exact OrderedMap.inOrder_contents k.values
      exact rebuilt_equal env stillSound key_live whole cell result

/-- A world without keys, in which one is made, filled, overwritten and cut back. -/
theorem keys_refine_maps_sample : Sound (view Key oneQuery) ∧
    trace (keyStep idle) oneQuery [.new 5, .set 1 (.read (ascii "b")) (.read (ascii "1")),
      .set 1 (.read (ascii "a")) (.read (ascii "2")), .erase 1 (.read (ascii "b")),
      .getIndex 1 1 (some 6) none] =
    trace mapStep (view Key oneQuery) [.new 5, .set 1 (.read (ascii "b")) (.read (ascii "1")),
      .set 1 (.read (ascii "a")) (.read (ascii "2")), .erase 1 (.read (ascii "b")),
      .getIndex 1 1 (some 6) none] := by
  have no_keys : ∀ p, (view Key oneQuery).maps p = none := fun _ => rfl
  have sound : Sound (view Key oneQuery) := by
    constructor
    · intro p m live
      cases (no_keys p).symm.trans live
    · intro p m live
      cases (no_keys p).symm.trans live
  exact ⟨sound, (keys_refine_maps idle sound _).1⟩

end KeyMaps
