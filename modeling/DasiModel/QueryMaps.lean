import DasiModel.HandleMaps
import DasiModel.Library.Machines

/-!
# The query functions of the C API

A query is a finite map from keywords to lists of values. Setting replaces a
list, appending adds to its end, and a keyword with an empty list is still
there. What cannot be done is refused before anything changes.
-/

namespace QueryMaps
open Texts Exceptions DasiKey OrderedMaps Machines CApi NullPointers HandleMaps

variable {F P D W : Type}

/-- An array of `const char*` with a count that stays inside it. -/
structure ValueArray where
  elements : List (Option CText)
  num : Int
  within : num ≤ elements.length

/-- The elements that the count lets the function look at. -/
def ValueArray.taken (values : ValueArray) : List (Option CText) :=
  values.elements.take values.num.toNat

def ValueArray.texts (values : ValueArray) : List Bytes :=
  values.taken.filterMap (Option.map Subtype.val)

def ValueArray.pointers (values : ValueArray) : List CStr :=
  values.elements.map (Option.map Subtype.val)

/-- A call of `dasi_new_query` or `dasi_query_*`, without null pointers other than
inside the array of values. -/
inductive QueryCall where
  | new (query : Address)
  | set (query : Address) (keyword : CText) (values : ValueArray)
  | append (query : Address) (keyword value : CText)
  | get (query : Address) (keyword : CText) (num : Int) (value : Address)
  | has (query : Address) (keyword : CText) (found : Address)
  | keywordCount (query count : Address)
  | valueCount (query : Address) (keyword : CText) (count : Address)
  | erase (query : Address) (keyword : CText)
  | clear (query : Address)

def QueryCall.call : QueryCall → Call
  | .new query => .newQuery (some query)
  | .set query keyword values =>
    .querySet (some query) keyword.pointer (some values.pointers) values.num
  | .append query keyword value => .queryAppend (some query) keyword.pointer value.pointer
  | .get query keyword num value => .queryGet (some query) keyword.pointer num (some value)
  | .has query keyword found => .queryHas (some query) keyword.pointer (some found)
  | .keywordCount query count => .queryKeywordCount (some query) (some count)
  | .valueCount query keyword count =>
    .queryValueCount (some query) keyword.pointer (some count)
  | .erase query keyword => .queryErase (some query) keyword.pointer
  | .clear query => .queryClear (some query)

/-- The calls as operations on finite maps. -/
def mapStep (s : Caller (List Bytes)) : QueryCall → Outcome × Caller (List Bytes)
  | .new query => s.new query
  | .set query keyword values =>
    if 0 ≤ values.num ∧ none ∉ values.taken then
      s.on query fun m => s.assign query (m.insert keyword.1 values.texts)
    else (.refused, s)
  | .append query keyword value => s.on query fun m =>
    s.assign query (m.insert keyword.1 ((m.lookup keyword.1).getD [] ++ [value.1]))
  | .get query keyword num value =>
    if 0 ≤ num then s.on query fun m =>
      match (m.lookup keyword.1).bind (·[num.toNat]?) with
      | some text => (.returned, s.writeText value text)
      | none => (.refused, s)
    else (.refused, s)
  | .has query keyword found => s.on query fun m =>
    (.returned, s.writeNumber found (if keyword.1 ∈ m then 1 else 0))
  | .keywordCount query count => s.on query fun m =>
    (.returned, s.writeNumber count m.keys.card)
  | .valueCount query keyword count => s.on query fun m =>
    match m.lookup keyword.1 with
    | some values => (.returned, s.writeNumber count values.length)
    | none => (.refused, s)
  | .erase query keyword => s.on query fun m => s.assign query (m.erase keyword.1)
  | .clear query => s.on query fun _ => s.assign query ∅

/-- The same calls on the library. -/
def queryStep (env : Environment F P D W) (w : World F D W) (c : QueryCall) :
    Outcome × World F D W :=
  (Outcome.of (runCall env c.call w).1, (runCall env c.call w).2)

section Operations
variable {w : World F D W}

theorem contents_append (q : Query) (k v : Bytes) : contents (q.append k v) =
    (contents q).insert k (((contents q).lookup k).getD [] ++ [v]) := by
  simp only [contents_query, Query.append, OrderedMap.lookup_contents]
  cases q.values.find k with
  | none => exact OrderedMap.contents_insertOrAssign _ _ _
  | some values => exact OrderedMap.contents_insertOrAssign _ _ _

/-- The loop of `dasi_query_set` collects the texts of an array without nulls. -/
theorem collectValues_run {elements : List (Option CText)} {num : Nat}
    (within : num ≤ elements.length) (whole : none ∉ elements.take num) :
    (collectValues (elements.map (Option.map Subtype.val)) num :
        CBody F D W (List Bytes)).run w =
      (.ok ((elements.take num).filterMap (Option.map Subtype.val)), w) := by
  induction elements generalizing num with
  | nil =>
    obtain rfl : num = 0 := by simpa using within
    rfl
  | cons element rest ih =>
    cases num with
    | zero => rfl
    | succ num =>
      simp only [List.take_succ_cons, List.mem_cons, not_or] at whole
      cases element with
      | none => exact absurd rfl whole.1
      | some text =>
        have later := ih (Nat.le_of_succ_le_succ within) whole.2
        have here : (readCStr (some text.1) : CBody F D W Bytes).run w = (.ok text.1, w) :=
          congrArg (fun bytes => (Except.ok bytes, w)) (cString_text text)
        have checked : (asserts [(true, "values[i]")] : CBody F D W Unit).run w = (.ok (), w) :=
          asserts_pass (by simp)
        simp only [List.map_cons, Option.map_some, collectValues, Option.isSome_some, run_bind,
          checked, here, later, List.take_succ_cons, List.filterMap_cons]
        rfl

/-- Getting a value once the keyword and the index are known. -/
theorem runs_get (q : Query) (keyword : CText) {num : Int} (value : Address) :
    Runs Query w (tryCatchVoid (readCStr keyword.pointer >>= fun k =>
      raising (q.get k) >>= fun values =>
      asserts [(decide (num.toNat < values.length), "num < values.size()")] >>= fun _ =>
      match values[num.toNat]? with
      | some text => writeText (some value) text
      | none => throw .undefined) w)
      (match ((contents q).lookup keyword.1).bind (·[num.toNat]?) with
      | some text => (.returned, (view Query w).writeText value text)
      | none => (.refused, view Query w)) := by
  simp only [void_readCStr, Query.get, contents_query, OrderedMap.lookup_contents]
  cases q.values.find keyword.1 with
  | none => exact .refused (void_failsCleanly (raisesAtOnce_bind ⟨_, rfl⟩ _))
  | some values =>
    simp only [raising, pure_bind, Option.bind_some]
    by_cases inside : num.toNat < values.length
    · have checked : (asserts [(decide (num.toNat < values.length), "num < values.size()")] :
          CBody F D W Unit).run w = (.ok (), w) := asserts_pass (by simpa using inside)
      simp only [void_bind checked, List.getElem?_eq_getElem inside]
      exact runs_text value _
    · simp only [List.getElem?_eq_none (Nat.le_of_not_lt inside)]
      exact .refused (void_failsCleanly (raisesAtOnce_bind (asserts_raise (by simpa using inside)) _))

/-- Every call does what its operation on finite maps says. -/
theorem call_runs (env : Environment F P D W) (w : World F D W) (c : QueryCall) :
    Runs Query w (runCall env c.call w) (mapStep (view Query w) c) := by
  cases c with
  | new query =>
    have isNew : contents Query.new = ∅ := rfl
    have given : ∀ c ∈ [((some query : Ptr).isSome, "query")], c.1 = true := by simp
    exact runs_new given isNew query
  | set query keyword values =>
    by_cases negative : 0 ≤ values.num
    · by_cases whole : none ∉ values.taken
      · have within : values.num.toNat ≤ values.elements.length := by
          have := values.within
          omega
        have checked : (asserts [(true, "query"), (true, "keyword"), (true, "values"),
            (decide (0 ≤ values.num), "num >= 0")] : CBody F D W Unit).run w = (.ok (), w) :=
          asserts_pass (by simpa using negative)
        have collected : (collectValues values.pointers values.num.toNat :
            CBody F D W (List Bytes)).run w = (.ok values.texts, w) :=
          collectValues_run within whole
        have body : runCall env (QueryCall.set query keyword values).call w =
            tryCatchVoid (deref (some query) >>= fun q : Query =>
              readCStr keyword.pointer >>= fun k =>
              assignObject (some query) (some (q.set k values.texts))) w :=
          (void_bind checked _).trans (void_bind collected _)
        simp only [mapStep, if_pos (And.intro negative whole), body]
        refine runs_deref (fun q => ?_)
        simp only [void_readCStr, contents_query, ← OrderedMap.contents_insertOrAssign]
        exact runs_assign query (q.set keyword.1 values.texts)
      · have null : true ∈ nulls (QueryCall.set query keyword values).call := by
          have inside : true ∈ (values.pointers.take values.num.toNat).map Option.isNone := by
            refine List.mem_map.mpr ⟨none, ?_, rfl⟩
            rw [ValueArray.pointers, ← List.map_take]
            exact List.mem_map.mpr ⟨none, not_not.mp whole, rfl⟩
          exact List.mem_append_right _ inside
        simp only [mapStep, if_neg (fun accepted => whole (And.right accepted))]
        exact .refused (querySet_failsCleanly null)
    · simp only [mapStep, if_neg (fun accepted => negative (And.left accepted))]
      exact .refused (asserting_void (by simpa [CText.pointer] using negative) _)
  | append query keyword value =>
    refine runs_on (by simp [CText.pointer]) (fun q => ?_)
    simp only [void_readCStr, ← contents_append]
    exact runs_assign query _
  | get query keyword num value =>
    by_cases negative : 0 ≤ num
    · simp only [mapStep, if_pos negative]
      exact runs_on (by simpa [CText.pointer] using negative) (fun q => runs_get q keyword value)
    · simp only [mapStep, if_neg negative]
      exact .refused (asserting_void (by simpa [CText.pointer] using negative) _)
  | has query keyword found =>
    refine runs_on (by simp [CText.pointer]) (fun q => ?_)
    simp only [void_readCStr, contents_query, Query.has, ← has_number]
    exact runs_number found _
  | keywordCount query count =>
    refine runs_on (by simp) (fun q => ?_)
    simp only [contents_query, OrderedMap.card_contents]
    exact runs_number count _
  | valueCount query keyword count =>
    refine runs_on (by simp) (fun q => ?_)
    simp only [void_readCStr, Query.get, contents_query, OrderedMap.lookup_contents]
    cases q.values.find keyword.1 with
    | none => exact .refused (void_failsCleanly (raisesAtOnce_bind ⟨_, rfl⟩ _))
    | some values => exact runs_number count _
  | erase query keyword =>
    refine runs_on (by simp [CText.pointer]) (fun q => ?_)
    simp only [void_readCStr, contents_query, ← OrderedMap.contents_erase]
    exact runs_assign query (q.erase keyword.1)
  | clear query =>
    refine runs_on (by simp) (fun q => ?_)
    exact runs_assign query q.clear

theorem step_agrees (env : Environment F P D W) (w : World F D W) (s : Caller (List Bytes))
    (c : QueryCall) (same : view Query w = s) :
    (queryStep env w c).1 = (mapStep s c).1 ∧
      view Query (queryStep env w c).2 = (mapStep s c).2 := by
  subst same
  exact (call_runs env w c).agrees

end Operations

/-- Whatever is called, the caller sees what finite maps from keywords to lists of
values would show, and a call that is refused changes neither a query nor an output. -/
theorem queries_refine_maps {F P D W : Type} (env : Environment F P D W) (w : World F D W)
    (history : List QueryCall) :
    let reached := after (queryStep env) w history
    trace (queryStep env) w history = trace mapStep (view Query w) history ∧
    view Query reached = after mapStep (view Query w) history ∧
    ∀ c : QueryCall, (queryStep env reached c).1 = .refused →
      FailsCleanly (runCall env c.call reached) reached := by
  intro reached
  refine ⟨?_, ?_, ?_⟩
  · exact trace_eq_of_simulation (step_agrees env) rfl history
  · exact after_related (step_agrees env) rfl history
  · intro c refused
    exact (call_runs env reached c).clean refused

end QueryMaps
