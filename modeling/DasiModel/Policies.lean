import DasiModel.Session
import Mathlib.Data.Finset.Basic
import Mathlib.Data.Finset.Filter
import Mathlib.Data.Fintype.Defs

/-!
# Policies

`setPolicy` turns the section `access` of a policy dictionary into one control
request for FDB, `queryPolicy` turns the status of FDB into dictionaries. Neither
FDB nor the dictionaries (`eckit::LocalConfiguration`) are part of this repository.
-/

namespace Policies
open Texts Exceptions DasiKey Generators Cursors Session

universe u v

inductive ControlAction where
  | disable
  | enable
  deriving DecidableEq

/-- The values of `fdb5::ControlIdentifier` that have a policy. -/
inductive ControlIdentifier where
  | list
  | retrieve
  | archive
  | wipe
  deriving DecidableEq

instance fintypeControlIdentifier : Fintype ControlIdentifier where
  elems := {.list, .retrieve, .archive, .wipe}
  complete := by
    intro id
    cases id <;> decide

/-- The name of an identifier in the section `access`. -/
def ControlIdentifier.name : ControlIdentifier → Bytes
  | .list => ascii "list"
  | .retrieve => ascii "retrieve"
  | .archive => ascii "archive"
  | .wipe => ascii "wipe"

/-- The name of its policy in a dictionary. -/
def ControlIdentifier.policy : ControlIdentifier → Bytes
  | .list => ascii "access.list"
  | .retrieve => ascii "access.retrieve"
  | .archive => ascii "access.archive"
  | .wipe => ascii "access.wipe"

/-- The operations of `eckit::LocalConfiguration` used on a `dasi::PolicyDict`. -/
structure Configuration (D : Type u) where
  empty : D
  set : D → Bytes → Bool → D
  has : D → Bytes → Bool
  getBool : D → Bytes → Except Exception Bool
  getSubConfiguration : D → Bytes → D
  /-- The names in a section, in the order in which they are enumerated. -/
  keys : D → List Bytes

/-- What the status generator reads of an `fdb5::StatusElement`. The key of a
collection binds a keyword once. -/
structure FdbStatusElement where
  key : List (Bytes × Bytes)
  enabled : ControlIdentifier → Bool
  distinct : (key.map Prod.fst).Nodup

/-- The operations of FDB behind policies. An action that was never assigned is `none`. -/
structure FdbLocks (W : Type v) where
  control : MarsRequest → Option ControlAction → Finset ControlIdentifier →
    W → Except Exception (FdbIterator FdbStatusElement) × W
  status : MarsRequest → W → Except Exception (FdbIterator FdbStatusElement) × W

structure PolicyElement (D : Type u) where
  key : Key
  value : D

/-- `policySpecifiers_.size() < 2 || policySpecifiers_[1] == ...`, and the
assignment it guards. -/
def setFlag {D : Type u} (conf : Configuration D) (specifiers : List Bytes)
    (elem : FdbStatusElement) (value : D) (id : ControlIdentifier) : D :=
  if specifiers.length < 2 ∨ specifiers[1]? = some id.name then
    conf.set value id.policy (elem.enabled id)
  else value

structure PolicyStatusGeneratorImpl (D : Type u) where
  policySpecifiers : List Bytes
  dasiElement : PolicyElement D
  iter : FdbIterator FdbStatusElement
  done : Bool

namespace PolicyStatusGeneratorImpl
variable {D : Type u} (conf : Configuration D)

/-- The assignments made for one FDB element. The key is built anew, the dictionary
is the one of the element before. -/
def assign (specifiers : List Bytes) (elem : FdbStatusElement) (element : PolicyElement D) :
    PolicyElement D where
  key := Key.ofCombined elem.key
  value :=
    if specifiers = [] ∨ specifiers[0]? = some (ascii "access") then
      let value := setFlag conf specifiers elem element.value .retrieve
      let value := setFlag conf specifiers elem value .archive
      let value := setFlag conf specifiers elem value .list
      setFlag conf specifiers elem value .wipe
    else element.value

def next (g : PolicyStatusGeneratorImpl D) :
    Except Exception Unit × PolicyStatusGeneratorImpl D :=
  if g.done then (.ok (), g)
  else match g.iter with
  | .element elem :: rest =>
    (.ok (), { g with
      iter := rest
      dasiElement := assign conf g.policySpecifiers elem g.dasiElement })
  | .failure x :: rest => (.error x, { g with iter := rest })
  | [] => (.ok (), { g with done := true })

/-- The constructor, which fetches the first element at once. -/
def create (iter : FdbIterator FdbStatusElement) (policySpecifiers : List Bytes) :
    Except Exception (PolicyStatusGeneratorImpl D) :=
  match next conf ⟨policySpecifiers, ⟨Key.new, conf.empty⟩, iter, false⟩ with
  | (.ok (), g) => .ok g
  | (.error x, _) => .error x

theorem next_of_nil {g : PolicyStatusGeneratorImpl D} (h : g.done = false) (hi : g.iter = []) :
    g.next conf = (.ok (), { g with done := true }) := by
  simp [next, h, hi]

theorem next_of_element {g : PolicyStatusGeneratorImpl D} {elem : FdbStatusElement}
    {rest : FdbIterator FdbStatusElement} (h : g.done = false)
    (hi : g.iter = .element elem :: rest) :
    g.next conf = (.ok (), { g with
      iter := rest
      dasiElement := assign conf g.policySpecifiers elem g.dasiElement }) := by
  simp [next, h, hi]

theorem next_of_done {g : PolicyStatusGeneratorImpl D} (h : g.done = true) :
    g.next conf = (.ok (), g) := by
  rw [next, if_pos h]

end PolicyStatusGeneratorImpl

/-- The local variables of `setPolicy`. -/
structure Locking where
  foundAny : Bool
  identifiers : Finset ControlIdentifier
  action : Option ControlAction

namespace Locking

def start : Locking := ⟨false, ∅, none⟩

def actionFor (enable : Bool) : ControlAction := if enable then .enable else .disable

def conflict : Exception :=
  .userError (ascii "Can only enable or disable locks in one action")

/-- One pass of the loop over the names in the section. -/
def pass (getBool : Bytes → Except Exception Bool) (s : Locking) (key : Bytes) :
    Except Exception Locking :=
  let identifiers := s.identifiers
  let identifiers := if key = ascii "list" then identifiers ∪ {.list} else identifiers
  let identifiers := if key = ascii "retrieve" then identifiers ∪ {.retrieve} else identifiers
  let identifiers := if key = ascii "archive" then identifiers ∪ {.archive} else identifiers
  let identifiers := if key = ascii "wipe" then identifiers ∪ {.wipe} else identifiers
  match getBool key with
  | .error x => .error x
  | .ok enable =>
    let newAction := some (actionFor enable)
    if s.foundAny ∧ newAction ≠ s.action then .error conflict
    else .ok ⟨true, identifiers, newAction⟩

end Locking

section Session
variable {D : Type u} {W : Type v} (conf : Configuration D) (fdb : FdbLocks W)

/-- `NOTIMP`; `here` is the place in the code that is printed. -/
def notImplemented (here : Bytes) : Exception := .eckit (ascii "Not implemented: " ++ here)

/-- `DasiImpl::setPolicy`. -/
def setPolicy (here : Bytes) (query : Query) (policyDict : D) (w : W) :
    Except Exception (PolicyStatusGeneratorImpl D) × W :=
  if conf.has policyDict (ascii "access") then
    let access := conf.getSubConfiguration policyDict (ascii "access")
    match (conf.keys access).foldlM (Locking.pass (conf.getBool access)) Locking.start with
    | .error x => (.error x, w)
    | .ok locking =>
      match fdb.control (queryToMarsRequest query) locking.action locking.identifiers w with
      | (.error x, w') => (.error x, w')
      | (.ok iter, w') => (PolicyStatusGeneratorImpl.create conf iter [], w')
  else (.error (notImplemented here), w)

/-- `DasiImpl::queryPolicy`; `split` is `eckit::Tokenizer`. -/
def queryPolicy (split : Bytes → Bytes → List Bytes) (query : Query) (name : Bytes) (w : W) :
    Except Exception (PolicyStatusGeneratorImpl D) × W :=
  let policySpecifiers := split (ascii ".") name
  match fdb.status (queryToMarsRequest query) w with
  | (.error x, w') => (.error x, w')
  | (.ok iter, w') => (PolicyStatusGeneratorImpl.create conf iter policySpecifiers, w')

end Session

/-- A dictionary as the list of its nodes, a section being a node without a flag. -/
abbrev Nodes := List (List Bytes × Option Bool)

/-- The path of a name: its parts between the dots. -/
def path (name : Bytes) : List Bytes := splitTokens (ascii ".") name

/-- Configurations that behave as the nested dictionaries of eckit do. -/
def nodeConfiguration : Configuration Nodes where
  empty := []
  set d name b := (path name, some b) :: d.filter (fun n => ¬ (path name).isPrefixOf n.1)
  has d name := d.any (fun n => (path name).isPrefixOf n.1)
  getBool d name := match d.find? (fun n => n.1 = path name) with
    | some (_, some b) => .ok b
    | _ => .error (.eckit name)
  getSubConfiguration d name := d.filterMap (fun n =>
    if (path name).isPrefixOf n.1 then some (n.1.drop (path name).length, n.2) else none)
  keys d := (d.filterMap (fun n => n.1.head?)).dedup

end Policies
