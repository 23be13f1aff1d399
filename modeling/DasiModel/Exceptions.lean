import DasiModel.Texts

/-!
# Exceptions and the error codes of the C API

`try_catch` tells exceptions apart by their class and keeps only a code and the
text of `what()`. A call is modelled by the result of its body; the code that
crosses the boundary is computed from it.
-/

namespace Exceptions
open Texts

universe u v

/-- The classes of exceptions that `try_catch` has a handler for. -/
inductive Exception where
  | seriousBug (what : Bytes)
  | userError (what : Bytes)
  | assertionFailed (what : Bytes)
  /-- Any other `eckit::Exception`, `NotImplemented` among them. -/
  | eckit (what : Bytes)
  /-- Any other `std::exception`. -/
  | standard (what : Bytes)
  | other
  deriving DecidableEq

inductive Code where
  | success
  | iterationComplete
  | error
  | errorUnknown
  | errorBug
  | errorUser
  | errorIterator
  | errorAssert
  deriving DecidableEq

/-- The numbers of `dasi_error_values_t`. -/
def Code.value : Code → Nat
  | .success => 0
  | .iterationComplete => 1
  | .error => 2
  | .errorUnknown => 3
  | .errorBug => 4
  | .errorUser => 5
  | .errorIterator => 6
  | .errorAssert => 7

def Code.isError (code : Code) : Bool :=
  code ≠ .success && code ≠ .iterationComplete

/-- The handler that catches an exception decides the code. -/
def Exception.code : Exception → Code
  | .seriousBug _ => .errorBug
  | .userError _ => .errorUser
  | .assertionFailed _ => .errorAssert
  | .eckit _ => .error
  | .standard _ => .errorUnknown
  | .other => .errorUnknown

/-- What the handler stores in `gCurrentErrorString`. -/
def Exception.what : Exception → Bytes
  | .seriousBug text => text
  | .userError text => text
  | .assertionFailed text => text
  | .eckit text => text
  | .standard text => text
  | .other => ascii "<unknown>"

/-- The code `try_catch` returns for a body with this result. -/
def tryCatchCode : Except Exception Code → Code
  | .ok code => code
  | .error e => e.code

/-- `ASSERT(condition)`; the text is the condition as written. -/
def assert (condition : Bool) (text : String) : Except Exception Unit :=
  if condition then .ok () else .error (.assertionFailed (ascii text))

/-- What a function returned, applied to a result that is not an exception. -/
theorem of_map_eq_ok {A : Type u} {B : Type v} {f : A → B} {result : Except Exception A} {b : B}
    (h : result.map f = .ok b) : ∃ a, result = .ok a ∧ f a = b := by
  cases result with
  | error x => cases h
  | ok a => exact ⟨a, rfl, Except.ok.inj h⟩

/-- Every handler answers with an error code: an exception is never taken for
success or for the end of an iteration. -/
theorem Exception.code_isError (e : Exception) : e.code.isError = true := by
  cases e <;> rfl

end Exceptions
