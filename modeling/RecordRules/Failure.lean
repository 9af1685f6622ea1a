import RecordRules.Error

/-!
# Failures

A command or a call can fail for more than an error of the library: it may
name a slot that holds no rule, or hand over an integer that is too large to
be a number of a record. Neither has a kind or a place, so they are kept apart
from the errors.
-/

namespace RecordRules

/-- **Why a command or a call fails.** -/
inductive Failure where
  /-- There was an error. -/
  | error (e : Error)
  /-- A slot that was named holds no rule. -/
  | noSuchRule
  /-- An integer is too large to be a number of a record. -/
  | overflow
  deriving DecidableEq, Repr

/-- An outcome with errors as an outcome with failures. -/
def Failure.lift {α : Type} (outcome : Except Error α) : Except Failure α :=
  outcome.mapError .error

@[simp] theorem Failure.lift_ok {α : Type} (a : α) :
    Failure.lift (.ok a) = .ok a := rfl

@[simp] theorem Failure.lift_error {α : Type} (e : Error) :
    Failure.lift (.error e : Except Error α) = .error (.error e) := rfl

end RecordRules
