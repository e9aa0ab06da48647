import WezuBackend.Lib.Atomicity
import WezuBackend.Lib.Tables

/-!
# What every service shares

The exceptions a request can end with and Python's reading of an optional text in a condition.
Throughout, primary keys and times (microseconds of the clock) are natural numbers.
-/

namespace WezuBackend.Core.Base

/-- The exceptions that end a call. -/
inductive Exc where
  /-- `fastapi.HTTPException` -/
  | http (statusCode : ℕ) (detail : String)
  /-- `decimal.InvalidOperation` -/
  | invalidOperation
  /-- `sqlalchemy.exc.IntegrityError` -/
  | integrityError
  | valueError (message : String)
  /-- an attribute that the value does not have -/
  | attributeError
  /-- a local variable without a value -/
  | unboundLocalError
  /-- arithmetic of a `Decimal` with a `float` -/
  | typeError
  /-- a date after the last one -/
  | overflowError
  | recursionError
  /-- a text that is no member of the column's `Enum` -/
  | lookupError
  /-- `sqlalchemy.exc.DataError` -/
  | dataError
  deriving DecidableEq, Repr

/-- `if text:` of an optional text. -/
def truthy (text : Option String) : Option String := text.filter (· ≠ "")

theorem truthy_eq_some {text : Option String} {s : String} :
    truthy text = some s ↔ text = some s ∧ s ≠ "" := by
  simp [truthy, Option.filter_eq_some_iff]

end WezuBackend.Core.Base
