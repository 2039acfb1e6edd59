/-!
# Truth values of conditions

A condition on rows is true, false, or unknown, as it is when it compares with null. A row passes a
condition if the condition is true.

## Main definitions

* `Truth`: the truth values
* `Truth.and`, `Truth.or`: how the connectives combine them
-/

namespace Discography

/-- The truth value of a condition. -/
inductive Truth where
  | holds
  | fails
  | unknown
  deriving DecidableEq

namespace Truth

/-- The truth value of a truth literal. -/
def ofBool : Bool → Truth
  | true => holds
  | false => fails

/-- A conjunction fails if one side does, whatever is known of the other. -/
def and : Truth → Truth → Truth
  | fails, _ => fails
  | _, fails => fails
  | holds, holds => holds
  | _, _ => unknown

/-- A disjunction holds if one side does, whatever is known of the other. -/
def or : Truth → Truth → Truth
  | holds, _ => holds
  | _, holds => holds
  | fails, fails => fails
  | _, _ => unknown

end Truth

end Discography
