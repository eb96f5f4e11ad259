/-!
# Errors

What can go wrong, as causes, and the wording of each. An absent key, an absent
pair and the end of a traversal are ordinary answers and never errors.

Main definitions:
1. `TuningFault`, a parameter outside its range;
2. `Error`, what an operation may fail with;
3. `Misuse`, a call whose arguments break the caller's side of the contract.
-/

namespace Multimap

/-- A tuning parameter that lies outside its range. -/
inductive TuningFault where
  | loadFactor (given : Nat)
  | initialCapacity (given : Nat)
  deriving DecidableEq, Repr

namespace TuningFault

/-- The wording of a fault. -/
def message : TuningFault → String
  | .loadFactor given => s!"load_factor must be in 1..1000, got {given}"
  | .initialCapacity given => s!"initial_capacity must be a power of two, got {given}"

end TuningFault

/-- The failure of an operation. -/
inductive Error where
  /-- Memory ran out during `task`. -/
  | allocationFailure (task : String)
  /-- The handle is open under `identifier` already. -/
  | alreadyOpen (identifier : String)
  /-- The cursor has released its position for good. -/
  | cursorFinished
  /-- The value of `key`, whose opening quote is the byte at `offset`, never closes. -/
  | unterminatedValue (key : String) (offset : Nat)
  /-- The text stored under `key` begins with no integer. -/
  | notANumber (key value : String)
  /-- A table cannot be built with this tuning. -/
  | invalidTuning (fault : TuningFault)
  /-- A backend's own failure. -/
  | backend (name reason : String)
  deriving DecidableEq, Repr

namespace Error

/-- The wording of an error. -/
def message : Error → String
  | .allocationFailure task => s!"allocation failed while {task}"
  | .alreadyOpen identifier => s!"hash `{identifier}` is already open"
  | .cursorFinished => "cursor used after finish"
  | .unterminatedValue key offset =>
      s!"unterminated quoted value for key `{key}` starting at byte {offset}"
  | .notANumber key value => s!"value `{value}` of key `{key}` is not a number"
  | .invalidTuning fault => s!"invalid memory hash configuration: {fault.message}"
  | .backend name reason => s!"backend `{name}` failed: {reason}"

end Error

/-- A call that its caller had no right to make. -/
inductive Misuse where
  /-- A second factory under a name that is taken. -/
  | duplicateFactory (name : String)
  /-- A list of alternating keys and values with a key left over. -/
  | unpairedTexts (count : Nat)
  deriving DecidableEq, Repr

namespace Misuse

/-- The wording of a misuse. -/
def message : Misuse → String
  | .duplicateFactory name => s!"hash factory `{name}` registered twice"
  | .unpairedTexts count =>
      s!"from_array_of_strings needs key/value pairs, got {count} strings"

end Misuse

end Multimap
