import Multimap.Settings.Parser

/-!
# The settings notation, byte by byte

The same notation as an automaton that looks at every byte once, from left to
right. Its state is what has been read of the setting at hand.

Main definitions:
1. `State`, the six kinds of states;
2. `step`, what a byte does in a state;
3. `ending`, what the end of the text means in a state;
4. `run`, all items from a state on.
-/

namespace Multimap.Settings.Automaton

open Multimap.Text (isBlank)

/-- What has been read of the setting at hand. -/
inductive State where
  /-- Nothing yet. -/
  | searching
  /-- A part of the key. -/
  | inKey (key : Bytes)
  /-- The key, and a blank behind it. -/
  | behindKey (key : Bytes)
  /-- The key and `=`. -/
  | behindEquals (key : Bytes)
  /-- A part of the value, whose opening quote is the byte at `quote`. -/
  | inValue (key value : Bytes) (quote : Nat)
  /-- The same, and a backslash. -/
  | behindBackslash (key value : Bytes) (quote : Nat)
  deriving DecidableEq, Repr

/-- What the byte at `offset` does: the state behind it, and the setting that it
completes. A byte that does not fit takes the search back to its beginning. -/
def step (offset : Nat) (b : UInt8) : State → State × Option Setting
  | .searching =>
      if isKeyByte b then (.inKey [b], none) else (.searching, none)
  | .inKey key =>
      if isKeyByte b then (.inKey (key ++ [b]), none)
      else if b = 0x3D then (.behindEquals key, none)
      else if isBlank b then (.behindKey key, none)
      else (.searching, none)
  | .behindKey key =>
      if b = 0x3D then (.behindEquals key, none)
      else if isBlank b then (.behindKey key, none)
      else (.searching, none)
  | .behindEquals key =>
      if b = 0x27 then (.inValue key [] offset, none)
      else if isBlank b then (.behindEquals key, none)
      else (.searching, none)
  | .inValue key value quote =>
      if b = 0x5C then (.behindBackslash key value quote, none)
      else if b = 0x27 then (.searching, some { key, value })
      else (.inValue key (value ++ [b]) quote, none)
  | .behindBackslash key value quote => (.inValue key (value ++ [b]) quote, none)

/-- What the end of the text means: nothing outside a value, and in a value that it
does not close. -/
def ending : State → List Item
  | .inValue key _ quote | .behindBackslash key _ quote =>
      [.error (.unterminatedValue (Text.Utf8.lossy key) quote)]
  | .searching | .inKey _ | .behindKey _ | .behindEquals _ => []

/-- The items of a text that goes on with the given bytes, the first of them at
`offset`. -/
def run (state : State) (offset : Nat) : Bytes → List Item
  | [] => ending state
  | b :: rest =>
      match step offset b state with
      | (next, some found) => .ok found :: run next (offset + 1) rest
      | (next, none) => run next (offset + 1) rest

/-- The items of a text. -/
def items (text : Bytes) : List Item :=
  run .searching 0 text

end Multimap.Settings.Automaton
