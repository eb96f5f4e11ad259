import Multimap.Error
import Multimap.Settings.Scan

/-!
# The settings notation, character by character

The notation as a grammar of characters, for those who write it: a key is a run of ASCII
letters, digits, `_` and `-`, a value is any characters between single quotes, and a
backslash takes the character behind it as it is. Only the offsets in errors are counted in
bytes.

Main definitions:
1. `TextSetting`, a setting as texts, and `encode`, the setting that has their bytes;
2. `State`, `step` and `ending`, what a character and the end of the text do;
3. `settings` and `failure`, what a text is read as.
-/

namespace Multimap.Settings

/-- One setting, as texts. -/
structure TextSetting where
  key : String
  value : String
  deriving DecidableEq, Repr

/-- The setting in UTF-8. -/
def TextSetting.encode (setting : TextSetting) : Setting :=
  { key := .ofText setting.key, value := .ofText setting.value }

namespace Characters

/-- ASCII letters and digits, `_` and `-`. -/
def isKeyChar (c : Char) : Bool :=
  c.isAlphanum || c == '_' || c == '-'

/-- The space, and the controls from the horizontal tab to the carriage return. -/
def isBlankChar (c : Char) : Bool :=
  c == ' ' || ('\t' ≤ c && c ≤ '\r')

/-- What has been read of the setting at hand. -/
inductive State where
  /-- Nothing yet. -/
  | searching
  /-- A part of the key. -/
  | inKey (key : String)
  /-- The key, and a blank behind it. -/
  | behindKey (key : String)
  /-- The key and `=`. -/
  | behindEquals (key : String)
  /-- A part of the value, whose opening quote is the byte at `quote`. -/
  | inValue (key value : String) (quote : Nat)
  /-- The same, and a backslash. -/
  | behindBackslash (key value : String) (quote : Nat)
  deriving DecidableEq, Repr

/-- What a character does whose first byte is at `offset`: the state behind it, and the
setting that it completes. -/
def step (offset : Nat) (c : Char) : State → State × Option TextSetting
  | .searching =>
      if isKeyChar c then (.inKey (String.singleton c), none) else (.searching, none)
  | .inKey key =>
      if isKeyChar c then (.inKey (key.push c), none)
      else if c = '=' then (.behindEquals key, none)
      else if isBlankChar c then (.behindKey key, none)
      else (.searching, none)
  | .behindKey key =>
      if c = '=' then (.behindEquals key, none)
      else if isBlankChar c then (.behindKey key, none)
      else (.searching, none)
  | .behindEquals key =>
      if c = '\'' then (.inValue key "" offset, none)
      else if isBlankChar c then (.behindEquals key, none)
      else (.searching, none)
  | .inValue key value quote =>
      if c = '\\' then (.behindBackslash key value quote, none)
      else if c = '\'' then (.searching, some { key, value })
      else (.inValue key (value.push c) quote, none)
  | .behindBackslash key value quote => (.inValue key (value.push c) quote, none)

/-- What the end of the text means: nothing outside a value, and in a value that it does not
close. -/
def ending : State → Option Error
  | .inValue key _ quote | .behindBackslash key _ quote => some (.unterminatedValue key quote)
  | .searching | .inKey _ | .behindKey _ | .behindEquals _ => none

/-- The settings that a stretch of a text completes whose first byte is at `offset`, and the
state behind it. -/
def pass (state : State) (offset : Nat) : List Char → List TextSetting × State
  | [] => ([], state)
  | c :: rest =>
      let (next, found) := step offset c state
      let (settings, last) := pass next (offset + c.utf8Size) rest
      (found.toList ++ settings, last)

/-- The settings of a text. -/
def settings (text : String) : List TextSetting :=
  (pass .searching 0 text.toList).1

/-- The error of a text, if its last value does not close. -/
def failure (text : String) : Option Error :=
  ending (pass .searching 0 text.toList).2

end Characters

end Multimap.Settings
