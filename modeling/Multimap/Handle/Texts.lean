import Multimap.Handle.Basic
import Multimap.Settings.Parser
import Multimap.Text.Integer

/-!
# Keys and values as texts

Handles that hold settings are read by text: as the text itself, as a truth value
or as an integer. They are filled by single texts, by a settings text, or by a list
of alternating keys and values.

Main definitions:
1. `getText?`, `takeText?`, `getBool?` and `getInt?`;
2. `putText`, `putSettings` and `putTexts`.
-/

namespace Multimap.Handle

open Multimap.Traversal

variable {m : Type → Type} {σ κ : Type} [Monad m] [CursorState m κ] [Backend m σ κ]

/-! ## Reading -/

/-- The newest value of a key, as a text. -/
def getText? (h : Handle m σ) (key : String) : Query m (Option String) := do
  let value ← h.first? (.ofText key)
  return value.map Text.Utf8.lossy

/-- The newest value of a key, as a text. The key is removed with all its values. -/
def takeText? (key : String) : Op m (Handle m σ) (Option String) := do
  let value ← Op.ofQuery fun h => h.getText? key
  if value.isSome then
    let _ ← erase (.ofText key)
  return value

/-- The truth value that a text stands for. -/
def truth? : String → Option Bool
  | "yes" | "true" => some true
  | "no" | "false" => some false
  | _ => none

/-- The newest value of a key as a truth value, if it stands for one. -/
def getBool? (h : Handle m σ) (key : String) : Query m (Option Bool) := do
  let value ← h.getText? key
  return value.bind truth?

/-- The newest value of a key as an integer. A value that begins with none is an
error. -/
def getInt? (h : Handle m σ) (key : String) : Query m (Option Int) := do
  match ← h.getText? key with
  | none => return none
  | some value =>
      match Text.Integer.read? (.ofText value) with
      | some n => return some n
      | none => throw (.notANumber key value)

/-! ## Filling -/

/-- Adds a pair of texts. -/
def putText (key value : String) : Op m (Handle m σ) Unit :=
  put (.ofText key) (.ofText value)

/-- Adds settings in order, up to the first error. -/
def putItems : List Settings.Item → Op m (Handle m σ) Unit
  | [] => pure ()
  | .error error :: _ => throw error
  | .ok setting :: rest => do
      put setting.key setting.value
      putItems rest

/-- Adds the settings of a text. Those before a value that never closes are added. -/
def putSettings (text : String) : Op m (Handle m σ) Unit :=
  putItems (Settings.items (.ofText text))

/-- Adds texts that are keys and values by turns. -/
def putAlternating : List String → Op m (Handle m σ) Unit
  | key :: value :: rest => do
      putText key value
      putAlternating rest
  | _ => pure ()

/-- Adds texts that are keys and values by turns. A key without a value is the
caller's mistake, and then nothing is added. -/
def putTexts (texts : List String) : Except Misuse (Op m (Handle m σ) Unit) :=
  if texts.length % 2 = 0 then
    .ok (putAlternating texts)
  else
    .error (.unpairedTexts texts.length)

end Multimap.Handle
