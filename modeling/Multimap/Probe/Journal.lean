import Multimap.Text.Shown
import Multimap.Traversal.Request

/-!
# Journals of calls

A probe keeps a journal of the calls that reach it. Each call has one line: the
probe's name, the call's name and its arguments, byte strings in hexadecimal.

Main definitions:
1. `Call`, a call with its arguments;
2. `Event`, a call of a named probe, and its line;
3. `Journal`, the monads that keep one.
-/

namespace Multimap.Probe

open Multimap.Traversal

/-- What a probe sees of the settings that come with an opening. -/
inductive SettingsSeen where
  /-- No settings came along. -/
  | absent
  /-- Settings came along, and say nothing to the probe. -/
  | silent
  /-- Settings came along, with a text for the probe. -/
  | text (said : String)
  deriving DecidableEq, Repr

/-- A call that a backend or a cursor gets. -/
inductive Call where
  | create
  | openAs (identifier : String) (mode : Nat) (writable isNew : Bool) (settings : SettingsSeen)
  | close
  | put (key value : Bytes)
  | contains (key : Bytes) (value : Option Bytes)
  | erase (key : Bytes)
  | erasePair (key value : Bytes)
  | sync
  | cursor
  | get (request : Request) (wantValue : Bool)
  | finish
  | discard
  deriving DecidableEq, Repr

namespace SettingsSeen

/-- The written form of what was seen. -/
def written : SettingsSeen → String
  | .absent => "none"
  | .silent => "some"
  | .text said => Text.applied "some" said

end SettingsSeen

namespace Call

/-- The name of a call. -/
def name : Call → String
  | .create => "create"
  | .openAs .. => "open"
  | .close => "close"
  | .put .. => "put"
  | .contains .. => "exists"
  | .erase _ => "delete_key"
  | .erasePair .. => "delete_key_value"
  | .sync => "sync"
  | .cursor => "cursor"
  | .get .. => "get"
  | .finish => "finish"
  | .discard => "destroy"

/-- The written form of a request, in parts. -/
def requestParts : Request → List String
  | .seek key => ["set", key.hex]
  | .first => ["first"]
  | .nextKey => ["next"]
  | .nextValue => ["next_value"]

/-- The written forms of a call's arguments. -/
def arguments : Call → List String
  | .openAs identifier mode writable isNew settings =>
      [ identifier, toString mode, Text.shownBool writable, Text.shownBool isNew,
        settings.written ]
  | .put key value | .erasePair key value => [key.hex, value.hex]
  | .contains key value => [key.hex, (value.map Bytes.hex).getD "-"]
  | .erase key => [key.hex]
  | .get request wantValue => requestParts request ++ [Text.shownBool wantValue]
  | .create | .close | .sync | .cursor | .finish | .discard => []

end Call

/-- A call that reached the probe called `probe`. -/
structure Event where
  probe : String
  call : Call
  deriving DecidableEq, Repr

namespace Event

/-- The line of an event. -/
def line (e : Event) : String :=
  e.probe ++ "." ++ ":".intercalate (e.call.name :: e.call.arguments)

end Event

/-- A monad that keeps a journal. -/
class Journal (m : Type → Type) where
  record : Event → m Unit

instance {n : Type → Type} [Monad n] : Journal (StateT (Array Event) n) where
  record event := modify (·.push event)

end Multimap.Probe
