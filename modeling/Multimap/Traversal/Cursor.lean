import Multimap.Backend.Basic

/-!
# Cursors

A cursor passes requests on to its backend, and makes sure that the backend's
cursor is released once: by `finish`, or else when the cursor is given up.

Main definitions:
1. `Cursor`, a backend's cursor and whether it has been released;
2. `Cursor.get`, any request, and the requests by name;
3. `Cursor.finish` and `Cursor.discard`.
-/

namespace Multimap.Traversal

/-- A cursor for a backend whose cursors have states of type `κ`. -/
structure Cursor (κ : Type) where
  state : κ
  /-- Whether the backend's cursor has been released. -/
  finished : Bool

namespace Cursor

variable {m : Type → Type} {κ : Type} [Monad m] [CursorState m κ]

/-- The cursor over a fresh state. -/
def ofState (state : κ) : Cursor κ :=
  { state, finished := false }

/-- One request. -/
def get (request : Request) (wantValue : Bool) : Op m (Cursor κ) (Option Entry) :=
  Op.onPart Cursor.state (fun c state => { c with state }) (CursorState.get request wantValue)

/-- The first value of a key. -/
def seek (key : Bytes) : Op m (Cursor κ) (Option Bytes) := do
  let entry ← get (.seek key) true
  return entry.bind Entry.value

/-- The first key. -/
def first (wantValue : Bool) : Op m (Cursor κ) (Option Entry) :=
  get .first wantValue

/-- The next key. -/
def nextKey (wantValue : Bool) : Op m (Cursor κ) (Option Entry) :=
  get .nextKey wantValue

/-- The next value of the same key. -/
def nextValue : Op m (Cursor κ) (Option Bytes) := do
  let entry ← get .nextValue true
  return entry.bind Entry.value

/-- Releases the backend's cursor, once. -/
def finish (c : Cursor κ) : m (Cursor κ) := do
  if c.finished then
    return c
  else
    let state ← CursorState.finish c.state
    return { state, finished := true }

/-- Gives the cursor up. -/
def discard (c : Cursor κ) : m Unit := do
  let _ ← c.finish

end Cursor

end Multimap.Traversal
