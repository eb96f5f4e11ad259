import Multimap.Traversal.Cursor

/-!
# Walks

A walk hands out the entries of a multimap one by one: all pairs, the values of
one key, or all keys. It holds at most one entry in advance, because only a step
of the cursor tells whether there is another one. An error is handed out once and
ends the walk; the cursor is released as soon as an error or the end shows.

Main definitions:
1. `Scope`, what is walked;
2. `Walk`, a cursor and what was read in advance;
3. `Walk.atEnd` and `Walk.next`;
4. `Walk.drain`, all items.
-/

namespace Multimap.Traversal

/-- What a walk covers. -/
inductive Scope where
  /-- Every pair. -/
  | pairs
  /-- The pairs of one key. -/
  | valuesOf (key : Bytes)
  /-- Every key once. -/
  | keys
  deriving DecidableEq, Repr

namespace Scope

/-- The request that a walk begins with. -/
def opening : Scope → Request
  | .valuesOf key => .seek key
  | .pairs | .keys => .first

end Scope

/-- What a walk knows about its next item. -/
inductive Ahead where
  /-- Nothing has been read since the last item. -/
  | unread
  | entry (entry : Entry)
  | failure (error : Error)
  | nothing
  deriving DecidableEq, Repr

namespace Ahead

/-- What an answer of the cursor says about the next item. Values that were not
wanted are dropped. -/
def ofAnswer (wantValues : Bool) : Except Error (Option Entry) → Ahead
  | .ok (some found) => .entry (if wantValues then found else found.keyOnly)
  | .ok none => .nothing
  | .error error => .failure error

end Ahead

/-- A walk over a multimap. -/
structure Walk (κ : Type) where
  cursor : Cursor κ
  scope : Scope
  wantValues : Bool
  /-- Whether the opening request has been made. -/
  opened : Bool
  ahead : Ahead

namespace Walk

/-- An item of a walk. -/
abbrev Item := Except Error Entry

variable {m : Type → Type} {κ : Type} [Monad m] [CursorState m κ]

/-- The walk before its first item. A walk over keys wants no values. -/
def ofState (scope : Scope) (wantValues : Bool) (state : κ) : Walk κ :=
  { cursor := .ofState state
    scope
    wantValues := wantValues && scope != .keys
    opened := false
    ahead := .unread }

/-! ## Steps -/

/-- Passes a request on to the cursor. -/
def request (r : Request) : Op m (Walk κ) (Option Entry) :=
  ExceptT.mk fun w => do
    let (answer, cursor) ← (Cursor.get r w.wantValues).run w.cursor
    pure (answer, { w with cursor })

/-- Goes on behind the last item: to the next value, to the next key, or to the
next key once there is no next value. -/
def following : Scope → Op m (Walk κ) (Option Entry)
  | .keys => request .nextKey
  | .valuesOf _ => request .nextValue
  | .pairs => do
      match ← request .nextValue with
      | some entry => return some entry
      | none => request .nextKey

/-- Reads the next entry. -/
def readOn : Op m (Walk κ) (Option Entry) := do
  let w ← get
  if w.opened then
    following w.scope
  else
    set { w with opened := true }
    request w.scope.opening

/-- Reads the next item in advance, unless that has been done. Releases the cursor
when there is no entry. -/
def peek (w : Walk κ) : m (Walk κ) := do
  match w.ahead with
  | .unread =>
      let (answer, w) ← readOn.run w
      match Ahead.ofAnswer w.wantValues answer with
      | .entry entry => return { w with ahead := .entry entry }
      -- At the end and after an error the cursor is of no more use.
      | ahead =>
          let cursor ← w.cursor.finish
          return { w with cursor, ahead }
  | _ => return w

/-- Whether no item is left. An error that has not been handed out is an item. -/
def atEnd (w : Walk κ) : m (Bool × Walk κ) := do
  let w ← w.peek
  return (w.ahead = .nothing, w)

/-- The next item. -/
def next (w : Walk κ) : m (Option Item × Walk κ) := do
  let w ← w.peek
  return match w.ahead with
    | .entry entry => (some (.ok entry), { w with ahead := .unread })
    | .failure error => (some (.error error), { w with ahead := .nothing })
    | .nothing | .unread => (none, { w with ahead := .nothing })

/-- Gives the walk up. -/
def discard (w : Walk κ) : m Unit :=
  w.cursor.discard

/-! ## All items -/

/-- The next items, at most `limit` of them, up to the end. -/
def take : (limit : Nat) → Walk κ → m (List Item × Walk κ)
  | 0, w => return ([], w)
  | limit + 1, w => do
      match ← w.next with
      | (none, w) => return ([], w)
      | (some item, w) =>
          let (items, w) ← take limit w
          return (item :: items, w)

/-- All items: the entries, possibly an error, and the call that shows the end. -/
def drain (w : Walk κ) : m (List Item) := do
  -- One item more for an error, and one call more to see the end.
  let (items, w) ← take (CursorState.extent (m := m) w.cursor.state + 2) w
  w.discard
  return items

end Walk

end Multimap.Traversal
