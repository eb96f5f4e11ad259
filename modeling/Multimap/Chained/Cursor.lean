import Multimap.Chained.Table
import Multimap.Traversal.Request

/-!
# Cursors over a chained table

A cursor meets the keys by bucket, in a bucket from the head of the chain, and the
values of a key newest first. When the values of a key have run out the key stays
current, so that the next key is still the one behind it.

What is found is copied out, and the copies are taken to succeed: unlike those of `put`,
they ask no `Memory`, and so the only error of a cursor is that it was finished.

Main definitions:
1. `Table.occupiedFrom?` and `Table.following?`, where the next key is;
2. `Cursor.move`, where a request leads to;
3. `Cursor.get` and `Cursor.finish`.
-/

namespace Multimap.Chained

open Multimap.Traversal

namespace Table

/-- The first occupied bucket from `bucket` on, with its first node. -/
def occupiedFrom? (t : Table) (bucket : Nat) : Option (Nat × Slot) :=
  if h : bucket < t.heads.size then
    match t.heads[bucket] with
    | some slot => some (bucket, slot)
    | none => t.occupiedFrom? (bucket + 1)
  else
    none
termination_by t.heads.size - bucket

/-- The node behind the one at a slot, in its bucket or else in a later one. -/
def following? (t : Table) (bucket : Nat) (slot : Slot) : Option (Nat × Slot) :=
  match (t.nodes.get? slot).bind Cell.next with
  | some next => some (bucket, next)
  | none => t.occupiedFrom? (bucket + 1)

end Table

/-- A cursor over a table as it was when the cursor was made. -/
structure Cursor where
  table : Table
  bucket : Nat
  /-- The current node. -/
  node : Option Slot
  /-- The current value; none once the values of the node have run out. -/
  value : Option Slot
  finished : Bool

namespace Cursor

/-- The cursor before its first request. -/
def ofTable (table : Table) : Cursor :=
  { table, bucket := 0, node := none, value := none, finished := false }

/-- Goes to the first value of a node. -/
def position (c : Cursor) (bucket : Nat) (slot : Slot) : Cursor :=
  { c with bucket, node := some slot, value := (c.table.node? slot).bind Node.values }

/-- Gives the position up. -/
def exhaust (c : Cursor) : Cursor :=
  { c with node := none, value := none }

/-- Goes to a node, if there is one. The flag says whether there is. -/
def goTo (c : Cursor) : Option (Nat × Slot) → Bool × Cursor
  | some (bucket, slot) => (true, c.position bucket slot)
  | none => (false, c.exhaust)

/-- Where a request leads to. The flag says whether there is something to be seen. -/
def move (c : Cursor) : Request → Bool × Cursor
  | .seek key => c.goTo ((c.table.find? key).map fun place => (place.bucket, place.slot))
  | .first => c.goTo (c.table.occupiedFrom? 0)
  | .nextKey =>
      match c.node with
      | none => (false, c)
      | some slot => c.goTo (c.table.following? c.bucket slot)
  | .nextValue =>
      match c.node, c.value with
      | some _, some slot =>
          let value := (c.table.values.get? slot).bind Cell.next
          (value.isSome, { c with value })
      | _, _ => (false, c)

/-- What is to be seen at the position. -/
def current? (c : Cursor) (wantValue : Bool) : Option Entry := do
  let node ← c.table.node? (← c.node)
  let value := if wantValue then c.value.bind c.table.values.get? else none
  return { key := node.key, value := value.map Cell.item }

/-- Answers a request. A finished cursor answers none; that there is room for the copy of
the entry is taken for granted. -/
def get (c : Cursor) (request : Request) (wantValue : Bool) :
    Except Error (Option Entry) × Cursor :=
  if c.finished then
    (.error .cursorFinished, c)
  else
    let (found, c) := c.move request
    (.ok (if found then c.current? wantValue else none), c)

/-- Gives the position up for good. -/
def finish (c : Cursor) : Cursor :=
  { c.exhaust with finished := true }

end Cursor

end Multimap.Chained
