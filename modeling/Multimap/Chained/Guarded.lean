import Multimap.Chained.Cursor

/-!
# Guarded tables

The operations of tables and cursors once more, step by step, with a guard before every step
that could go wrong. A table without guards reads an absent cell as the end of a chain and takes
one from zero to be zero; here the operation stops with the fault.

A guard asks
* before the bucket of a digest is computed, that there are buckets (`bucketOf`), and before a
  bucket is read or written, that it is one of them (`headAt`, `setHead`);
* before a link is followed or the cell behind it changed, that the cell is there (`follow`,
  `alter`), and before a node is taken out, that it is there (`unlink`);
* before a count is lowered, that it is not zero (`lower`);
* before a walk goes on to one more cell, that it has met fewer cells than the arena stored when
  the walk began (`seek`, `free`, `hangChain`).

Main definitions:
1. `Fault`, what a guard stops;
2. `find?`, `contains`, `double`, `putIn`, `erase` and `erasePair` of a table;
3. `move` and `get` of a cursor.
-/

namespace Multimap.Chained

open Multimap.Traversal

/-- What a guard stops. -/
inductive Fault where
  /-- The bucket of a digest, where there are no buckets. -/
  | noBuckets
  /-- A bucket behind the last one. -/
  | noSuchBucket (bucket : Nat)
  /-- A link to a cell that is not there. -/
  | brokenLink (slot : Slot)
  /-- A node to be taken out that is not there. -/
  | noSuchNode (slot : Slot)
  /-- One less than zero. -/
  | belowZero
  /-- A walk, or a loop, that goes on behind its last possible step. -/
  | endless
  deriving DecidableEq, Repr

namespace Guarded

/-! ## Arenas -/

section Arena

variable {α : Type}

/-- The cell that a link leads to. -/
def follow (a : Arena α) (slot : Slot) : Except Fault (Cell α) :=
  match a.get? slot with
  | some cell => .ok cell
  | none => .error (.brokenLink slot)

/-- Changes the cell that a link leads to. -/
def alter (a : Arena α) (slot : Slot) (change : Cell α → Cell α) : Except Fault (Arena α) := do
  let _ ← follow a slot
  return a.modify slot change

/-- Removes a cell, and lets the cell before it lead to the one behind. -/
def detach (a : Arena α) (previous : Option Slot) (slot : Slot) : Except Fault (Arena α) := do
  let cell ← follow a slot
  match previous with
  | none => return a.remove slot
  | some previous => alter (a.remove slot) previous fun before => { before with next := cell.next }

/-- Walks over at most `limit` cells, up to the first whose item `p` accepts. -/
def seek (a : Arena α) (p : α → Bool) :
    (limit : Nat) → (previous head : Option Slot) → Except Fault (Option (Option Slot × Slot))
  | _, _, none => .ok none
  | 0, _, some _ => .error .endless
  | limit + 1, previous, some slot => do
      let cell ← follow a slot
      if p cell.item then
        return some (previous, slot)
      else
        seek a p limit (some slot) cell.next

/-- Walks over at most `limit` cells and removes them. -/
def free : (limit : Nat) → (head : Option Slot) → Arena α → Except Fault (Arena α)
  | _, none, a => .ok a
  | 0, some _, _ => .error .endless
  | limit + 1, some slot, a => do
      let cell ← follow a slot
      free limit cell.next (a.remove slot)

end Arena

/-! ## Buckets and counts -/

/-- The bucket of a digest. -/
def bucketOf (t : Table) (digest : UInt64) : Except Fault Nat :=
  if t.capacity = 0 then .error .noBuckets else .ok (indexOf t.capacity digest)

/-- The first node of a bucket. -/
def headAt (t : Table) (bucket : Nat) : Except Fault (Option Slot) :=
  match t.heads[bucket]? with
  | some head => .ok head
  | none => .error (.noSuchBucket bucket)

/-- Gives a bucket another first node. -/
def setHead (t : Table) (bucket : Nat) (head : Option Slot) :
    Except Fault (Array (Option Slot)) := do
  let _ ← headAt t bucket
  return t.heads.setIfInBounds bucket head

/-- One less. -/
def lower : Nat → Except Fault Nat
  | 0 => .error .belowZero
  | n + 1 => .ok n

/-! ## Reading -/

/-- The place of a key. -/
def find? (t : Table) (key : Bytes) : Except Fault (Option Place) := do
  if t.capacity = 0 then
    return none
  else
    let bucket ← bucketOf t (digest key)
    let head ← headAt t bucket
    let found ← seek t.nodes (·.key == key) t.keyCount none head
    return found.map fun (previous, slot) => { bucket, previous, slot }

/-- The place of the first occurrence of a value among those of the node at a slot, behind the
slot of the value before it. -/
def findValue? (t : Table) (slot : Slot) (value : Bytes) :
    Except Fault (Option (Option Slot × Slot)) := do
  let node ← follow t.nodes slot
  seek t.values (· == value) t.pairCount none node.item.values

/-- Whether the key is there, or the key with this value. -/
def contains (t : Table) (key : Bytes) (value : Option Bytes) : Except Fault Bool := do
  match ← find? t key, value with
  | none, _ => return false
  | some _, none => return true
  | some place, some value =>
      let found ← findValue? t place.slot value
      return found.isSome

/-! ## Doubling -/

/-- Puts the node at a slot, whose digest is given, in front of the chain of its bucket. -/
def hang (t : Table) (slot : Slot) (digest : UInt64) : Except Fault Table := do
  let bucket ← bucketOf t digest
  let head ← headAt t bucket
  let nodes ← alter t.nodes slot fun cell => { cell with next := head }
  let heads ← setHead t bucket (some slot)
  return { t with
    heads, nodes, occupied := if head.isNone then t.occupied + 1 else t.occupied }

/-- Hangs the nodes of a chain one by one, at most `limit` of them. -/
def hangChain : (limit : Nat) → (head : Option Slot) → Table → Except Fault Table
  | _, none, t => .ok t
  | 0, some _, _ => .error .endless
  | limit + 1, some slot, t => do
      let cell ← follow t.nodes slot
      let t ← hang t slot cell.item.digest
      hangChain limit cell.next t

/-- Twice as many buckets with the same nodes. -/
def double (t : Table) : Except Fault Table :=
  if t.capacity = 0 then
    .error .noBuckets
  else
    t.heads.foldlM (fun grown head => hangChain t.keyCount head grown)
      { t with heads := Array.replicate (2 * t.capacity) none, occupied := 0 }

/-- Doubles while the table is crowded, which must be over after `limit` times. -/
def doubleWhileCrowded (memory : Memory) :
    (limit : Nat) → Table → Except Fault (Except Error Unit × Table)
  | 0, t => if t.crowded then .error .endless else .ok (.ok (), t)
  | limit + 1, t =>
      if t.crowded then
        let wanted := Allocation.moreBuckets (2 * t.capacity)
        if memory wanted then do
          let t ← double t
          doubleWhileCrowded memory limit t
        else
          .ok (.error wanted.failure, t)
      else
        .ok (.ok (), t)

/-! ## Adding -/

/-- Allocates the first buckets, or doubles them until they are not crowded. -/
def makeRoom (memory : Memory) (t : Table) : Except Fault (Except Error Unit × Table) :=
  if t.capacity = 0 then
    .ok (t.makeRoom memory)
  else
    doubleWhileCrowded memory t.doublingLimit t

/-- Adds the node of a key that has none. -/
def addNode (t : Table) (key : Bytes) : Except Fault Table :=
  hang { t with nodes := t.nodes.insert { item := .ofKey key, next := none } } t.nodes.fresh
    (digest key)

/-- Adds a value in front of the other values of the node at a slot. -/
def addValue (t : Table) (slot : Slot) (value : Bytes) : Except Fault Table := do
  let node ← follow t.nodes slot
  let nodes ← alter t.nodes slot fun cell => { cell with item := cell.item.addValue t.values.fresh }
  return { t with nodes, values := t.values.insert { item := value, next := node.item.values } }

/-- Copies a pair and adds it to buckets that have room for it. -/
def add (memory : Memory) (t : Table) (key value : Bytes) :
    Except Fault (Except Error Unit × Table) := do
  match memory.refusal? [.value value.length] with
  | some error => return (.error error, t)
  | none =>
      match ← find? t key with
      | some place =>
          let t ← addValue t place.slot value
          return (.ok (), t)
      | none =>
          match memory.refusal? [.key key.length] with
          | some error => return (.error error, t)
          | none =>
              let slot := t.nodes.fresh
              let t ← addNode t key
              let t ← addValue t slot value
              return (.ok (), t)

/-- Adds a value in front of the other values of its key. -/
def putIn (memory : Memory) (t : Table) (key value : Bytes) :
    Except Fault (Except Error Unit × Table) := do
  match ← makeRoom memory t with
  | (.error error, t) => return (.error error, t)
  | (.ok _, t) => add memory t key value

/-! ## Removing -/

/-- The first nodes of the buckets when the node at a place has gone and `next` was behind it. -/
def headsWithout (t : Table) (place : Place) (next : Option Slot) :
    Except Fault (Array (Option Slot)) :=
  if place.previous.isNone then setHead t place.bucket next else .ok t.heads

/-- The number of occupied buckets when a node of one of them has gone. -/
def occupiedWithout (t : Table) (bucket : Nat) : Except Fault Nat := do
  let head ← headAt t bucket
  if head.isNone then lower t.occupied else return t.occupied

/-- Takes out the node at a place with all its values. -/
def unlink (t : Table) (place : Place) : Except Fault Table :=
  match t.nodes.get? place.slot with
  | none => .error (.noSuchNode place.slot)
  | some node => do
      let nodes ← detach t.nodes place.previous place.slot
      let heads ← headsWithout t place node.next
      let occupied ← occupiedWithout { t with heads } place.bucket
      let values ← free t.pairCount node.item.values t.values
      return { t with heads, nodes, values, occupied }

/-- Removes a key with all its values. -/
def erase (t : Table) (key : Bytes) : Except Fault (Bool × Table) := do
  match ← find? t key with
  | none => return (false, t)
  | some place =>
      let t ← unlink t place
      return (true, t)

/-- Takes out the value at `slot`, behind `previous`, of the node at `owner`. -/
def removeValue (t : Table) (owner : Slot) (previous : Option Slot) (slot : Slot) :
    Except Fault Table := do
  let cell ← follow t.values slot
  let values ← detach t.values previous slot
  let node ← follow t.nodes owner
  let _ ← lower node.item.valueCount
  let nodes ← alter t.nodes owner fun node => { node with
    item := node.item.dropValue (if previous.isNone then cell.next else node.item.values) }
  return { t with nodes, values }

/-- Takes out the node at a place if it has no values left. -/
def unlinkEmpty (t : Table) (place : Place) : Except Fault Table := do
  let node ← follow t.nodes place.slot
  if node.item.valueCount = 0 then unlink t place else return t

/-- Removes the newest occurrence of a pair, and its key with the last value. -/
def erasePair (t : Table) (key value : Bytes) : Except Fault (Bool × Table) := do
  match ← find? t key with
  | none => return (false, t)
  | some place =>
      match ← findValue? t place.slot value with
      | none => return (false, t)
      | some (previous, slot) =>
          let t ← removeValue t place.slot previous slot
          let t ← unlinkEmpty t place
          return (true, t)

/-! ## Cursors -/

/-- Goes to a node, if there is one, and to its first value. -/
def goTo (c : Cursor) : Option (Nat × Slot) → Except Fault (Bool × Cursor)
  | some (bucket, slot) => do
      let node ← follow c.table.nodes slot
      return (true, { c with bucket, node := some slot, value := node.item.values })
  | none => .ok (false, c.exhaust)

/-- The node behind the one at a slot, in its bucket or else in a later one. -/
def following? (t : Table) (bucket : Nat) (slot : Slot) : Except Fault (Option (Nat × Slot)) := do
  let node ← follow t.nodes slot
  match node.next with
  | some next => return some (bucket, next)
  | none => return t.occupiedFrom? (bucket + 1)

/-- Where a request leads to. -/
def move (c : Cursor) : Request → Except Fault (Bool × Cursor)
  | .seek key => do
      let place ← find? c.table key
      goTo c (place.map fun place => (place.bucket, place.slot))
  | .first => goTo c (c.table.occupiedFrom? 0)
  | .nextKey =>
      match c.node with
      | none => .ok (false, c)
      | some slot => do
          let next ← following? c.table c.bucket slot
          goTo c next
  | .nextValue =>
      match c.node, c.value with
      | some _, some slot => do
          let value ← follow c.table.values slot
          return (value.next.isSome, { c with value := value.next })
      | _, _ => .ok (false, c)

/-- What is to be seen at the position. -/
def current? (c : Cursor) (wantValue : Bool) : Except Fault (Option Entry) :=
  match c.node with
  | none => .ok none
  | some slot => do
      let node ← follow c.table.nodes slot
      match wantValue, c.value with
      | true, some slot =>
          let value ← follow c.table.values slot
          return some { key := node.item.key, value := some value.item }
      | _, _ => return some { key := node.item.key, value := none }

/-- Answers a request. -/
def get (c : Cursor) (request : Request) (wantValue : Bool) :
    Except Fault (Except Error (Option Entry) × Cursor) :=
  if c.finished then
    .ok (.error .cursorFinished, c)
  else do
    let (found, c) ← move c request
    if found then
      let entry ← current? c wantValue
      return (.ok entry, c)
    else
      return (.ok none, c)

end Guarded

end Multimap.Chained
