import Multimap.Chained.Arena
import Multimap.Chained.Digest
import Multimap.Chained.Memory
import Multimap.Chained.Tuning

/-!
# Chained tables

A table is a multimap in memory. Its buckets are the heads of chains of nodes, one
node per key, and every node is the head of a chain with the key's values, newest
first. The nodes of all buckets are in one arena, and the values of all nodes in
another.

A table has no buckets before the first `put`. Every `put` first makes room: it
doubles the buckets until the share of the occupied ones is below the load factor,
and only then adds its pair, so that between two puts the share may reach the load
factor.

Main definitions:
1. `Table`, with `empty` and `ofTuning`;
2. `find?`, the place of a key, and `contains`, of a key or of a pair;
3. `double`, which moves all nodes to twice as many buckets;
4. `putIn` and `put`, of which only allocations can fail;
5. `erase`, `erasePair` and `clear`.
-/

namespace Multimap.Chained

/-- What a table knows about a key. -/
structure Node where
  key : Bytes
  /-- The digest of the key, kept so that doubling need not compute it again. -/
  digest : UInt64
  /-- The first of the values, newest first. -/
  values : Option Slot
  valueCount : Nat
  deriving DecidableEq, Repr

namespace Node

/-- The node of a key without values. -/
def ofKey (key : Bytes) : Node :=
  { key, digest := Chained.digest key, values := none, valueCount := 0 }

/-- Counts one more value, which is at `slot` and leads to the others. -/
def addValue (slot : Slot) (n : Node) : Node :=
  { n with values := some slot, valueCount := n.valueCount + 1 }

/-- Counts one value less. `values` is where the others begin. -/
def dropValue (values : Option Slot) (n : Node) : Node :=
  { n with values, valueCount := n.valueCount - 1 }

end Node

/-- A multimap from keys to values. -/
structure Table where
  tuning : Tuning
  tuning_valid : tuning.Valid
  /-- The first node of each bucket. -/
  heads : Array (Option Slot)
  nodes : Arena Node
  values : Arena Bytes
  /-- The number of buckets with nodes. -/
  occupied : Nat

/-- Where a node is: its bucket, the node before it, and its slot. -/
structure Place where
  bucket : Nat
  previous : Option Slot
  slot : Slot
  deriving DecidableEq, Repr

/-- The bucket of a digest among `capacity` ones. For a capacity that is a power of
two this is the digest modulo the capacity. -/
def indexOf (capacity : Nat) (digest : UInt64) : Nat :=
  digest.toNat &&& (capacity - 1)

namespace Table

/-! ## Building -/

/-- The table without buckets. -/
def empty (tuning : Tuning) (tuning_valid : tuning.Valid) : Table :=
  { tuning, tuning_valid, heads := #[], nodes := .empty, values := .empty, occupied := 0 }

/-- The empty table of a tuning, if that is valid. -/
def ofTuning (tuning : Tuning) : Except Error Table :=
  match h : tuning.fault? with
  | some fault => .error (.invalidTuning fault)
  | none => .ok (empty tuning (Tuning.fault?_eq_none_iff.1 h))

/-- The empty table of the default tuning. -/
def standard : Table :=
  empty {} Tuning.valid_default

/-! ## Counts -/

/-- The number of buckets; zero before the first `put`. -/
def capacity (t : Table) : Nat :=
  t.heads.size

/-- The number of keys. -/
def keyCount (t : Table) : Nat :=
  t.nodes.size

/-- The number of pairs. -/
def pairCount (t : Table) : Nat :=
  t.values.size

/-! ## Reading -/

/-- The first node of a bucket. -/
def head (t : Table) (bucket : Nat) : Option Slot :=
  t.heads.getD bucket none

/-- The nodes of a bucket. -/
def chain (t : Table) (bucket : Nat) : List (Slot × Node) :=
  t.nodes.chain (t.head bucket)

/-- The node at a slot. -/
def node? (t : Table) (slot : Slot) : Option Node :=
  (t.nodes.get? slot).map Cell.item

/-- The values of the node at a slot. -/
def valueChain (t : Table) (slot : Slot) : List (Slot × Bytes) :=
  t.values.chain ((t.node? slot).bind Node.values)

/-- The place of a key. -/
def find? (t : Table) (key : Bytes) : Option Place :=
  if t.capacity = 0 then
    none
  else
    let bucket := indexOf t.capacity (digest key)
    (seek? (·.key == key) none (t.chain bucket)).map fun (previous, slot) =>
      { bucket, previous, slot }

/-- Whether the key is there, or the key with this value. -/
def contains (t : Table) (key : Bytes) (value : Option Bytes) : Bool :=
  match t.find? key, value with
  | none, _ => false
  | some _, none => true
  | some place, some value => (t.valueChain place.slot).any (·.2 == value)

/-! ## Doubling -/

/-- Puts the node at a slot, whose digest is given, in front of the chain of its
bucket. -/
def hang (t : Table) (slot : Slot) (digest : UInt64) : Table :=
  let bucket := indexOf t.capacity digest
  { t with
    heads := t.heads.setIfInBounds bucket (some slot)
    nodes := t.nodes.setNext slot (t.head bucket)
    occupied := if (t.head bucket).isNone then t.occupied + 1 else t.occupied }

/-- Hangs the nodes of a chain one by one, at most `limit` of them. Where the chain
goes on is read before the node gets its new link. -/
def hangChain : (limit : Nat) → Option Slot → Table → Table
  | 0, _, t => t
  | _ + 1, none, t => t
  | limit + 1, some slot, t =>
      match t.nodes.get? slot with
      | none => t
      | some cell => hangChain limit cell.next (t.hang slot cell.item.digest)

/-- Twice as many buckets with the same nodes. The chains are walked in the order
of their buckets, each from its head. -/
def double (t : Table) : Table :=
  t.heads.foldl (fun grown head => grown.hangChain t.keyCount head)
    { t with heads := Array.replicate (2 * t.capacity) none, occupied := 0 }

/-- Whether the share of occupied buckets has reached the load factor. The products are
exact; `Era.crowdedInWords_eq` says when those of 64-bit words are the same. -/
def crowded (t : Table) : Bool :=
  1000 * t.occupied ≥ t.tuning.loadFactor * t.capacity

/-- Doubles while the table is crowded, at most `limit` times. -/
def doubleWhileCrowded (memory : Memory) : (limit : Nat) → Table → Except Error Unit × Table
  | 0, t => (.ok (), t)
  | limit + 1, t =>
      if t.crowded then
        let wanted := Allocation.moreBuckets (2 * t.capacity)
        if memory wanted then
          doubleWhileCrowded memory limit t.double
        else
          (.error wanted.failure, t)
      else
        (.ok (), t)

/-! ## Adding -/

/-- A number of doublings after which the table is not crowded: no more buckets
than keys are occupied, and the load factor is at least one. -/
def doublingLimit (t : Table) : Nat :=
  (1000 * t.keyCount).log2 + 1

/-- Allocates the first buckets, or doubles them until they are not crowded. -/
def makeRoom (memory : Memory) (t : Table) : Except Error Unit × Table :=
  if t.capacity = 0 then
    let wanted := Allocation.buckets t.tuning.initialCapacity
    -- Fresh buckets are never crowded, so they are not doubled.
    if memory wanted then
      (.ok (), { t with heads := Array.replicate t.tuning.initialCapacity none })
    else
      (.error wanted.failure, t)
  else
    t.doubleWhileCrowded memory t.doublingLimit

/-- The copies that adding a pair takes. -/
def copies (t : Table) (key value : Bytes) : List Allocation :=
  match t.find? key with
  | some _ => [.value value.length]
  | none => [.value value.length, .key key.length]

/-- Adds the node of a key that has none. -/
def addNode (t : Table) (key : Bytes) : Table :=
  { t with nodes := t.nodes.insert { item := .ofKey key, next := none } }.hang
    t.nodes.fresh (digest key)

/-- Adds a value in front of the other values of the node at a slot. -/
def addValue (t : Table) (slot : Slot) (value : Bytes) : Table :=
  { t with
    nodes := t.nodes.modifyItem slot (·.addValue t.values.fresh)
    values := t.values.insert { item := value, next := (t.node? slot).bind Node.values } }

/-- Adds a pair to buckets that have room for it. -/
def add (t : Table) (key value : Bytes) : Table :=
  match t.find? key with
  | some place => t.addValue place.slot value
  | none => (t.addNode key).addValue t.nodes.fresh value

/-- Adds a value in front of the other values of its key. When memory fails, the
room that was made stays. -/
def putIn (memory : Memory) (t : Table) (key value : Bytes) : Except Error Unit × Table :=
  match t.makeRoom memory with
  | (.error error, t) => (.error error, t)
  | (.ok _, t) =>
      -- Everything is copied before a chain is touched.
      match memory.refusal? (t.copies key value) with
      | some error => (.error error, t)
      | none => (.ok (), t.add key value)

/-- Adds a value in front of the other values of its key, where memory refuses
nothing but first buckets that cannot be addressed. -/
def put (t : Table) (key value : Bytes) : Except Error Table :=
  match t.putIn .addressable key value with
  | (.error error, _) => .error error
  | (.ok _, t) => .ok t

/-! ## Removing -/

/-- Takes out the node at a place with all its values. -/
def unlink (t : Table) (place : Place) : Table :=
  match t.nodes.get? place.slot with
  | none => t
  | some cell =>
      let heads :=
        if place.previous.isNone then t.heads.setIfInBounds place.bucket cell.next else t.heads
      { t with
        heads
        nodes := t.nodes.detach place.previous place.slot
        values := t.values.removeChain cell.item.values
        occupied := if (heads.getD place.bucket none).isNone then t.occupied - 1 else t.occupied }

/-- Removes a key with all its values. The flag says whether it was there. -/
def erase (t : Table) (key : Bytes) : Bool × Table :=
  match t.find? key with
  | none => (false, t)
  | some place => (true, t.unlink place)

/-- Takes out the value at `slot`, behind `previous`, of the node at `owner`. -/
def removeValue (t : Table) (owner : Slot) (previous : Option Slot) (slot : Slot) : Table :=
  let next := (t.values.get? slot).bind Cell.next
  { t with
    nodes := t.nodes.modifyItem owner fun n =>
      n.dropValue (if previous.isNone then next else n.values)
    values := t.values.detach previous slot }

/-- Removes the newest occurrence of a pair, and its key with the last value. The
flag says whether it was there. -/
def erasePair (t : Table) (key value : Bytes) : Bool × Table :=
  match t.find? key with
  | none => (false, t)
  | some place =>
      match seek? (· == value) none (t.valueChain place.slot) with
      | none => (false, t)
      | some (previous, slot) =>
          let t := t.removeValue place.slot previous slot
          -- With its last value the node goes too.
          (true, if (t.node? place.slot).any (·.valueCount == 0) then t.unlink place else t)

/-- Removes everything, the buckets included. -/
def clear (t : Table) : Table :=
  empty t.tuning t.tuning_valid

end Table

end Multimap.Chained
