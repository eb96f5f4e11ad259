import Mathlib.Algebra.Ring.Nat
import Multimap.Chained.Table
import Multimap.Traversal.Contents

/-!
# What a chained table holds

A row is a node together with its values, and the layout of a table is the rows of
its buckets as a cursor meets them: bucket after bucket, each chain from its head,
the values of a key newest first. A table is well formed when its links lead
through the layout and through nothing else, when the layout has every key once
and in the right bucket, and when the counts are right.

Main definitions:
1. `Arena.IsChain`, the links from a slot to the end of a chain;
2. `Row`, `Layout`, and `Table.layout` with `Table.contents`;
3. `Layout.WellFormed`, of the rows alone;
4. `Table.Realizes`, of links and arenas with regard to a layout;
5. `Table.WellFormed`.
-/

namespace Multimap.Chained

open Multimap.Traversal

/-- The links that begin at a slot lead through the cells of a list and end behind
the last of them. -/
inductive Arena.IsChain {α : Type} (a : Arena α) : Option Slot → List (Slot × α) → Prop where
  | nil : IsChain a none []
  | cons {slot : Slot} {item : α} {next : Option Slot} {rest : List (Slot × α)} :
      a.get? slot = some { item, next } → IsChain a next rest →
        IsChain a (some slot) ((slot, item) :: rest)

/-! ## Layouts -/

/-- A node and its values, with their slots. -/
structure Row where
  slot : Slot
  node : Node
  values : List (Slot × Bytes)
  deriving DecidableEq, Repr

namespace Row

/-- The key of a row. -/
def key (r : Row) : Bytes :=
  r.node.key

/-- The node of a row with its slot. -/
def cell (r : Row) : Slot × Node :=
  (r.slot, r.node)

/-- The slots of the values. -/
def valueSlots (r : Row) : List Slot :=
  r.values.map Prod.fst

/-- The key with its values. -/
def binding (r : Row) : Bytes × List Bytes :=
  (r.key, r.values.map Prod.snd)

/-- A row with values, whose digest and count are those of its key and values. -/
structure WellFormed (r : Row) : Prop where
  digest_eq : r.node.digest = digest r.key
  values_ne_nil : r.values ≠ []
  valueCount_eq : r.node.valueCount = r.values.length

end Row

/-- The rows of every bucket. -/
abbrev Layout := List (List Row)

namespace Layout

/-- All rows in the order of a traversal. -/
def rows (layout : Layout) : List Row :=
  layout.flatten

/-- The keys with their values in the order of a traversal. -/
def contents (layout : Layout) : Contents :=
  layout.rows.map Row.binding

/-- Well-formed rows, each in the bucket of its digest, and every key once. -/
structure WellFormed (layout : Layout) : Prop where
  row : ∀ r ∈ layout.rows, r.WellFormed
  indexOf_eq : ∀ bucket rows, layout[bucket]? = some rows →
    ∀ r ∈ rows, indexOf layout.length r.node.digest = bucket
  keys_nodup : (layout.rows.map Row.key).Nodup

end Layout

/-- Two arenas hold the nodes and the values of the rows, each once, and nothing
else. -/
structure Stores (nodes : Arena Node) (values : Arena Bytes) (rows : List Row) : Prop where
  node_iff : ∀ slot, (nodes.get? slot).isSome ↔ slot ∈ rows.map Row.slot
  value_iff : ∀ slot, (values.get? slot).isSome ↔ slot ∈ rows.flatMap Row.valueSlots
  nodes_nodup : (rows.map Row.slot).Nodup
  values_nodup : (rows.flatMap Row.valueSlots).Nodup
  /-- The values of a row are the chain that its node leads to. -/
  isChain : ∀ r ∈ rows, values.IsChain r.node.values r.values

namespace Table

/-- The row of a node. -/
def row (t : Table) (cell : Slot × Node) : Row :=
  { slot := cell.1, node := cell.2, values := t.values.chain cell.2.values }

/-- The rows of every bucket. -/
def layout (t : Table) : Layout :=
  (List.range t.capacity).map fun bucket => (t.chain bucket).map t.row

/-- The keys with their values in the order of a traversal. -/
def contents (t : Table) : Contents :=
  t.layout.contents

/-- The buckets lead through a layout, and the number of occupied ones is right. -/
structure Hangs (t : Table) (layout : Layout) : Prop where
  capacity_eq : t.capacity = layout.length
  isChain : ∀ bucket rows, layout[bucket]? = some rows →
    t.nodes.IsChain (t.head bucket) (rows.map Row.cell)
  occupied_eq : t.occupied = layout.countP fun rows => !rows.isEmpty

/-- The links and the arenas of a table are those of a layout. -/
structure Realizes (t : Table) (layout : Layout) : Prop where
  hangs : t.Hangs layout
  stores : Stores t.nodes t.values layout.rows

/-- A table realizes a layout that is well formed. -/
structure Holds (t : Table) (layout : Layout) : Prop extends Realizes t layout where
  wellFormed : layout.WellFormed

/-- A table that holds its layout, with as many buckets as its tuning leads to. -/
structure WellFormed (t : Table) : Prop where
  holds : t.Holds t.layout
  capacity_eq : t.capacity = 0 ∨ ∃ doublings, t.capacity = t.tuning.initialCapacity * 2 ^ doublings

end Table

end Multimap.Chained
