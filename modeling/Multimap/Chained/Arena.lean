import Std.Data.TreeMap
import Multimap.Bytes

/-!
# Arenas of linked cells

An arena holds cells by slots. Every cell has an item and may lead to another
cell, so that cells form chains. A slot is given to one cell only: when its cell
is removed, it stays empty.

An arena stands for a container of slots with generations, which uses the place of a
removed cell again, under another generation. What is assumed of that container is what
`Multimap.Proofs.Chained.Links` begins with: there are no cells at first
(`Arena.get?_empty`), a slot that is given is new (`get?_fresh`) and leads to its cell
(`get?_insert`, `get?_modify`) until that is removed (`get?_remove`), and the size counts
the cells (`size_eq_length`, `length_le_size`). Everything else about tables rests on
these laws, and nothing but their proofs looks into the tree of cells. The container
holds at most `Arena.limit` cells; an arena has no limit.

Main definitions:
1. `Cell` and `Arena`, with `get?`, `insert`, `modify` and `remove`;
2. `Arena.chain`, the cells that the links lead through from a slot;
3. `Arena.detach`, which takes a cell out of its chain;
4. `seek?`, the first cell of a chain with a property, and the one before it.
-/

namespace Multimap.Chained

/-- Where a cell is. -/
abbrev Slot := Nat

/-- An item and the slot of the cell that follows. -/
structure Cell (α : Type) where
  item : α
  next : Option Slot
  deriving DecidableEq, Repr

/-- Cells by slots. -/
structure Arena (α : Type) where
  cells : Std.TreeMap Slot (Cell α)
  /-- The slot that the next cell will get. -/
  fresh : Slot
  /-- All slots that were ever given are below the fresh one. -/
  lt_fresh : ∀ slot ∈ cells, slot < fresh

namespace Arena

variable {α : Type}

/-- The number of cells up to which an arena is like the container that it stands for. -/
def limit : Nat := 0xFFFFFFFE

/-- The arena without cells. -/
def empty : Arena α :=
  { cells := ∅, fresh := 0, lt_fresh := by simp }

/-- The cell at a slot. -/
def get? (a : Arena α) (slot : Slot) : Option (Cell α) :=
  a.cells[slot]?

/-- The number of cells. -/
def size (a : Arena α) : Nat :=
  a.cells.size

/-- Adds a cell, at the fresh slot. -/
def insert (a : Arena α) (cell : Cell α) : Arena α :=
  { cells := a.cells.insert a.fresh cell
    fresh := a.fresh + 1
    lt_fresh := by
      intro slot hslot
      rcases Std.TreeMap.mem_insert.1 hslot with heq | hmem
      · have hslot : a.fresh = slot := by simpa using heq
        exact hslot ▸ Nat.lt_succ_self a.fresh
      · exact Nat.lt_succ_of_lt (a.lt_fresh slot hmem) }

/-- Changes the cell at a slot. -/
def modify (a : Arena α) (slot : Slot) (change : Cell α → Cell α) : Arena α :=
  { cells := a.cells.modify slot change
    fresh := a.fresh
    lt_fresh := fun other hother => a.lt_fresh other (Std.TreeMap.mem_modify.1 hother) }

/-- Changes the item at a slot. -/
def modifyItem (a : Arena α) (slot : Slot) (change : α → α) : Arena α :=
  a.modify slot fun cell => { cell with item := change cell.item }

/-- Lets the cell at a slot lead to another one. -/
def setNext (a : Arena α) (slot : Slot) (next : Option Slot) : Arena α :=
  a.modify slot fun cell => { cell with next }

/-- Removes the cell at a slot. -/
def remove (a : Arena α) (slot : Slot) : Arena α :=
  { cells := a.cells.erase slot
    fresh := a.fresh
    lt_fresh := fun other hother => a.lt_fresh other (Std.TreeMap.mem_erase.1 hother).2 }

/-! ## Chains -/

/-- The cells that the links lead through from a slot, at most `limit` of them. -/
def chainUpTo (a : Arena α) : (limit : Nat) → Option Slot → List (Slot × α)
  | 0, _ => []
  | _ + 1, none => []
  | limit + 1, some slot =>
      match a.get? slot with
      | none => []
      | some cell => (slot, cell.item) :: a.chainUpTo limit cell.next

/-- The cells that the links lead through from a slot. No chain is longer than
there are cells. -/
def chain (a : Arena α) (head : Option Slot) : List (Slot × α) :=
  a.chainUpTo a.size head

/-- Removes the cell at a slot, and lets the cell before it lead to the one behind. -/
def detach (a : Arena α) (previous : Option Slot) (slot : Slot) : Arena α :=
  let next := (a.get? slot).bind Cell.next
  match previous with
  | none => a.remove slot
  | some previous => (a.remove slot).setNext previous next

/-- Removes every cell of a chain. -/
def removeChain (a : Arena α) (head : Option Slot) : Arena α :=
  (a.chain head).foldl (fun a cell => a.remove cell.1) a

end Arena

/-- The slot of the first cell whose item `p` accepts, behind the slot of the cell
before it. -/
def seek? {α : Type} (p : α → Bool) (previous : Option Slot) :
    List (Slot × α) → Option (Option Slot × Slot)
  | [] => none
  | (slot, item) :: rest => if p item then some (previous, slot) else seek? p (some slot) rest

end Multimap.Chained
