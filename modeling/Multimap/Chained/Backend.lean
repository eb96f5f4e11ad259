import Multimap.Backend.Factory
import Multimap.Chained.Cursor

/-!
# Chained tables as backends

A table is its own storage: opening and writing out do nothing, and closing drops
everything. Only adding a pair can fail, when memory does.
-/

namespace Multimap.Chained

variable {m : Type → Type} [Monad m]

instance : CursorState m Cursor where
  get request wantValue := Op.ofStep fun c => c.get request wantValue
  finish c := pure c.finish
  extent c := c.table.pairCount

/-- Tables in a memory that may refuse at one time what it grants at another. -/
@[reducible]
def backendIn (memory : Table → Memory) : Backend m Table Cursor where
  openAs _ := Op.ofStep fun t => (.ok (), t)
  close := Op.ofStep fun t => (.ok (), t.clear)
  put key value := Op.ofStep fun t => t.putIn (memory t) key value
  contains t key value := pure (t.contains key value)
  erase key := Op.ofStep fun t =>
    let (found, t) := t.erase key
    (.ok found, t)
  erasePair key value := Op.ofStep fun t =>
    let (found, t) := t.erasePair key value
    (.ok found, t)
  sync := Op.ofStep fun t => (.ok (), t)
  fileDescriptor? _ := none
  pairCount? t := some t.pairCount
  cursor t := pure (.ofTable t)
  discard _ := pure ()

instance : Backend m Table Cursor :=
  backendIn fun _ => .addressable

/-- The bytes of a table, where words have eight of them: two words for the tuning, three
for the array of heads, four for each arena, and one for the number of occupied buckets. -/
def tableSize : Nat := 8 * (2 + 3 + 2 * 4 + 1)

/-- The bytes of a cursor: a word each for the table, the bucket, the node, the value and
the flag. -/
def cursorSize : Nat := 8 * 5

/-- The factory of tables with a tuning, if that is valid. Where tables are one kind among
others, `wrap` takes them in. -/
def factory {σ : Type} (name : String) (tuning : Tuning) (wrap : Table → σ) :
    Except Error (Factory m σ) := do
  let table ← Table.ofTuning tuning
  return { name, storeSize := tableSize, cursorSize, create := pure (wrap table) }

end Multimap.Chained
