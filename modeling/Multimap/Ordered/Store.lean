import Multimap.Backend.Factory
import Multimap.Traversal.Contents

/-!
# Ordered stores

An ordered store keeps the keys in the order of their bytes, and the values of a
key newest first. It outlives opening, and closing empties it. Its cursor can be
used again after it has been released.

Main definitions:
1. `Contents.insertPair`, `erasePair` and `eraseKey`, the changes of ordered contents;
2. `Store`, such contents as a backend;
3. `factory`, which makes empty stores.
-/

namespace Multimap.Traversal.Contents

/-- Puts a value in front of the other values of its key, and a new key where its
order wants it. -/
def insertPair (key value : Bytes) : Contents → Contents
  | [] => [(key, [value])]
  | (other, values) :: rest =>
      match compare key other with
      | .lt => (key, [value]) :: (other, values) :: rest
      | .eq => (other, value :: values) :: rest
      | .gt => (other, values) :: insertPair key value rest

/-- Takes the newest occurrence of a pair out, and a key with its last value. -/
def erasePair (key value : Bytes) (contents : Contents) : Contents :=
  contents.filterMap fun (other, values) =>
    if other == key then
      match values.erase value with
      | [] => none
      | values => some (other, values)
    else
      some (other, values)

/-- Takes a key out with its values. -/
def eraseKey (key : Bytes) (contents : Contents) : Contents :=
  contents.filter (·.1 != key)

/-- Whether a key is there, or a key with a value. -/
def contains (contents : Contents) (key : Bytes) (value : Option Bytes) : Bool :=
  match contents.lookup key, value with
  | none, _ => false
  | some _, none => true
  | some values, some value => values.contains value

end Multimap.Traversal.Contents

namespace Multimap.Ordered

open Multimap.Traversal

/-- A store with its keys in order. -/
structure Store where
  contents : Contents
  deriving DecidableEq, Repr

/-- A cursor over a store as it was when the cursor was made. -/
structure Cursor where
  contents : Contents
  spot : Option Spot
  deriving DecidableEq, Repr

namespace Cursor

/-- Answers a request. -/
def get (c : Cursor) (request : Request) (wantValue : Bool) : Option Entry × Cursor :=
  let spot := c.contents.move c.spot request
  (spot.bind (·.current? wantValue), { c with spot })

/-- Forgets the spot. -/
def finish (c : Cursor) : Cursor :=
  { c with spot := none }

end Cursor

namespace Store

/-- The store without keys. -/
def empty : Store :=
  { contents := [] }

/-- Adds a pair. -/
def put (s : Store) (key value : Bytes) : Store :=
  { contents := s.contents.insertPair key value }

/-- Removes a key, and says whether it was there. -/
def erase (s : Store) (key : Bytes) : Bool × Store :=
  (s.contents.contains key none, { contents := s.contents.eraseKey key })

/-- Removes a pair, and says whether it was there. -/
def erasePair (s : Store) (key value : Bytes) : Bool × Store :=
  if s.contents.contains key (some value) then
    (true, { contents := s.contents.erasePair key value })
  else
    (false, s)

/-- The cursor before its first request. -/
def cursor (s : Store) : Cursor :=
  { contents := s.contents, spot := none }

end Store

variable {m : Type → Type} [Monad m]

instance : CursorState m Cursor where
  get request wantValue := Op.ofStep fun c =>
    let (entry, c) := c.get request wantValue
    (.ok entry, c)
  finish c := pure c.finish
  extent c := c.contents.pairs.length

instance : Backend m Store Cursor where
  openAs _ := Op.ofStep fun s => (.ok (), s)
  close := Op.ofStep fun _ => (.ok (), .empty)
  put key value := Op.ofStep fun s => (.ok (), s.put key value)
  contains s key value := pure (s.contents.contains key value)
  erase key := Op.ofStep fun s =>
    let (found, s) := s.erase key
    (.ok found, s)
  erasePair key value := Op.ofStep fun s =>
    let (found, s) := s.erasePair key value
    (.ok found, s)
  sync := Op.ofStep fun s => (.ok (), s)
  fileDescriptor? _ := none
  pairCount? _ := none
  cursor s := pure s.cursor
  discard _ := pure ()

/-- The factory of empty stores, with the sizes that it is to report. -/
def factory {σ : Type} (name : String) (storeSize cursorSize : Nat)
    (wrap : Store → σ) : Factory m σ :=
  { name, storeSize, cursorSize, create := pure (wrap .empty) }

end Multimap.Ordered
