import Multimap.Error
import Multimap.Traversal.Request

/-!
# The contract of a backend

A backend stores the pairs of one multimap and makes cursors over them. All layers
above it are written against the two classes of this module, for a monad `m` of
the effects that a backend may have beside its own state, such as keeping a
journal of the calls it gets. A state survives an operation that fails.

Main definitions:
1. `Query` and `Op`, operations that read or change a state and may fail;
2. `CursorState`, the states of a backend's cursors;
3. `Backend`, the states of a backend.
-/

namespace Multimap

open Multimap.Traversal

/-- An answer with effects, or an error. -/
abbrev Query (m : Type → Type) (α : Type) := ExceptT Error m α

/-- A change of a state with effects, which leaves a state also when it fails. -/
abbrev Op (m : Type → Type) (σ α : Type) := ExceptT Error (StateT σ m) α

namespace Op

variable {m : Type → Type} {σ τ α : Type} [Monad m]

/-- The operation that answers and moves on without effects. -/
def ofStep (step : σ → Except Error α × σ) : Op m σ α :=
  ExceptT.mk fun s => pure (step s)

/-- The operation that asks and changes nothing. -/
def ofQuery (query : σ → Query m α) : Op m σ α :=
  ExceptT.mk fun s => do
    let answer ← (query s).run
    pure (answer, s)

/-- An operation on a part of a state. -/
def onPart (part : τ → σ) (withPart : τ → σ → τ) (op : Op m σ α) : Op m τ α :=
  ExceptT.mk fun t => do
    let (answer, s) ← op.run (part t)
    pure (answer, withPart t s)

end Op

/-- What a backend is told when it is opened. -/
structure OpenRequest (m : Type → Type) where
  identifier : String
  mode : Nat
  writable : Bool
  isNew : Bool
  /-- The settings that come along, by key. -/
  settings : Option (String → Query m (Option String))

/-- The states of a cursor. -/
class CursorState (m : Type → Type) (κ : Type) where
  /-- Answers a request, with a value only where one is wanted; `none` at the end. -/
  get : Request → (wantValue : Bool) → Op m κ (Option Entry)
  /-- Releases what the cursor holds. -/
  finish : κ → m κ
  /-- A bound for a walk over all pairs, which ends a walk that would go on for ever. It is
  a bare number: `Walk.drain` makes two calls more and no others, so where it is too small
  a copy stops early, without an error. `Backend.Presents.cursor` asks for a large enough
  one where a result depends on it. -/
  extent : κ → Nat

/-- The states of a backend, whose cursors have states of type `κ`. -/
class Backend (m : Type → Type) (σ : Type) (κ : outParam Type) where
  openAs : OpenRequest m → Op m σ Unit
  close : Op m σ Unit
  /-- Adds a value in front of the other values of a key. -/
  put : (key value : Bytes) → Op m σ Unit
  /-- Whether a key is there, or a key with a value. -/
  contains : σ → (key : Bytes) → (value : Option Bytes) → Query m Bool
  /-- Removes a key with all its values, and says whether it was there. -/
  erase : (key : Bytes) → Op m σ Bool
  /-- Removes one pair, and says whether it was there. -/
  erasePair : (key value : Bytes) → Op m σ Bool
  sync : Op m σ Unit
  /-- A file descriptor that stands for the storage. -/
  fileDescriptor? : σ → Option Int
  /-- The number of pairs, where it is known. -/
  pairCount? : σ → Option Nat
  cursor : σ → Query m κ
  /-- What happens when the backend is given up. -/
  discard : σ → m Unit

end Multimap
