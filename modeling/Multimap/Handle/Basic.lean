import Multimap.Backend.Copy
import Multimap.Backend.Factory
import Multimap.Text.Shown

/-!
# Handles

A handle owns one backend and is how callers get at it. Opening sets its identifier and
closing takes it away; whether the handle is open is kept apart from that. Every other
operation goes to the backend, open or not. A handle that is given up while it is open
closes its backend first.

Main definitions:
1. `Handle`, with `create`, `openAs`, `close` and `discard`;
2. `Handle.copy`, an independent handle with the same pairs;
3. the operations on keys and pairs, `cursor` and `walk`;
4. `Handle.first?`, the newest value of a key.
-/

namespace Multimap

open Multimap.Traversal

/-- A caller's hold on a backend. -/
structure Handle (m : Type → Type) (σ : Type) where
  factory : Factory m σ
  store : σ
  /-- What the backend is open as, if it is open. -/
  identifier : Option String
  /-- Whether the backend was opened and has not been closed since. -/
  isOpen : Bool := false

namespace Handle

variable {m : Type → Type} {σ κ : Type} [Monad m] [CursorState m κ] [Backend m σ κ]

/-! ## From opening to the end -/

/-- A handle with a fresh backend, not open yet. -/
def create (factory : Factory m σ) : Query m (Handle m σ) := do
  let store ← factory.create
  return { factory, store, identifier := none }

/-- An operation of the backend. -/
def onStore {α : Type} (op : Op m σ α) : Op m (Handle m σ) α :=
  Op.onPart Handle.store (fun h store => { h with store }) op

/-- Opens the backend, unless the handle is open. It stays closed when the backend
refuses. -/
def openAs (request : OpenRequest m) : Op m (Handle m σ) Unit :=
  ExceptT.mk fun h => do
    if h.isOpen then
      return (.error (.alreadyOpen (h.identifier.getD "")), h)
    else
      let h := { h with identifier := some request.identifier }
      match ← (Backend.openAs request).run h.store with
      | (.ok _, store) => return (.ok (), { h with store, isOpen := true })
      -- The identifier counts only once the backend has agreed to it.
      | (.error error, store) => return (.error error, { h with store, identifier := none })

/-- Closes the backend, if the handle is open. It counts as closed even when the
backend fails. -/
def close : Op m (Handle m σ) Unit :=
  ExceptT.mk fun h => do
    if h.isOpen then
      let h := { h with isOpen := false, identifier := none }
      let (answer, store) ← Backend.close.run h.store
      return (answer, { h with store })
    else
      return (.ok (), h)

/-- Gives the handle up: closes it, whatever comes of it, and discards the backend. -/
def discard (h : Handle m σ) : m Unit := do
  let (_, h) ← close.run h
  Backend.discard h.store

/-- A handle that is open under another identifier, over a fresh backend with the
same pairs. Where the copy fails, the fresh backend is discarded. -/
def copy (h : Handle m σ) (identifier : String) : Query m (Handle m σ) := do
  let fresh ← h.factory.create
  let (answer, store) ← (Backend.copyFrom (m := m) identifier h.store).run fresh
  match answer with
  | .ok _ =>
      return { factory := h.factory, store, identifier := some identifier, isOpen := true }
  | .error error =>
      -- No handle owns the fresh backend, so nothing closes it.
      Backend.discard (m := m) store
      throw error

/-! ## Keys and pairs -/

/-- Adds a value in front of the other values of a key. -/
def put (key value : Bytes) : Op m (Handle m σ) Unit :=
  onStore (Backend.put key value)

/-- Whether a key is there, or a key with a value. -/
def contains (h : Handle m σ) (key : Bytes) (value : Option Bytes) : Query m Bool :=
  Backend.contains h.store key value

/-- Removes a key with all its values, and says whether it was there. -/
def erase (key : Bytes) : Op m (Handle m σ) Bool :=
  onStore (Backend.erase key)

/-- Removes one pair, and says whether it was there. -/
def erasePair (key value : Bytes) : Op m (Handle m σ) Bool :=
  onStore (Backend.erasePair key value)

/-- Writes everything out to the storage. -/
def sync : Op m (Handle m σ) Unit :=
  onStore Backend.sync

/-- A file descriptor that stands for the storage. -/
def fileDescriptor? (h : Handle m σ) : Option Int :=
  Backend.fileDescriptor? m h.store

/-- The number of pairs, where it is known. -/
def pairCount? (h : Handle m σ) : Option Nat :=
  Backend.pairCount? m h.store

/-! ## Traversal -/

/-- A cursor over the backend. -/
def cursor (h : Handle m σ) : Query m (Cursor κ) :=
  Cursor.ofState <$> Backend.cursor h.store

/-- A walk over the backend. -/
def walk (h : Handle m σ) (scope : Scope) (wantValues : Bool) : Query m (Walk κ) :=
  Walk.ofState scope wantValues <$> Backend.cursor h.store

/-- The newest value of a key. The cursor that reads it is released in any case. -/
def first? (h : Handle m σ) (key : Bytes) : Query m (Option Bytes) := do
  let cursor ← h.cursor
  let (answer, cursor) ← (Cursor.seek (m := m) key).run cursor
  cursor.discard (m := m)
  ExceptT.mk (pure answer)

/-- How a handle is shown. -/
def shown (h : Handle m σ) : String :=
  Text.record "Hash"
    [ ("factory", Text.quoted h.factory.name),
      ("identifier", Text.optional (h.identifier.map Text.quoted)),
      ("is_open", Text.shownBool h.isOpen) ]

end Handle

end Multimap
