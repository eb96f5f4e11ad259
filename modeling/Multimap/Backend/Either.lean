import Multimap.Backend.Basic

/-!
# One of two backends

Where two kinds of backends are in use, a state is a state of either, and every
operation goes to the kind that the state is of.
-/

namespace Multimap

namespace Op

variable {m : Type → Type} {σ τ α : Type} [Monad m]

/-- An operation of the kind that the state is of. -/
def either (left : Op m σ α) (right : Op m τ α) : Op m (σ ⊕ τ) α :=
  ExceptT.mk fun
    | .inl s => do
        let (answer, s) ← left.run s
        pure (answer, .inl s)
    | .inr t => do
        let (answer, t) ← right.run t
        pure (answer, .inr t)

end Op

variable {m : Type → Type} {σ τ κ ν : Type} [Monad m]

instance [CursorState m κ] [CursorState m ν] : CursorState m (κ ⊕ ν) where
  get request wantValue :=
    Op.either (CursorState.get request wantValue) (CursorState.get request wantValue)
  finish
    | .inl k => Sum.inl <$> CursorState.finish k
    | .inr n => Sum.inr <$> CursorState.finish n
  extent
    | .inl k => CursorState.extent (m := m) k
    | .inr n => CursorState.extent (m := m) n

instance [Backend m σ κ] [Backend m τ ν] : Backend m (σ ⊕ τ) (κ ⊕ ν) where
  openAs request := Op.either (Backend.openAs request) (Backend.openAs request)
  close := Op.either Backend.close Backend.close
  put key value := Op.either (Backend.put key value) (Backend.put key value)
  contains
    | .inl s, key, value => Backend.contains s key value
    | .inr t, key, value => Backend.contains t key value
  erase key := Op.either (Backend.erase key) (Backend.erase key)
  erasePair key value := Op.either (Backend.erasePair key value) (Backend.erasePair key value)
  sync := Op.either Backend.sync Backend.sync
  fileDescriptor?
    | .inl s => Backend.fileDescriptor? m s
    | .inr t => Backend.fileDescriptor? m t
  pairCount?
    | .inl s => Backend.pairCount? m s
    | .inr t => Backend.pairCount? m t
  cursor
    | .inl s => Sum.inl <$> Backend.cursor s
    | .inr t => Sum.inr <$> Backend.cursor t
  discard
    | .inl s => Backend.discard s
    | .inr t => Backend.discard t

end Multimap
