import Multimap.Backend.Basic
import Multimap.Traversal.Walk

/-!
# Copying one backend into another

A copy opens the target and adds to it every pair of the source. A backend puts
the newest value of a key first, so the pairs are added in the reverse order of
the walk; then each key of the copy has its values in the order of the source.
-/

namespace Multimap.Backend

open Multimap.Traversal

variable {m : Type → Type} {σ τ κ ν : Type} [Monad m]

/-- The entries of a walk up to its first error, if it has one. -/
def entries [CursorState m κ] [Backend m σ κ] (source : σ) (scope : Scope) (wantValues : Bool) :
    Query m (List Entry) := do
  let state ← Backend.cursor source
  let items ← Walk.drain (m := m) (Walk.ofState scope wantValues state)
  ExceptT.mk (pure (items.mapM id))

/-- Adds the pairs of entries, in order; an entry without a value adds nothing. -/
def putAll [Backend m τ ν] : List Entry → Op m τ Unit
  | [] => pure ()
  | entry :: rest => do
      if let some value := entry.value then
        Backend.put entry.key value
      putAll rest

/-- What a fresh backend is told that becomes a copy. -/
def copyRequest (identifier : String) : OpenRequest m :=
  { identifier, mode := 0o644, writable := true, isNew := true, settings := none }

/-- Opens the target and adds every pair of the source. -/
def copyFrom [CursorState m κ] [Backend m σ κ] [Backend m τ ν] (identifier : String) (source : σ) :
    Op m τ Unit := do
  Backend.openAs (copyRequest identifier)
  -- All pairs are read before the first is added.
  let pairs ← Op.ofQuery fun _ => entries source .pairs true
  putAll pairs.reverse

end Multimap.Backend
