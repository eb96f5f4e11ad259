import Multimap.Backend.Basic
import Multimap.Text.Quoted
import Multimap.Text.Record

/-!
# Factories

A factory makes fresh backends of one kind, under the name that the kind is known
by. It also tells how large the state of a backend and of a cursor is.
-/

namespace Multimap

/-- A kind of backends. -/
structure Factory (m : Type → Type) (σ : Type) where
  name : String
  /-- The size of a backend's state, in bytes. -/
  storeSize : Nat
  /-- The size of a cursor's state, in bytes. -/
  cursorSize : Nat
  /-- Makes a fresh backend. -/
  create : Query m σ

namespace Factory

/-- How a factory is shown. -/
def shown {m : Type → Type} {σ : Type} (f : Factory m σ) : String :=
  Text.record "Factory"
    [ ("name", Text.quoted f.name),
      ("context_length", toString f.storeSize),
      ("cursor_context_length", toString f.cursorSize) ]

end Factory

end Multimap
