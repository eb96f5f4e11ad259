import Std.Data.HashMap
import Multimap.Chained.Backend
import Multimap.Handle.Basic

/-!
# Catalogs of factories

A catalog knows factories by name. It keeps them in the order of registration, and
the last one is the default. A name is given once.

Main definitions:
1. `Catalog`, the factories and an index of their names;
2. `register`, which refuses a name that is taken;
3. `lookup?` and `handle?`, by name or by default;
4. `standard`, the catalog that knows chained tables.
-/

namespace Multimap

/-- Factories by name. -/
structure Catalog (m : Type → Type) (σ : Type) where
  /-- The factories in the order of registration. -/
  factories : Array (Factory m σ)
  /-- Where the factory of a name is. -/
  index : Std.HashMap String Nat

namespace Catalog

variable {m : Type → Type} {σ : Type}

/-- The catalog without factories. -/
def empty : Catalog m σ :=
  { factories := #[], index := ∅ }

/-- Appends a factory whose name is not taken. -/
def append (c : Catalog m σ) (factory : Factory m σ) : Catalog m σ :=
  { factories := c.factories.push factory
    index := c.index.insert factory.name c.factories.size }

/-- Adds a factory, which becomes the default. A name that is taken is the caller's
mistake, and then the catalog is as before. -/
def register (c : Catalog m σ) (factory : Factory m σ) : Except Misuse Unit × Catalog m σ :=
  if c.index.contains factory.name then
    (.error (.duplicateFactory factory.name), c)
  else
    (.ok (), c.append factory)

/-- The catalog that knows chained tables of a valid tuning, as `memory`. -/
def standard [Monad m] (tuning : Chained.Tuning) (wrap : Chained.Table → σ) :
    Except Error (Catalog m σ) := do
  let factory ← Chained.factory "memory" tuning wrap
  return empty.append factory

/-- The factory of a name, or the default one. -/
def lookup? (c : Catalog m σ) : Option String → Option (Factory m σ)
  | some name => do c.factories[← c.index[name]?]?
  | none => c.factories.back?

/-- A fresh handle from the factory of a name, or from the default one. -/
def handle? [Monad m] (c : Catalog m σ) (name : Option String) :
    Option (Query m (Handle m σ)) :=
  (c.lookup? name).map Handle.create

/-- The names in the order of registration. -/
def names (c : Catalog m σ) : List String :=
  c.factories.toList.map Factory.name

/-- The number of factories. -/
def size (c : Catalog m σ) : Nat :=
  c.factories.size

/-- Whether no factory is known. -/
def isEmpty (c : Catalog m σ) : Bool :=
  c.factories.isEmpty

/-- How a catalog is shown. -/
def shown (c : Catalog m σ) : String :=
  Text.listed (c.names.map Text.quoted)

end Catalog

end Multimap
