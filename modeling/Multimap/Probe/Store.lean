import Multimap.Ordered.Store
import Multimap.Probe.Journal

/-!
# Probes

A probe is an ordered store that writes every call into a journal before anything
else, and that fails where it is told to. A call that fails changes nothing but
the counts of calls.

Main definitions:
1. `Faults`, where a probe fails and what else it does out of the ordinary;
2. `Store` and `Cursor`, its states;
3. `factory`, which makes empty probes.
-/

namespace Multimap.Probe

open Multimap.Traversal

/-- Where a probe departs from an ordered store. -/
structure Faults where
  create : Bool := false
  openAs : Bool := false
  close : Bool := false
  sync : Bool := false
  contains : Bool := false
  erase : Bool := false
  erasePair : Bool := false
  cursor : Bool := false
  /-- The count of the `put` that fails, from one on. -/
  putAt : Option Nat := none
  /-- The count of the `get` that fails for each cursor, from one on. -/
  getAt : Option Nat := none
  /-- Whether entries have values also where none are wanted. -/
  alwaysValues : Bool := false
  fileDescriptor : Option Int := none
  deriving DecidableEq, Repr

/-- A probe. -/
structure Store where
  name : String
  faults : Faults
  inner : Ordered.Store
  /-- How often `put` was called. -/
  puts : Nat
  deriving DecidableEq, Repr

/-- A probe's cursor. -/
structure Cursor where
  name : String
  faults : Faults
  inner : Ordered.Cursor
  /-- How often `get` was called. -/
  gets : Nat
  deriving DecidableEq, Repr

/-- The error of a call that was told to fail. -/
def failure (name : String) (call : Call) : Error :=
  .backend name (call.name ++ " failed")

variable {m : Type → Type} [Monad m] [Journal m]

/-- Writes a call down, and then takes a step unless the call is to fail. -/
def recorded {σ α : Type} (name : σ → String) (call : Call) (fails : σ → Bool)
    (step : σ → α × σ) : Op m σ α :=
  ExceptT.mk fun s => do
    Journal.record { probe := name s, call }
    if fails s then
      return (.error (failure (name s) call), s)
    else
      let (answer, s) := step s
      return (.ok answer, s)

/-- Writes a call down that asks, and then answers unless the call is to fail. -/
def asked {α : Type} (s : Store) (call : Call) (fails : Bool) (answer : α) : Query m α := do
  let _ ← ExceptT.lift (Journal.record { probe := s.name, call })
  if fails then
    throw (failure s.name call)
  else
    return answer

/-- Applies a change of the inner store. -/
def onInner {α : Type} (change : Ordered.Store → α × Ordered.Store) (s : Store) : α × Store :=
  let (answer, inner) := change s.inner
  (answer, { s with inner })

/-- What settings say to a probe, unless they cannot be read. -/
def seen : Option (String → Query m (Option String)) → Query m SettingsSeen
  | none => return .absent
  | some lookup => do
      match ← lookup "probe" with
      | some text => return .text text
      | none => return .silent

/-- Counts a `put`, writes it down, and adds the pair unless this one is to fail. -/
def putCounted (key value : Bytes) : Op m Store Unit :=
  ExceptT.mk fun s => do
    -- A `put` that fails is counted too.
    let s := { s with puts := s.puts + 1 }
    (recorded Store.name (.put key value) (fun s => s.faults.putAt == some s.puts)
      (onInner fun inner => ((), inner.put key value))).run s

/-- Counts a `get`, writes it down, and answers it unless this one is to fail. -/
def getCounted (request : Request) (wantValue : Bool) : Op m Cursor (Option Entry) :=
  ExceptT.mk fun c => do
    let c := { c with gets := c.gets + 1 }
    (recorded Cursor.name (.get request wantValue) (fun c => c.faults.getAt == some c.gets)
      (fun c =>
        let (entry, inner) := c.inner.get request (wantValue || c.faults.alwaysValues)
        (entry, { c with inner }))).run c

instance : CursorState m Cursor where
  get := getCounted
  finish c := do
    Journal.record { probe := c.name, call := .finish }
    return { c with inner := c.inner.finish }
  extent c := c.inner.contents.pairs.length

instance : Backend m Store Cursor where
  openAs request := do
    -- The settings may belong to another probe, whose calls come first then. Where
    -- they cannot be read, the probe is not opened and writes nothing down.
    let settings ← Op.ofQuery fun _ => seen request.settings
    let call :=
      .openAs request.identifier request.mode request.writable request.isNew settings
    recorded Store.name call (·.faults.openAs) fun s => ((), s)
  close := recorded Store.name .close (·.faults.close) (onInner fun _ => ((), .empty))
  put := putCounted
  contains s key value :=
    asked s (.contains key value) s.faults.contains (s.inner.contents.contains key value)
  erase key := recorded Store.name (.erase key) (·.faults.erase) (onInner (·.erase key))
  erasePair key value :=
    recorded Store.name (.erasePair key value) (·.faults.erasePair)
      (onInner (·.erasePair key value))
  sync := recorded Store.name .sync (·.faults.sync) fun s => ((), s)
  fileDescriptor? s := s.faults.fileDescriptor
  pairCount? _ := none
  cursor s :=
    asked s .cursor s.faults.cursor
      { name := s.name, faults := s.faults, inner := s.inner.cursor, gets := 0 }
  discard s := Journal.record { probe := s.name, call := .discard }

/-- The factory of empty probes, with the sizes that it is to report. -/
def factory {σ : Type} (name : String) (faults : Faults)
    (storeSize cursorSize : Nat) (wrap : Store → σ) : Factory m σ :=
  let fresh : Store := { name, faults, inner := .empty, puts := 0 }
  { name
    storeSize
    cursorSize
    create := wrap <$> asked fresh .create faults.create fresh }

end Multimap.Probe
