import Multimap.Error
import Multimap.Text.Record

/-!
# Tuning of a chained table

A table doubles its buckets when, out of 1000, as many are occupied as the load
factor says, and it starts with the initial capacity. Tunings are plain values
until a table is built; only a valid one is accepted then.

Main definitions:
1. `Tuning` and `Tuning.Valid`;
2. `Tuning.fault?`, what is wrong with a tuning, the load factor first;
3. `Tuning.ofDocument?`, the tuning that a structured document describes;
4. `Tuning.written` and `Tuning.shown`, its two textual forms.
-/

namespace Multimap.Chained

/-- The parameters of a chained table. -/
structure Tuning where
  /-- Occupied buckets per 1000 at which the table doubles. -/
  loadFactor : Nat := 750
  /-- Number of buckets at first. -/
  initialCapacity : Nat := 8
  deriving DecidableEq, Repr

namespace Tuning

/-! ## Validity -/

/-- A tuning that a table can be built with. -/
structure Valid (t : Tuning) : Prop where
  loadFactor_pos : 0 < t.loadFactor
  loadFactor_lt : t.loadFactor < 1000
  initialCapacity_pow : t.initialCapacity.isPowerOfTwo

/-- The first parameter that lies outside its range. -/
def fault? (t : Tuning) : Option TuningFault :=
  if t.loadFactor = 0 ∨ 1000 ≤ t.loadFactor then
    some (.loadFactor t.loadFactor)
  else if 1 <<< t.initialCapacity.log2 ≠ t.initialCapacity then
    some (.initialCapacity t.initialCapacity)
  else
    none

/-- A power of two is the single bit at its logarithm. -/
theorem isPowerOfTwo_iff_shiftLeft_log2 (n : Nat) : n.isPowerOfTwo ↔ 1 <<< n.log2 = n := by
  rw [Nat.one_shiftLeft]
  constructor
  · rintro ⟨k, rfl⟩
    rw [Nat.log2_two_pow]
  · intro h
    exact ⟨n.log2, h.symm⟩

/-- A tuning is valid exactly when nothing is wrong with it. -/
theorem fault?_eq_none_iff {t : Tuning} : t.fault? = none ↔ t.Valid := by
  unfold fault?
  constructor
  · intro h
    split at h
    · simp at h
    · next hload =>
        split at h
        · simp at h
        · next hcap =>
            exact ⟨by omega, by omega, (isPowerOfTwo_iff_shiftLeft_log2 _).2 (by simpa using hcap)⟩
  · rintro ⟨hpos, hlt, hpow⟩
    rw [if_neg (by omega), if_neg (by simpa using (isPowerOfTwo_iff_shiftLeft_log2 _).1 hpow)]

/-- Accepts a valid tuning. -/
def validate (t : Tuning) : Except Error Unit :=
  match t.fault? with
  | some fault => .error (.invalidTuning fault)
  | none => .ok ()

theorem valid_default : ({} : Tuning).Valid :=
  fault?_eq_none_iff.1 rfl

/-! ## Documents -/

/-- A value inside a document: a natural number, or something else. -/
inductive Scalar where
  | natural (n : Nat)
  | other
  deriving DecidableEq, Repr

/-- A structured document, as far as a tuning can be read from it. -/
inductive Document where
  | fields (fields : List (String × Scalar))
  | items (items : List Scalar)
  | other
  deriving DecidableEq, Repr

/-- A number below `bound`; a missing one is the default. -/
def natBelow? (bound default : Nat) : Option Scalar → Option Nat
  | none => some default
  | some (.natural n) => if n < bound then some n else none
  | some .other => none

/-- A tuning from its two parameters: 32 bits for the load factor and 64 for the capacity. -/
def ofScalars? (loadFactor initialCapacity : Option Scalar) : Option Tuning := do
  let standard : Tuning := {}
  let loadFactor ← natBelow? UInt32.size standard.loadFactor loadFactor
  let initialCapacity ← natBelow? UInt64.size standard.initialCapacity initialCapacity
  return { loadFactor, initialCapacity }

/-- Reads a tuning from named fields, of which others are ignored, or from a list
of at most two parameters. -/
def ofDocument? : Document → Option Tuning
  | .fields fields => ofScalars? (fields.lookup "load_factor") (fields.lookup "initial_capacity")
  | .items items => if items.length ≤ 2 then ofScalars? items[0]? items[1]? else none
  | .other => none

/-- A tuning as a document with named fields. -/
def written (t : Tuning) : String :=
  "\x7b\"load_factor\":" ++ toString t.loadFactor ++
    ",\"initial_capacity\":" ++ toString t.initialCapacity ++ "\x7d"

/-- How a tuning is shown. -/
def shown (t : Tuning) : String :=
  Text.record "MemoryConfig"
    [("load_factor", toString t.loadFactor), ("initial_capacity", toString t.initialCapacity)]

end Tuning

end Multimap.Chained
