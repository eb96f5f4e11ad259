import Multimap.Error

/-!
# Memory

What a table asks memory for when a pair is added, and what memory may refuse.

Main definitions:
1. `Allocation` and its `task`, the wording of a refusal;
2. `Memory`, which allocations succeed;
3. `Memory.Ample`, memory that can only refuse first buckets;
4. `Memory.addressable`, which refuses only what cannot be addressed.
-/

namespace Multimap.Chained

/-- What memory is asked for. -/
inductive Allocation where
  /-- The first buckets. -/
  | buckets (count : Nat)
  /-- The buckets that replace half as many. -/
  | moreBuckets (count : Nat)
  | value (length : Nat)
  | key (length : Nat)
  deriving DecidableEq, Repr

namespace Allocation

/-- What an allocation is for. -/
def task : Allocation → String
  | .buckets _ => "allocating the bucket array"
  | .moreBuckets _ => "growing the bucket array"
  | .value _ => "copying a value"
  | .key _ => "copying a key"

/-- The failure of an allocation. -/
def failure (a : Allocation) : Error :=
  .allocationFailure a.task

end Allocation

/-- Which allocations succeed. -/
abbrev Memory := Allocation → Bool

namespace Memory

/-- The error of the first allocation that fails. -/
def refusal? (memory : Memory) (allocations : List Allocation) : Option Error :=
  (allocations.find? fun a => !memory a).map Allocation.failure

theorem refusal?_append (memory : Memory) (first rest : List Allocation) :
    memory.refusal? (first ++ rest) = (memory.refusal? first).or (memory.refusal? rest) := by
  rw [refusal?, List.find?_append, Option.map_or]
  rfl

/-- Memory that refuses nothing but first buckets. -/
def Ample (memory : Memory) : Prop :=
  ∀ a, memory a = false → ∃ count, a = .buckets count

/-- From this number of buckets on, which is the sixtieth power of two, the first
buckets take more memory than can be addressed. No memory has room for nearly as many;
up to 2 ^ 54 buckets the products of `Table.crowded` fit into words of 64 bits. -/
def limit : Nat := 0x1000000000000000

/-- Memory that refuses nothing but first buckets that cannot be addressed. -/
def addressable : Memory
  | .buckets count => count < limit
  | _ => true

theorem ample_addressable : addressable.Ample := by
  intro a ha
  cases a with
  | buckets count => exact ⟨count, rfl⟩
  | moreBuckets count => cases ha
  | value length => cases ha
  | key length => cases ha

end Memory

end Multimap.Chained
