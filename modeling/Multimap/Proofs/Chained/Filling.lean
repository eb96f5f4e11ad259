import Multimap.Proofs.Chained.Reachable
import Multimap.Proofs.Traversal.Enumeration

/-!
# Filling — many pairs, one after the other

What a table holds after a list of pairs has been added to it: under every key the values
that the list has for it, the last of them first, in front of the values from before.

* `Table.Filled` says so, and that the table is well formed all the while, however often
  it was doubled;
* filling never fails where memory is ample and the first buckets are there or are granted
  (`WellFormed.putAll_of_granted`), and fails at once where they are refused
  (`putAll_of_refused`).
-/

namespace Multimap.Chained

open Multimap.Traversal

namespace Table

variable {m : Type → Type} [Monad m] {memory : Memory} {t t' : Table}

/-- Adds the pairs of entries to a table in a given memory. -/
def putAllIn (memory : Memory) (entries : List Entry) : Op m Table Unit :=
  letI : Backend m Table Cursor := backendIn fun _ => memory
  Backend.putAll entries

/-- A table that pairs were added to. -/
structure Filled (t : Table) (pairs : List (Bytes × Bytes)) (t' : Table) : Prop where
  wellFormed : t'.WellFormed
  tuning_eq : t'.tuning = t.tuning
  valuesOf_eq : ∀ key, t'.contents.valuesOf key =
    (Contents.listed pairs key).reverse ++ t.contents.valuesOf key

/-- The entries of pairs. -/
def entriesOf (pairs : List (Bytes × Bytes)) : List Entry :=
  pairs.map fun (key, value) => .ofPair true key value

theorem filled_nil (h : t.WellFormed) : t.Filled [] t :=
  ⟨h, rfl, fun _ => rfl⟩

/-- One pair, and then the others. -/
theorem Filled.cons {key value : Bytes} {pairs : List (Bytes × Bytes)} (h : t.WellFormed)
    (hok : (t.putIn memory key value).1 = .ok ())
    (hrest : (t.putIn memory key value).2.Filled pairs t') :
    t.Filled ((key, value) :: pairs) t' where
  wellFormed := hrest.wellFormed
  tuning_eq := hrest.tuning_eq.trans tuning_putIn
  valuesOf_eq other := by
    have hvalues := h.valuesOf_putIn memory key value
    rw [hok] at hvalues
    rw [hrest.valuesOf_eq, hvalues]
    by_cases heq : other = key
    · subst heq
      simp [Contents.listed]
    · simp [Contents.listed, heq, Ne.symm heq]

/-- A table whose buckets are there already or would be granted. -/
def Granted (t : Table) (memory : Memory) : Prop :=
  t.capacity ≠ 0 ∨ memory (.buckets t.tuning.initialCapacity) = true

theorem Reachable.granted {tuning : Tuning} (h : Reachable tuning t)
    (hbuckets : t.capacity ≠ 0 ∨ tuning.initialCapacity < Memory.limit) :
    t.Granted .addressable := by
  rw [Granted, h.wellFormed.1]
  exact hbuckets.imp_right decide_eq_true

/-- A pair is only added where there are buckets for it. -/
theorem WellFormed.granted_putIn {key value : Bytes} (h : t.WellFormed)
    (hok : (t.putIn memory key value).1 = .ok ()) :
    (t.putIn memory key value).2.Granted memory := by
  have hroom := h.makeRoom_ok memory
  left
  rw [Table.putIn] at hok ⊢
  split
  · next hmake =>
      rw [hmake] at hok
      cases hok
  · next hmake =>
      rw [hmake] at hroom
      split
      · exact (hroom rfl).1
      · rw [sameShape_add.capacity_eq]
        exact (hroom rfl).1

variable [LawfulMonad m]

theorem run_putAllIn_cons (memory : Memory) (t : Table) (key value : Bytes)
    (pairs : List (Bytes × Bytes)) :
    (putAllIn (m := m) memory (entriesOf ((key, value) :: pairs))).run t =
      match t.putIn memory key value with
      | (.ok _, t) => (putAllIn (m := m) memory (entriesOf pairs)).run t
      | (.error error, t) => pure (.error error, t) := by
  have hput : (Op.ofStep fun t : Table => t.putIn memory key value : Op m Table Unit).run t =
      pure (t.putIn memory key value) := rfl
  calc (putAllIn (m := m) memory (entriesOf ((key, value) :: pairs))).run t
      = ((Op.ofStep fun t => t.putIn memory key value) >>= fun _ =>
          putAllIn (m := m) memory (entriesOf pairs)).run t := rfl
    _ = _ := by
        rw [Op.run_bind, hput, pure_bind]
        rcases t.putIn memory key value with ⟨answer, t⟩
        cases answer <;> rfl

/-- Filling succeeds wherever the first buckets are there or are granted, and leaves a table
of which the same is true. -/
theorem WellFormed.putAll_of_granted (h : t.WellFormed) (hample : memory.Ample)
    (hgranted : t.Granted memory) (pairs : List (Bytes × Bytes)) :
    ∃ t', (putAllIn (m := m) memory (entriesOf pairs)).run t = pure (.ok (), t') ∧
      t.Filled pairs t' ∧ t'.Granted memory := by
  induction pairs generalizing t with
  | nil => exact ⟨t, rfl, filled_nil h, hgranted⟩
  | cons pair pairs ih =>
      obtain ⟨key, value⟩ := pair
      have hok : (t.putIn memory key value).1 = .ok () := putIn_of_ample hample hgranted
      obtain ⟨t', hrun, hfilled, hgranted'⟩ := ih (h.putIn memory key value) (h.granted_putIn hok)
      refine ⟨t', ?_, hfilled.cons h hok, hgranted'⟩
      have hput : t.putIn memory key value = (.ok (), (t.putIn memory key value).2) :=
        Prod.ext hok rfl
      rw [run_putAllIn_cons, hput]
      exact hrun

/-- Filling succeeds wherever the first buckets are granted. -/
theorem WellFormed.putAll (h : t.WellFormed) (hample : memory.Ample)
    (hbuckets : memory (.buckets t.tuning.initialCapacity) = true)
    (pairs : List (Bytes × Bytes)) :
    ∃ t', (putAllIn (m := m) memory (entriesOf pairs)).run t = pure (.ok (), t') ∧
      t.Filled pairs t' := by
  obtain ⟨t', hrun, hfilled, -⟩ := h.putAll_of_granted (m := m) hample (.inr hbuckets) pairs
  exact ⟨t', hrun, hfilled⟩

/-- Without first buckets the first pair is refused already, and the table is as it was. -/
theorem putAll_of_refused (hcapacity : t.capacity = 0)
    (hrefused : memory (.buckets t.tuning.initialCapacity) = false) (key value : Bytes)
    (pairs : List (Bytes × Bytes)) :
    (putAllIn (m := m) memory (entriesOf ((key, value) :: pairs))).run t =
      pure (.error (Allocation.buckets t.tuning.initialCapacity).failure, t) := by
  rw [run_putAllIn_cons, putIn_of_refused hcapacity hrefused]

end Table

end Multimap.Chained
