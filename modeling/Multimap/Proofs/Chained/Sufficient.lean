import Mathlib.Order.Bounds.Defs
import Multimap.Proofs.Chained.Growth
import Multimap.Proofs.Traversal.Stability

/-!
# Sufficient buckets — how many there are when a pair is added

A number of buckets is sufficient for a table when, with so many of them, the share that its
keys would occupy is below the load factor. Doubling may spread the keys over more buckets,
so the share does not have to fall with each doubling. It falls in the end, because no more
buckets than keys are ever occupied.

* `Doubling` is the loop that makes room, without a limit to its length: it ends for every
  table that has buckets, in what `makeRoom` gives and in nothing else
  (`WellFormed.doubling_iff`);
* how often it doubles is the least number of doublings that is sufficient
  (`WellFormed.exists_isLeast`), unless memory refuses one before (`Doubling.eq_iterate`);
* `Fitted` and `Ready` say what this means for a pair that is added, `Sized` puts it
  together with the operations that have no part in it, and holds of every reachable table
  (`tables_sized`).
-/

namespace Multimap.Chained

open Multimap.Traversal

/-- How many of some buckets are occupied by keys. -/
def spread (keys : Finset Bytes) (capacity : Nat) : Nat :=
  (keys.image fun key => (digest key).toNat % capacity).card

namespace Table

variable {t t' : Table} {memory : Memory} {limit : Nat}
  {outcome outcome' : Except Error Unit × Table}

/-- The keys of a table. -/
def keySet (t : Table) : Finset Bytes :=
  t.contents.keys.toFinset

/-- So many buckets are enough for the keys of a table. -/
def Sufficient (t : Table) (capacity : Nat) : Prop :=
  1000 * spread t.keySet capacity < t.tuning.loadFactor * capacity

instance (t : Table) (capacity : Nat) : Decidable (t.Sufficient capacity) :=
  inferInstanceAs (Decidable (_ < _))

theorem keySet_eq_of_perm (h : t'.contents.Perm t.contents) : t'.keySet = t.keySet :=
  List.toFinset_eq_of_perm _ _ (h.map Prod.fst)

/-! ## Occupied buckets -/

theorem WellFormed.occupied_eq_spread (h : t.WellFormed) :
    t.occupied = spread t.keySet t.capacity := by
  rw [h.occupied_eq, bucketsOf, spread, keySet]
  congr 1
  ext bucket
  simp only [List.mem_toFinset, List.mem_map, Finset.mem_image]
  refine exists_congr ?_
  intro key
  refine and_congr_right ?_
  intro hkey
  have hcapacity : t.capacity ≠ 0 := by
    intro hzero
    rw [contents, h.layout_eq_nil hzero] at hkey
    exact List.not_mem_nil hkey
  rw [indexOf_eq_mod (h.isPowerOfTwo hcapacity)]

/-- A table is not crowded where its buckets are sufficient. -/
theorem WellFormed.crowded_eq_false_iff (h : t.WellFormed) :
    t.crowded = false ↔ t.Sufficient t.capacity := by
  rw [crowded, decide_eq_false_iff_not, Sufficient, ← h.occupied_eq_spread]
  exact Nat.not_le

/-- What is sufficient does not change by doubling. -/
theorem WellFormed.crowded_iterate_double (h : t.WellFormed) (hcapacity : t.capacity ≠ 0)
    (n : Nat) : (double^[n] t).crowded = false ↔ t.Sufficient (t.capacity * 2 ^ n) := by
  have hiterate := h.capacity_iterate_double hcapacity n
  have hkeys : (double^[n] t).keySet = t.keySet :=
    keySet_eq_of_perm (h.contents_iterate_double_perm hcapacity n)
  rw [hiterate.1.crowded_eq_false_iff, Sufficient, Sufficient, hkeys, tuning_iterate_double,
    hiterate.2]

/-! ## The loop -/

/-- How the loop ends that doubles a table as long as it is crowded. -/
inductive Doubling (memory : Memory) : Table → Except Error Unit × Table → Prop where
  | enough {t : Table} : t.crowded = false → Doubling memory t (.ok (), t)
  | refused {t : Table} : t.crowded = true → memory (.moreBuckets (2 * t.capacity)) = false →
      Doubling memory t (.error (Allocation.moreBuckets (2 * t.capacity)).failure, t)
  | again {t : Table} {outcome : Except Error Unit × Table} : t.crowded = true →
      memory (.moreBuckets (2 * t.capacity)) = true → Doubling memory t.double outcome →
      Doubling memory t outcome

namespace Doubling

theorem unique (h : Doubling memory t outcome) (h' : Doubling memory t outcome') :
    outcome = outcome' := by
  induction h with
  | enough hcrowded =>
      cases h' with
      | enough _ => rfl
      | refused hcrowded' _ => exact nomatch hcrowded.symm.trans hcrowded'
      | again hcrowded' _ _ => exact nomatch hcrowded.symm.trans hcrowded'
  | refused hcrowded hrefused =>
      cases h' with
      | enough hcrowded' => exact nomatch hcrowded.symm.trans hcrowded'
      | refused _ _ => rfl
      | again _ hgranted _ => exact nomatch hrefused.symm.trans hgranted
  | again hcrowded hgranted _ ih =>
      cases h' with
      | enough hcrowded' => exact nomatch hcrowded.symm.trans hcrowded'
      | refused _ hrefused => exact nomatch hrefused.symm.trans hgranted
      | again _ _ hrest => exact ih hrest

/-- The loop leaves some number of doublings behind it, of which each was needed. It fails
only where memory refuses the next one. -/
theorem eq_iterate (h : Doubling memory t outcome) :
    ∃ n, outcome.2 = double^[n] t ∧ (∀ i < n, (double^[i] t).crowded = true) ∧
      (outcome.1 = .ok () ∧ (double^[n] t).crowded = false ∨
        (double^[n] t).crowded = true ∧
          memory (.moreBuckets (2 * (double^[n] t).capacity)) = false) := by
  induction h with
  | enough hcrowded => exact ⟨0, rfl, nofun, .inl ⟨rfl, hcrowded⟩⟩
  | refused hcrowded hrefused => exact ⟨0, rfl, nofun, .inr ⟨hcrowded, hrefused⟩⟩
  | again hcrowded hgranted _ ih =>
      rcases ih with ⟨n, hn, hbefore, hend⟩
      refine ⟨n + 1, hn, ?_, hend⟩
      intro i hi
      cases i with
      | zero => exact hcrowded
      | succ i => exact hbefore i (Nat.lt_of_succ_lt_succ hi)

end Doubling

/-- A limit that does not stop the loop makes no difference to it. -/
theorem doubling_doubleWhileCrowded
    (hend : (t.doubleWhileCrowded memory limit).1 = .ok () →
      (t.doubleWhileCrowded memory limit).2.crowded = false) :
    Doubling memory t (t.doubleWhileCrowded memory limit) := by
  induction limit generalizing t with
  | zero => exact .enough (hend rfl)
  | succ limit ih =>
      rw [doubleWhileCrowded] at hend ⊢
      cases hcrowded : t.crowded with
      | false => exact .enough hcrowded
      | true =>
          simp only [hcrowded, if_true] at hend ⊢
          cases hmemory : memory (.moreBuckets (2 * t.capacity)) with
          | false => exact .refused hcrowded hmemory
          | true =>
              simp only [hmemory, if_true] at hend ⊢
              exact .again hcrowded hmemory (ih hend)

/-- The loop ends, and in nothing but what `makeRoom` gives. -/
theorem WellFormed.doubling_iff (h : t.WellFormed) (hcapacity : t.capacity ≠ 0) :
    Doubling memory t outcome ↔ outcome = t.makeRoom memory := by
  have hroom : Doubling memory t (t.makeRoom memory) := by
    rw [Table.makeRoom, if_neg hcapacity]
    exact doubling_doubleWhileCrowded (h.not_crowded_of_doubleWhileCrowded hcapacity)
  constructor
  · intro hdoubling
    exact hdoubling.unique hroom
  · intro heq
    exact heq ▸ hroom

/-- Where memory refuses nothing, the loop doubles until it is enough for the first time. -/
theorem WellFormed.exists_isLeast (h : t.WellFormed) (hcapacity : t.capacity ≠ 0) :
    ∃ doublings, IsLeast { n | t.Sufficient (t.capacity * 2 ^ n) } doublings := by
  have hdoubling : Doubling (fun _ => true) t (t.makeRoom fun _ => true) :=
    (h.doubling_iff hcapacity).2 rfl
  rcases hdoubling.eq_iterate with ⟨n, -, hbefore, ⟨-, hcrowded⟩ | ⟨-, hrefused⟩⟩
  · refine ⟨n, (h.crowded_iterate_double hcapacity n).1 hcrowded, ?_⟩
    intro i hi
    by_contra hlt
    have hfree := (h.crowded_iterate_double hcapacity i).2 hi
    exact nomatch hfree.symm.trans (hbefore i (Nat.lt_of_not_le hlt))
  · cases hrefused

/-! ## Adding a pair -/

/-- What adding a pair does to the number of buckets of a table that has some, where so many
doublings are the least number that is sufficient. -/
structure Fitted (memory : Memory) (t : Table) (doublings : Nat) (key value : Bytes) : Prop where
  /-- The loop ends, in the room that is made. -/
  ends : ∀ outcome, Doubling memory t outcome ↔ outcome = t.makeRoom memory
  /-- It succeeds where memory grants the buckets that it takes. -/
  granted : (∀ n < doublings, memory (.moreBuckets (t.capacity * 2 ^ (n + 1))) = true) →
    (t.makeRoom memory).1 = .ok ()
  capacity_eq : (t.makeRoom memory).1 = .ok () →
    (t.putIn memory key value).2.capacity = t.capacity * 2 ^ doublings
  /-- Also where it fails, no more buckets are taken. -/
  capacity_le : (t.putIn memory key value).2.capacity ≤ t.capacity * 2 ^ doublings

theorem WellFormed.fitted (h : t.WellFormed) (hcapacity : t.capacity ≠ 0) {doublings : Nat}
    (hleast : IsLeast { n | t.Sufficient (t.capacity * 2 ^ n) } doublings) (memory : Memory)
    (key value : Bytes) : Fitted memory t doublings key value := by
  have hends : ∀ outcome, Doubling memory t outcome ↔ outcome = t.makeRoom memory :=
    fun outcome => h.doubling_iff hcapacity
  have henough := (h.crowded_iterate_double hcapacity doublings).2 hleast.1
  rcases ((hends _).2 rfl).eq_iterate with ⟨n, hroom, hbefore, hend⟩
  have hcap : (t.putIn memory key value).2.capacity = t.capacity * 2 ^ n := by
    rw [capacity_putIn, hroom, (h.capacity_iterate_double hcapacity n).2]
  -- Every doubling was needed, but the least sufficient number of them is enough.
  have hle : n ≤ doublings := by
    by_contra hlt
    exact nomatch henough.symm.trans (hbefore doublings (Nat.lt_of_not_le hlt))
  refine ⟨hends, ?_, ?_, ?_⟩
  · intro hgranted
    rcases hend with ⟨hok, -⟩ | ⟨hcrowded, hrefused⟩
    · exact hok
    · -- The buckets that were refused are among those that memory grants.
      have hne : n ≠ doublings := by
        rintro rfl
        exact nomatch henough.symm.trans hcrowded
      have hbuckets : 2 * (double^[n] t).capacity = t.capacity * 2 ^ (n + 1) := by
        rw [(h.capacity_iterate_double hcapacity n).2, Nat.pow_succ, Nat.mul_comm 2,
          Nat.mul_assoc]
      rw [hbuckets, hgranted n (Nat.lt_of_le_of_ne hle hne)] at hrefused
      cases hrefused
  · intro hok
    rcases hend with ⟨-, hcrowded⟩ | ⟨hcrowded, -⟩
    · have hge : doublings ≤ n := hleast.2 ((h.crowded_iterate_double hcapacity n).1 hcrowded)
      rw [hcap, Nat.le_antisymm hle hge]
    · have hfree := (h.makeRoom_ok memory hok).2
      rw [hroom] at hfree
      exact nomatch hfree.symm.trans hcrowded
  · rw [hcap]
    exact Nat.mul_le_mul_left _ (Nat.pow_le_pow_right (Nat.succ_pos 1) hle)

/-- A table that room was made in for a pair, just before the pair is added. -/
structure Ready (memory : Memory) (t : Table) (key value : Bytes) (room : Table) : Prop where
  keySet_eq : room.keySet = t.keySet
  occupied_eq : room.occupied = spread t.keySet room.capacity
  occupied_lt : 1000 * room.occupied < t.tuning.loadFactor * room.capacity
  /-- From here on only the copies of the pair can be refused. -/
  putIn_eq : t.putIn memory key value =
    match memory.refusal? (room.copies key value) with
    | some error => (.error error, room)
    | none => (.ok (), room.add key value)

theorem WellFormed.ready (h : t.WellFormed) (hok : (t.makeRoom memory).1 = .ok ())
    (key value : Bytes) : Ready memory t key value (t.makeRoom memory).2 := by
  have hroom := h.makeRoom memory
  have hkeys : (t.makeRoom memory).2.keySet = t.keySet := keySet_eq_of_perm hroom.2
  have hoccupied := hroom.1.occupied_eq_spread
  have hcrowded := (h.makeRoom_ok memory hok).2
  refine ⟨hkeys, hkeys ▸ hoccupied, ?_, ?_⟩
  · rw [crowded, decide_eq_false_iff_not, tuning_makeRoom] at hcrowded
    exact Nat.lt_of_not_le hcrowded
  · cases hmake : t.makeRoom memory with
    | mk answer room =>
        rw [hmake] at hok
        cases answer with
        | error error => cases hok
        | ok _ =>
            rewrite [Table.putIn, hmake]
            rfl

/-! ## All operations -/

/-- What can be said of the number of buckets of a table. -/
structure Sized (t : Table) : Prop where
  /-- Adding a pair doubles the buckets as often as it takes and no more often. -/
  fitted : t.capacity ≠ 0 → ∃ doublings,
    IsLeast { n | t.Sufficient (t.capacity * 2 ^ n) } doublings ∧
      ∀ memory key value, Fitted memory t doublings key value
  /-- The first pair is added to the initial capacity. -/
  first : t.capacity = 0 → ∀ memory key value,
    memory (.buckets t.tuning.initialCapacity) = true →
      (t.putIn memory key value).2.capacity = t.tuning.initialCapacity
  ready : ∀ memory key value, (t.makeRoom memory).1 = .ok () →
    Ready memory t key value (t.makeRoom memory).2
  erase : ∀ key, (t.erase key).2.capacity = t.capacity
  erasePair : ∀ key value, (t.erasePair key value).2.capacity = t.capacity
  /-- Asking whether something is there changes nothing. -/
  contains : ∀ memory key value,
    t.performIn memory (.contains key value) = (.ok (some (t.contains key value)), t)
  /-- A cursor is over the same table all the time. -/
  cursor : ∀ uses, (((Traversal.Cursor.Use.performAll (m := Id) uses
    (.ofState (Cursor.ofTable t))).run).2.state.table).capacity = t.capacity

theorem WellFormed.sized (h : t.WellFormed) : t.Sized where
  fitted hcapacity := by
    rcases h.exists_isLeast hcapacity with ⟨doublings, hleast⟩
    exact ⟨doublings, hleast, h.fitted hcapacity hleast⟩
  first hcapacity memory key value hgranted := by
    rw [capacity_putIn, Table.makeRoom, if_pos hcapacity, if_pos hgranted]
    exact Array.size_replicate
  ready memory key value hok := h.ready hok key value
  erase key := sameShape_erase.capacity_eq
  erasePair key value := sameShape_erasePair.capacity_eq
  contains memory key value := rfl
  cursor uses := by
    have hstable := (Cursor.stable_table (m := Id) t).performAll
      (c := .ofState (Cursor.ofTable t)) rfl uses
    exact congrArg capacity (ensures_id_iff.1 hstable :)

/-- In every run, adding a pair brings a table to the least sufficient number of buckets that
doubling leads to, and no other operation but closing changes how many there are. -/
theorem tables_sized {tuning : Tuning} (h : t.Reachable tuning) : t.tuning = tuning ∧ t.Sized :=
  ⟨h.wellFormed.1, h.wellFormed.2.sized⟩

/-- Two keys share one of eight buckets, and a third has another one. In sixteen buckets they
would occupy three, so the next pair takes thirty-two. -/
theorem sized_by_spreading :
    let t := ((((empty { loadFactor := 126 } ⟨by decide, by decide, 3, rfl⟩).putIn
      .addressable [97] [1]).2.putIn .addressable [105] [2]).2.putIn .addressable [98] [3]).2
    t.capacity = 8 ∧ t.occupied = 2 ∧ ¬ t.Sufficient 16 ∧ t.Sufficient 32 ∧
      (t.putIn .addressable [97] [4]).2.capacity = 32 ∧ t.tuning = { loadFactor := 126 } ∧
      t.Sized := by
  intro t
  have hreachable : t.Reachable { loadFactor := 126 } :=
    (((Reachable.fresh rfl).putIn _ _ _).putIn _ _ _).putIn _ _ _
  exact ⟨by decide, by decide, by decide, by decide, by decide, tables_sized hreachable⟩

end Table

end Multimap.Chained
