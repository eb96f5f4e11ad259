import Mathlib.Data.Finset.Card
import Mathlib.Data.Nat.Log
import Multimap.Proofs.Chained.Refinement

/-!
# Growth — how many buckets a table comes to

A table doubles while as many of its buckets are occupied as the load factor says, and
adds its pair only then. Doubling may spread the keys over more buckets, adding may
occupy one more, and memory may fail between two doublings, so after an operation the
share of occupied buckets may be above the load factor. It is above it by less than one
bucket.

* What carries this over any number of doublings is a bucket with a single key. One that
  was occupied last is such a bucket, and it is never split (`Sparse.double`).
* A table doubles only when there are enough keys for its buckets, so the number of
  buckets is bounded by the number of keys that there were (`Grown`).
* An era is what a run does between two closings. Both bounds hold in every era
  (`Era.grown`), and so buckets are few and become fewer by closing only
  (`eras_moderate`).
* Numbers are exact here. They are what words of 64 bits would be as long as there are no
  more keys than an arena stands for (`Era.crowdedInWords_eq`).
-/

namespace Multimap.Chained

open Multimap.Traversal

/-! ## The buckets of keys -/

/-- Of the buckets of some keys, listed key by key, fewer than a limit are occupied, or
else one too many, and then there is one with a single key. Numbers are per 1000. -/
def Sparse (limit : Nat) (buckets : List Nat) : Prop :=
  1000 * buckets.toFinset.card < limit ∨
    (∃ bucket, buckets.count bucket = 1) ∧ 1000 * buckets.toFinset.card < limit + 1000

namespace Sparse

variable {limit capacity bucket : Nat} {buckets buckets' : List Nat}

theorem lt (h : Sparse limit buckets) : 1000 * buckets.toFinset.card < limit + 1000 := by
  cases h with
  | inl hlt => omega
  | inr hlone => exact hlone.2

theorem perm (h : Sparse limit buckets) (hperm : buckets.Perm buckets') :
    Sparse limit buckets' := by
  have hcard : buckets'.toFinset = buckets.toFinset := (List.toFinset_eq_of_perm _ _ hperm).symm
  unfold Sparse
  rw [hcard]
  refine h.imp_right fun hlone => ⟨?_, hlone.2⟩
  rcases hlone.1 with ⟨bucket, hcount⟩
  exact ⟨bucket, (hperm.count_eq bucket).symm.trans hcount⟩

/-- A bucket that is occupied by one more key has this key only. -/
theorem cons (h : 1000 * buckets.toFinset.card < limit) (bucket : Nat) :
    Sparse limit (bucket :: buckets) := by
  unfold Sparse
  rw [List.toFinset_cons]
  by_cases hmem : bucket ∈ buckets
  · left
    rwa [Finset.insert_eq_of_mem (List.mem_toFinset.2 hmem)]
  · right
    have hcard : (insert bucket buckets.toFinset).card = buckets.toFinset.card + 1 :=
      Finset.card_insert_of_notMem (List.mem_toFinset.not.2 hmem)
    refine ⟨⟨bucket, ?_⟩, by omega⟩
    rw [List.count_cons_self, List.count_eq_zero.2 hmem]

/-- With a key less, the bucket of a single key is still there, or no bucket is too
many. -/
theorem of_cons (h : Sparse limit (bucket :: buckets)) : Sparse limit buckets := by
  unfold Sparse at h ⊢
  rw [List.toFinset_cons] at h
  by_cases hmem : bucket ∈ buckets
  · rw [Finset.insert_eq_of_mem (List.mem_toFinset.2 hmem)] at h
    refine h.imp_right fun hlone => ⟨?_, hlone.2⟩
    rcases hlone.1 with ⟨other, hcount⟩
    have hpos : 0 < buckets.count bucket := List.count_pos_iff.2 hmem
    refine ⟨other, ?_⟩
    rw [List.count_cons] at hcount
    by_cases heq : bucket = other
    · subst heq
      simp at hcount
      omega
    · simpa [heq] using hcount
  · left
    have hcard : (insert bucket buckets.toFinset).card = buckets.toFinset.card + 1 :=
      Finset.card_insert_of_notMem (List.mem_toFinset.not.2 hmem)
    omega

/-- Where there are twice as many buckets, at most two of them stand for an old one. -/
theorem card_le_of_double (hlt : ∀ bucket ∈ buckets, bucket < 2 * capacity) :
    buckets.toFinset.card ≤ 2 * (buckets.map (· % capacity)).toFinset.card := by
  let old := (buckets.map (· % capacity)).toFinset
  have hsub : buckets.toFinset ⊆ old ∪ old.image (· + capacity) := by
    intro bucket hbucket
    have hmem : bucket ∈ buckets := List.mem_toFinset.1 hbucket
    have hbound := hlt bucket hmem
    have hold : bucket % capacity ∈ old := List.mem_toFinset.2 (List.mem_map_of_mem hmem)
    by_cases hlow : bucket < capacity
    · rw [Nat.mod_eq_of_lt hlow] at hold
      exact Finset.mem_union_left _ hold
    · have hmod : bucket % capacity + capacity = bucket := by
        rw [Nat.mod_eq_sub_mod (by omega), Nat.mod_eq_of_lt (by omega)]
        omega
      exact Finset.mem_union_right _ (Finset.mem_image.2 ⟨_, hold, hmod⟩)
  calc buckets.toFinset.card
      ≤ (old ∪ old.image (· + capacity)).card := Finset.card_le_card hsub
    _ ≤ old.card + (old.image (· + capacity)).card := Finset.card_union_le _ _
    _ ≤ old.card + old.card := Nat.add_le_add_left Finset.card_image_le _
    _ = 2 * old.card := (Nat.two_mul old.card).symm

/-- Doubling never splits the bucket of a single key. -/
theorem double (hlt : ∀ bucket ∈ buckets, bucket < 2 * capacity)
    (h : Sparse limit (buckets.map (· % capacity))) : Sparse (2 * limit) buckets := by
  cases h with
  | inl hfew =>
      left
      have hcard := card_le_of_double hlt
      omega
  | inr hlone =>
      right
      rcases hlone with ⟨⟨old, hcount⟩, hfew⟩
      have hmem : old ∈ buckets.map (· % capacity) := List.count_pos_iff.1 (by omega)
      rcases List.mem_map.1 hmem with ⟨bucket, hbucket, rfl⟩
      rcases List.append_of_mem hbucket with ⟨front, back, rfl⟩
      -- The single key goes to `bucket`, and all other keys come from other old buckets.
      have hperm : (front ++ bucket :: back).Perm (bucket :: (front ++ back)) := List.perm_middle
      have hnone : bucket % capacity ∉ (front ++ back).map (· % capacity) := by
        rw [((hperm.map (· % capacity)).count_eq _), List.map_cons, List.count_cons_self] at hcount
        exact List.count_eq_zero.1 (by omega)
      have hnew : bucket ∉ front ++ back := fun hin => hnone (List.mem_map_of_mem hin)
      have hold : ((front ++ bucket :: back).map (· % capacity)).toFinset.card =
          ((front ++ back).map (· % capacity)).toFinset.card + 1 := by
        rw [List.toFinset_eq_of_perm _ _ (hperm.map (· % capacity)), List.map_cons,
          List.toFinset_cons, Finset.card_insert_of_notMem (List.mem_toFinset.not.2 hnone)]
      have hcard : (front ++ bucket :: back).toFinset.card = (front ++ back).toFinset.card + 1 := by
        rw [List.toFinset_eq_of_perm _ _ hperm, List.toFinset_cons,
          Finset.card_insert_of_notMem (List.mem_toFinset.not.2 hnew)]
      have hlt' : ∀ b ∈ front ++ back, b < 2 * capacity := fun b hb =>
        hlt b (hperm.mem_iff.2 (List.mem_cons_of_mem _ hb))
      have hrest := card_le_of_double hlt'
      refine ⟨⟨bucket, ?_⟩, by omega⟩
      rw [hperm.count_eq, List.count_cons_self, List.count_eq_zero.2 hnew]

end Sparse

/-- The buckets of the keys of contents, key by key. -/
def bucketsOf (capacity : Nat) (contents : Contents) : List Nat :=
  contents.keys.map fun key => indexOf capacity (digest key)

theorem indexOf_eq_mod {capacity : Nat} (h : capacity.isPowerOfTwo) (digest : UInt64) :
    indexOf capacity digest = digest.toNat % capacity := by
  rcases h with ⟨k, rfl⟩
  exact Nat.and_two_pow_sub_one_eq_mod digest.toNat k

namespace Table

variable {t : Table} {tuning : Tuning} {key value : Bytes} {past : List Table}

/-- The occupied buckets are those where a key belongs. -/
theorem WellFormed.occupied_eq (h : t.WellFormed) :
    t.occupied = (bucketsOf t.capacity t.contents).toFinset.card := by
  let used := (List.range t.capacity).filter fun bucket => !(t.chain bucket).isEmpty
  have hused : used.toFinset = (bucketsOf t.capacity t.contents).toFinset := by
    ext bucket
    rw [List.mem_toFinset, List.mem_toFinset, bucketsOf, keys_contents, List.map_map, List.mem_map]
    constructor
    · intro hbucket
      have hfilter := List.mem_filter.1 hbucket
      have hlt : bucket < t.capacity := List.mem_range.1 hfilter.1
      have hne : t.chain bucket ≠ [] := by simpa using hfilter.2
      rcases List.exists_mem_of_ne_nil _ hne with ⟨c, hc⟩
      have hdigest := h.toInvariant.digest_eq bucket hlt c hc
      refine ⟨c, List.mem_flatMap.2 ⟨bucket, hfilter.1, hc⟩, ?_⟩
      rw [Function.comp_apply, ← hdigest.1, hdigest.2]
    · intro hmem
      rcases hmem with ⟨c, hc, hbucket⟩
      rcases List.mem_flatMap.1 hc with ⟨other, hother, hin⟩
      have hdigest := h.toInvariant.digest_eq other (List.mem_range.1 hother) c hin
      rw [Function.comp_apply, ← hdigest.1, hdigest.2] at hbucket
      subst hbucket
      refine List.mem_filter.2 ⟨hother, ?_⟩
      have hne : t.chain other ≠ [] := List.ne_nil_of_mem hin
      simpa using hne
  calc t.occupied
      = used.length := by rw [h.toInvariant.occupied_eq, List.countP_eq_length_filter]
    _ = used.toFinset.card := (List.toFinset_card_of_nodup (List.nodup_range.filter _)).symm
    _ = (bucketsOf t.capacity t.contents).toFinset.card := by rw [hused]

theorem WellFormed.isPowerOfTwo (h : t.WellFormed) (hcapacity : t.capacity ≠ 0) :
    t.capacity.isPowerOfTwo :=
  h.toInvariant.isPowerOfTwo hcapacity

/-- Fewer buckets are occupied than the load factor says, up to one that was occupied
last. -/
def Roomy (t : Table) : Prop :=
  Sparse (t.tuning.loadFactor * t.capacity) (bucketsOf t.capacity t.contents)

/-! ## Making room -/

theorem Roomy.of_perm {t' : Table} (h : t.Roomy) (hshape : t.SameShape t')
    (hperm : t'.contents.keys.Perm t.contents.keys) : t'.Roomy := by
  unfold Table.Roomy at h ⊢
  rw [hshape.tuning_eq, hshape.capacity_eq]
  exact h.perm (hperm.map _).symm

theorem Roomy.double (h : t.Roomy) (hwf : t.WellFormed) (hcapacity : t.capacity ≠ 0) :
    t.double.Roomy := by
  have hdouble := hwf.capacity_double hcapacity
  have hpow := hwf.isPowerOfTwo hcapacity
  have hpow' := (hwf.double hcapacity).isPowerOfTwo (by omega)
  have hbound : ∀ bucket ∈ bucketsOf t.double.capacity t.double.contents,
      bucket < 2 * t.capacity := by
    intro bucket hbucket
    rcases List.mem_map.1 hbucket with ⟨key, _, rfl⟩
    rw [← hdouble]
    exact indexOf_lt (by omega) (digest key)
  have hmod : (bucketsOf t.double.capacity t.double.contents).map (· % t.capacity) =
      bucketsOf t.capacity t.double.contents := by
    rw [bucketsOf, bucketsOf, List.map_map]
    refine List.map_congr_left fun key _ => ?_
    rw [Function.comp_apply, indexOf_eq_mod hpow', indexOf_eq_mod hpow, hdouble,
      Nat.mod_mod_of_dvd _ (Nat.dvd_mul_left _ _)]
  have hperm : (bucketsOf t.capacity t.contents).Perm (bucketsOf t.capacity t.double.contents) :=
    (((hwf.contents_double_perm hcapacity).map Prod.fst).map _).symm
  have hlimit : t.double.tuning.loadFactor * t.double.capacity =
      2 * (t.tuning.loadFactor * t.capacity) := by
    rw [sameItems_double.tuning_eq, hdouble, Nat.mul_left_comm]
  unfold Table.Roomy at h ⊢
  rw [hlimit]
  exact Sparse.double hbound (hmod ▸ h.perm hperm)

theorem Roomy.iterate_double (h : t.Roomy) (hwf : t.WellFormed) (hcapacity : t.capacity ≠ 0)
    (n : Nat) : (Table.double^[n] t).Roomy := by
  induction n generalizing t with
  | zero => exact h
  | succ n ih =>
      have hdouble := hwf.capacity_double hcapacity
      exact ih (h.double hwf hcapacity) (hwf.double hcapacity) (by omega)

/-- Making room never leaves one bucket too many, also when memory fails before there
is room. -/
theorem WellFormed.roomy_makeRoom (h : t.WellFormed) (hroomy : t.capacity ≠ 0 → t.Roomy)
    (memory : Memory) (hcapacity' : (t.makeRoom memory).2.capacity ≠ 0) :
    (t.makeRoom memory).2.Roomy := by
  by_cases hcapacity : t.capacity = 0
  · have hcontents : (t.makeRoom memory).2.contents = [] := by
      have hperm := (h.makeRoom memory).2
      rw [contents, contents, h.layout_eq_nil hcapacity] at hperm
      exact hperm.eq_nil
    left
    rw [hcontents]
    exact Nat.mul_pos (tuning_makeRoom t memory ▸ t.tuning_valid.loadFactor_pos)
      (Nat.pos_of_ne_zero hcapacity')
  · rcases doubleWhileCrowded_eq_iterate memory t.doublingLimit t with ⟨n, hn, -⟩
    rw [Table.makeRoom, if_neg hcapacity, hn]
    exact (hroomy hcapacity).iterate_double h hcapacity n

/-- Making room does not give buckets up. It gives as many as at first, or fewer than
2000 times as many as there are keys, in shares of the load factor. -/
theorem WellFormed.capacity_makeRoom (h : t.WellFormed) (memory : Memory) :
    t.capacity ≤ (t.makeRoom memory).2.capacity ∧
      ((t.makeRoom memory).2.capacity = t.capacity ∨
        (t.makeRoom memory).2.capacity = t.tuning.initialCapacity ∨
        t.tuning.loadFactor * (t.makeRoom memory).2.capacity ≤ 2000 * t.keyCount) := by
  by_cases hcapacity : t.capacity = 0
  · refine ⟨hcapacity ▸ Nat.zero_le _, ?_⟩
    rw [Table.makeRoom, if_pos hcapacity]
    dsimp only
    split
    · right; left
      simp [capacity]
    · exact .inl rfl
  · rcases doubleWhileCrowded_eq_iterate memory t.doublingLimit t with ⟨n, hn, hcrowded, -⟩
    rw [Table.makeRoom, if_neg hcapacity, hn]
    have hpow := (h.capacity_iterate_double hcapacity n).2
    refine ⟨hpow ▸ Nat.le_mul_of_pos_right _ (Nat.two_pow_pos n), ?_⟩
    cases n with
    | zero => exact .inl rfl
    | succ n =>
        right; right
        -- Before the last doubling the table was crowded, by no more buckets than keys.
        rcases h.capacity_iterate_double hcapacity n with ⟨hwf, hlast⟩
        have hload := hcrowded n (Nat.lt_succ_self n)
        have hoccupied := hwf.holds.hangs.occupied_le
        rw [← hwf.holds.keyCount_eq, hwf.keyCount_eq_length,
          (h.contents_iterate_double_perm hcapacity n).length_eq, ← h.keyCount_eq_length]
          at hoccupied
        rw [crowded, decide_eq_true_iff, tuning_iterate_double, hlast] at hload
        have hdouble : t.tuning.loadFactor * (double^[n + 1] t).capacity =
            2 * (t.tuning.loadFactor * (t.capacity * 2 ^ n)) := by
          rw [hpow, Nat.pow_succ, ← Nat.mul_assoc t.capacity, ← Nat.mul_assoc, Nat.mul_comm _ 2]
        omega

/-! ## Adding and removing -/

/-- Where there is room, the bucket of a new key may be one too many. -/
theorem WellFormed.roomy_add (h : t.WellFormed) (hcapacity : t.capacity ≠ 0)
    (hroom : t.crowded = false) (key value : Bytes) : (t.add key value).Roomy := by
  have hshape : t.SameShape (t.add key value) := sameShape_add
  have hfew : 1000 * (bucketsOf t.capacity t.contents).toFinset.card <
      t.tuning.loadFactor * t.capacity := by
    rw [crowded, decide_eq_false_iff_not] at hroom
    rw [← h.occupied_eq]
    omega
  have hadd := h.add hcapacity key value
  have hkeys := Contents.keys_perm_of_valuesOf_eq h.keys_nodup h.values_ne_nil
    hadd.1.keys_nodup hadd.1.values_ne_nil hadd.2
  rcases hkeys with hperm | ⟨-, -, hperm⟩ | ⟨hnil, -⟩
  · exact Roomy.of_perm (.inl hfew) hshape hperm
  · unfold Table.Roomy
    rw [hshape.tuning_eq, hshape.capacity_eq]
    exact (Sparse.cons hfew _).perm (hperm.map _).symm
  · exact absurd hnil (List.cons_ne_nil _ _)

/-- What leaves a key fewer values keeps the room. -/
theorem Roomy.of_valuesOf_eq {t' : Table} {values : List Bytes} (h : t.Roomy)
    (hwf : t.WellFormed) (hwf' : t'.WellFormed) (hshape : t.SameShape t')
    (hvalues : t'.contents.valuesOf = Function.update t.contents.valuesOf key values)
    (hfewer : t.contents.valuesOf key = [] → values = []) : t'.Roomy := by
  have hkeys := Contents.keys_perm_of_valuesOf_eq hwf.keys_nodup hwf.values_ne_nil
    hwf'.keys_nodup hwf'.values_ne_nil hvalues
  rcases hkeys with hperm | ⟨hne, hnotMem, -⟩ | ⟨-, hperm⟩
  · exact h.of_perm hshape hperm
  · exact absurd (hfewer (Contents.valuesOf_eq_nil hnotMem)) hne
  · unfold Table.Roomy at h ⊢
    rw [hshape.tuning_eq, hshape.capacity_eq]
    exact (h.perm (hperm.map _)).of_cons

/-! ## One operation -/

theorem tuning_performIn (t : Table) (memory : Memory) (op : Operation) :
    (t.performIn memory op).2.tuning = t.tuning := by
  cases op with
  | put key value => exact tuning_putIn
  | erase key => exact sameShape_erase.tuning_eq
  | erasePair key value => exact sameShape_erasePair.tuning_eq
  | contains key value => rfl
  | close => rfl

theorem WellFormed.performIn (h : t.WellFormed) (memory : Memory) (op : Operation) :
    (t.performIn memory op).2.WellFormed := by
  cases op with
  | put key value => exact h.putIn memory key value
  | erase key => exact (h.erase key).1
  | erasePair key value => exact (h.erasePair key value).1
  | contains key value => exact h
  | close => exact wellFormed_clear

/-- Adding leaves as many buckets as making room does. -/
theorem capacity_putIn (t : Table) (memory : Memory) (key value : Bytes) :
    (t.putIn memory key value).2.capacity = (t.makeRoom memory).2.capacity := by
  rw [putIn]
  split
  · next hmake => rw [hmake]
  · next hmake =>
      rw [hmake]
      split
      · rfl
      · exact sameShape_add.capacity_eq

/-- No operation but closing gives buckets up, and only `put` asks for more. -/
theorem WellFormed.capacity_performIn (h : t.WellFormed) (memory : Memory) {op : Operation}
    (hop : op ≠ .close) :
    t.capacity ≤ (t.performIn memory op).2.capacity ∧
      ((t.performIn memory op).2.capacity = t.capacity ∨
        (t.performIn memory op).2.capacity = t.tuning.initialCapacity ∨
        t.tuning.loadFactor * (t.performIn memory op).2.capacity ≤ 2000 * t.keyCount) := by
  cases op with
  | put key value =>
      have hcapacity : (t.performIn memory (.put key value)).2.capacity =
          (t.makeRoom memory).2.capacity := capacity_putIn t memory key value
      rw [hcapacity]
      exact h.capacity_makeRoom memory
  | erase key =>
      have hcapacity : (t.performIn memory (.erase key)).2.capacity = t.capacity :=
        sameShape_erase.capacity_eq
      exact ⟨hcapacity.ge, .inl hcapacity⟩
  | erasePair key value =>
      have hcapacity : (t.performIn memory (.erasePair key value)).2.capacity = t.capacity :=
        sameShape_erasePair.capacity_eq
      exact ⟨hcapacity.ge, .inl hcapacity⟩
  | contains key value => exact ⟨Nat.le_refl _, .inl rfl⟩
  | close => exact absurd rfl hop

theorem WellFormed.roomy_putIn (h : t.WellFormed) (hroomy : t.capacity ≠ 0 → t.Roomy)
    (memory : Memory) (key value : Bytes)
    (hcapacity' : (t.putIn memory key value).2.capacity ≠ 0) :
    (t.putIn memory key value).2.Roomy := by
  have hwf := (h.makeRoom memory).1
  have hok := h.makeRoom_ok memory
  have hroom := h.roomy_makeRoom hroomy memory (capacity_putIn t memory key value ▸ hcapacity')
  rw [Table.putIn]
  split
  · next hmake =>
      rw [hmake] at hroom
      exact hroom
  · next hmake =>
      rw [hmake] at hwf hok hroom
      split
      · exact hroom
      · exact hwf.roomy_add (hok rfl).1 (hok rfl).2 key value

/-- Every operation keeps the room. -/
theorem WellFormed.roomy_performIn (h : t.WellFormed) (hroomy : t.capacity ≠ 0 → t.Roomy)
    (memory : Memory) (op : Operation) (hcapacity' : (t.performIn memory op).2.capacity ≠ 0) :
    (t.performIn memory op).2.Roomy := by
  cases op with
  | put key value => exact h.roomy_putIn hroomy memory key value hcapacity'
  | erase key =>
      have hshape : t.SameShape (t.erase key).2 := sameShape_erase
      have hold : t.capacity ≠ 0 := hshape.capacity_eq ▸ hcapacity'
      have herase := h.erase key
      exact (hroomy hold).of_valuesOf_eq h herase.1 hshape herase.2.2 fun _ => rfl
  | erasePair key value =>
      have hshape : t.SameShape (t.erasePair key value).2 := sameShape_erasePair
      have hold : t.capacity ≠ 0 := hshape.capacity_eq ▸ hcapacity'
      have herase := h.erasePair key value
      refine (hroomy hold).of_valuesOf_eq h herase.1 hshape herase.2.2 fun hnil => ?_
      rw [hnil]
      rfl
  | contains key value => exact hroomy hcapacity'
  | close => exact absurd rfl hcapacity'

/-! ## Eras -/

/-- The tables of a run since it began or was last closed, the newest first. Memory may be
another one at every operation. -/
inductive Era (tuning : Tuning) : List Table → Prop where
  | fresh {t : Table} : ofTuning tuning = .ok t → Era tuning [t]
  | perform {t : Table} {past : List Table} (memory : Memory) (op : Operation) :
      op ≠ .close → Era tuning (t :: past) → Era tuning ((t.performIn memory op).2 :: t :: past)
  | close {t : Table} {past : List Table} (memory : Memory) :
      Era tuning (t :: past) → Era tuning [(t.performIn memory .close).2]

/-- The largest number of keys that there were at one time. -/
def peak (tables : List Table) : Nat :=
  (tables.map keyCount).foldr max 0

theorem keyCount_le_peak : t.keyCount ≤ peak (t :: past) :=
  Nat.le_max_left _ _

theorem peak_le_peak : peak past ≤ peak (t :: past) :=
  Nat.le_max_right _ _

/-- What can be said of a table and of those before it in its era. -/
structure Moderate (tuning : Tuning) (t : Table) (past : List Table) : Prop where
  /-- Less than one bucket too many is occupied. -/
  load : t.capacity ≠ 0 → 1000 * t.occupied < tuning.loadFactor * t.capacity + 1000
  /-- There were never more buckets before. -/
  ascending : (t :: past).Pairwise fun later earlier => earlier.capacity ≤ later.capacity
  /-- Buckets are as many as at first, or there were keys for half of them. -/
  size : t.capacity = tuning.initialCapacity ∨
    tuning.loadFactor * t.capacity ≤ 2000 * peak (t :: past)
  closed : ∀ memory, (t.performIn memory .close).2.capacity = 0

/-- What every operation of an era keeps. -/
structure Grown (tuning : Tuning) (t : Table) (past : List Table) : Prop where
  tuning_eq : t.tuning = tuning
  wellFormed : t.WellFormed
  roomy : t.capacity ≠ 0 → t.Roomy
  ascending : (t :: past).Pairwise fun later earlier => earlier.capacity ≤ later.capacity
  size : t.capacity = tuning.initialCapacity ∨
    tuning.loadFactor * t.capacity ≤ 2000 * peak (t :: past)

namespace Grown

/-- A table without buckets begins an era. -/
theorem begin (htuning : t.tuning = tuning) (hwf : t.WellFormed) (hcapacity : t.capacity = 0) :
    Grown tuning t [] where
  tuning_eq := htuning
  wellFormed := hwf
  roomy hne := absurd hcapacity hne
  ascending := List.pairwise_singleton _ _
  size := by
    right
    rw [hcapacity]
    exact Nat.zero_le _

theorem performIn (h : Grown tuning t past) (memory : Memory) {op : Operation}
    (hop : op ≠ .close) : Grown tuning (t.performIn memory op).2 (t :: past) := by
  rcases h.wellFormed.capacity_performIn memory hop with ⟨hle, hsize⟩
  have hpeak : peak (t :: past) ≤ peak ((t.performIn memory op).2 :: t :: past) := peak_le_peak
  refine ⟨(tuning_performIn t memory op).trans h.tuning_eq, h.wellFormed.performIn memory op,
    h.wellFormed.roomy_performIn h.roomy memory op, ?_, ?_⟩
  · refine List.pairwise_cons.2 ⟨fun earlier hearlier => ?_, h.ascending⟩
    cases hearlier with
    | head => exact hle
    | tail _ hmem => exact ((List.pairwise_cons.1 h.ascending).1 earlier hmem).trans hle
  · rcases hsize with hsame | hfirst | hkeys
    · rw [hsame]
      exact h.size.imp_right fun hbound => hbound.trans (Nat.mul_le_mul_left _ hpeak)
    · exact .inl (h.tuning_eq ▸ hfirst)
    · right
      have hcount : t.keyCount ≤ peak (t :: past) := keyCount_le_peak
      rw [h.tuning_eq] at hkeys
      omega

end Grown

theorem Era.grown {tables : List Table} (h : Era tuning tables) :
    ∃ t past, tables = t :: past ∧ Grown tuning t past := by
  induction h with
  | fresh h =>
      rcases eq_empty_of_ofTuning h with ⟨hvalid, rfl⟩
      exact ⟨_, [], rfl, .begin rfl (wellFormed_empty tuning hvalid) rfl⟩
  | perform memory op hop _ ih =>
      rcases ih with ⟨t, past, heq, hgrown⟩
      cases heq
      exact ⟨_, _, rfl, hgrown.performIn memory hop⟩
  | close memory _ ih =>
      rcases ih with ⟨t, past, heq, hgrown⟩
      cases heq
      exact ⟨_, [], rfl, .begin hgrown.tuning_eq wellFormed_clear rfl⟩

/-- In every run, whatever memory refuses: less than one bucket too many is occupied,
buckets become fewer by closing only, and there are no more of them than at first unless
there were keys for half of them since the table was last closed. -/
theorem eras_moderate (h : Era tuning (t :: past)) : Moderate tuning t past := by
  rcases h.grown with ⟨t, past, heq, hgrown⟩
  cases heq
  refine ⟨fun hcapacity => ?_, hgrown.ascending, hgrown.size, fun _ => rfl⟩
  have hload := (hgrown.roomy hcapacity).lt
  rwa [← hgrown.wellFormed.occupied_eq, hgrown.tuning_eq] at hload

/-- One bucket at first. Memory refuses to double it, then grants it to two keys that
share a bucket, and a third key occupies one bucket too many. -/
theorem moderate_over_load :
    let tuning : Tuning := { loadFactor := 999, initialCapacity := 1 }
    let t₀ := empty tuning ⟨by decide, by decide, 0, rfl⟩
    let t₁ := (t₀.performIn .addressable (.put [97] [1])).2
    let t₂ := (t₁.performIn (fun _ => false) (.put [99] [2])).2
    let t₃ := (t₂.performIn .addressable (.put [99] [2])).2
    let t₄ := (t₃.performIn .addressable (.put [98] [3])).2
    t₂.capacity = 1 ∧ t₄.capacity = 2 ∧ t₄.occupied = 2 ∧ peak [t₄, t₃, t₂, t₁, t₀] = 3 ∧
      Moderate tuning t₄ [t₃, t₂, t₁, t₀] := by
  intro tuning t₀ t₁ t₂ t₃ t₄
  have hera : Era tuning [t₄, t₃, t₂, t₁, t₀] := by
    refine .perform _ _ (by simp) (.perform _ _ (by simp) (.perform _ _ (by simp)
      (.perform _ _ (by simp) (.fresh rfl))))
  exact ⟨by decide, by decide, by decide, by decide, eras_moderate hera⟩

/-! ## Products in words -/

/-- Whether the table is crowded, as words of 64 bits tell. -/
def crowdedInWords (t : Table) : Bool :=
  .ofNat 1000 * .ofNat t.occupied ≥ UInt64.ofNat t.tuning.loadFactor * .ofNat t.capacity

/-- Up to 2 ^ 54 buckets no product wraps around. -/
theorem WellFormed.crowdedInWords_eq (h : t.WellFormed) (hfew : t.capacity ≤ 2 ^ 54) :
    t.crowdedInWords = t.crowded := by
  have hsize : 1000 * 2 ^ 54 < UInt64.size := by decide
  have hoccupied : 1000 * t.occupied ≤ 1000 * 2 ^ 54 := by
    rw [h.toInvariant.occupied_eq]
    exact Nat.mul_le_mul_left _ (List.countP_le_length.trans (List.length_range.trans_le hfew))
  have hload : t.tuning.loadFactor * t.capacity ≤ 1000 * 2 ^ 54 :=
    Nat.mul_le_mul t.tuning_valid.loadFactor_lt.le hfew
  rw [crowdedInWords, crowded, ← UInt64.ofNat_mul, ← UInt64.ofNat_mul, decide_eq_decide]
  exact UInt64.ofNat_le_iff_le (hload.trans_lt hsize) (hoccupied.trans_lt hsize)

/-- Buckets are not more than that where they are not at first, and where there are never
more keys than an arena stands for. -/
theorem Era.capacity_le (h : Era tuning (t :: past)) (hinitial : tuning.initialCapacity ≤ 2 ^ 54)
    (hkeys : peak (t :: past) ≤ Arena.limit) : t.capacity ≤ 2 ^ 54 := by
  rcases h.grown with ⟨t, past, heq, hgrown⟩
  cases heq
  have hload : 0 < tuning.loadFactor := hgrown.tuning_eq ▸ t.tuning_valid.loadFactor_pos
  rcases hgrown.size with hfirst | hmore
  · exact hfirst.trans_le hinitial
  · calc t.capacity
        ≤ tuning.loadFactor * t.capacity := Nat.le_mul_of_pos_left _ hload
      _ ≤ 2000 * Arena.limit := hmore.trans (Nat.mul_le_mul_left _ hkeys)
      _ ≤ 2 ^ 54 := by decide

/-- So words tell what numbers do, at every table of a run and at those with fewer buckets
that doubling leads through. -/
theorem Era.crowdedInWords_eq (h : Era tuning (t :: past))
    (hinitial : tuning.initialCapacity ≤ 2 ^ 54) (hkeys : peak (t :: past) ≤ Arena.limit)
    {t' : Table} (hwf' : t'.WellFormed) (hle : t'.capacity ≤ t.capacity) :
    t'.crowdedInWords = t'.crowded :=
  hwf'.crowdedInWords_eq (hle.trans (h.capacity_le hinitial hkeys))

end Table

end Multimap.Chained
