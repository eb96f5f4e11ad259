import Mathlib.Logic.Function.Iterate
import Multimap.Proofs.Chained.Doubling
import Multimap.Proofs.Traversal.Contents

/-!
# Room — doubling as often as needed

`makeRoom` allocates the first buckets or doubles the ones that are there. Either way
the table stays well formed and keeps its bindings, of which only the order changes,
and so it does when memory fails halfway.

* the loop leaves some iterate of `double`, and every iterate before it is crowded
  (`doubleWhileCrowded_eq_iterate`);
* what limits the loop is never its counter (`not_crowded_of_doubleWhileCrowded`);
* a table for which room was made has buckets, and they are not crowded
  (`WellFormed.makeRoom_ok`).
-/

namespace Multimap.Chained

open Multimap.Traversal

namespace Table

variable {t t' : Table} {layout : Layout} {memory : Memory} {limit n : Nat}

/-- Two tables with one tuning and as many buckets. -/
structure SameShape (t t' : Table) : Prop where
  tuning_eq : t'.tuning = t.tuning
  capacity_eq : t'.capacity = t.capacity

theorem SameShape.refl (t : Table) : t.SameShape t :=
  ⟨rfl, rfl⟩

theorem WellFormed.of_holds (h : t.WellFormed) (hholds : t'.Holds layout)
    (hshape : t.SameShape t') : t'.WellFormed where
  holds := hholds.layout_eq.symm ▸ hholds
  capacity_eq := by
    rw [hshape.tuning_eq, hshape.capacity_eq]
    exact h.capacity_eq

/-! ## Iterated doubling -/

namespace WellFormed

theorem capacity_double (h : t.WellFormed) (hcapacity : t.capacity ≠ 0) :
    t.double.capacity = 2 * t.capacity := by
  rw [(h.holds.double hcapacity).hangs.capacity_eq, Layout.length_dealt]

theorem contents_double_perm (h : t.WellFormed) (hcapacity : t.capacity ≠ 0) :
    t.double.contents.Perm t.contents := by
  rw [(h.holds.double hcapacity).contents_eq]
  exact (Layout.rows_dealt_perm (by omega) _).map Row.binding

protected theorem double (h : t.WellFormed) (hcapacity : t.capacity ≠ 0) :
    t.double.WellFormed where
  holds := by
    have hholds := h.holds.double hcapacity
    exact hholds.layout_eq.symm ▸ hholds
  capacity_eq := by
    rcases h.capacity_eq with hzero | ⟨doublings, hpow⟩
    · exact absurd hzero hcapacity
    · refine .inr ⟨doublings + 1, ?_⟩
      calc t.double.capacity
          = 2 * (t.tuning.initialCapacity * 2 ^ doublings) := by
            rw [h.capacity_double hcapacity, hpow]
        _ = t.tuning.initialCapacity * 2 ^ (doublings + 1) := by
            rw [Nat.pow_succ, Nat.mul_comm 2, Nat.mul_assoc]
        _ = t.double.tuning.initialCapacity * 2 ^ (doublings + 1) := by
            rw [sameItems_double.tuning_eq]

theorem capacity_iterate_double (h : t.WellFormed) (hcapacity : t.capacity ≠ 0) (n : Nat) :
    (double^[n] t).WellFormed ∧ (double^[n] t).capacity = t.capacity * 2 ^ n := by
  induction n generalizing t with
  | zero => exact ⟨h, (Nat.mul_one _).symm⟩
  | succ n ih =>
      have hdouble := h.capacity_double hcapacity
      rcases ih (h.double hcapacity) (by omega) with ⟨hwf, hn⟩
      rw [Function.iterate_succ_apply]
      refine ⟨hwf, ?_⟩
      calc (double^[n] t.double).capacity
          = 2 * t.capacity * 2 ^ n := by rw [hn, hdouble]
        _ = t.capacity * 2 ^ (n + 1) := by
            rw [Nat.pow_succ, Nat.mul_comm 2, Nat.mul_assoc, Nat.mul_comm 2]

theorem contents_iterate_double_perm (h : t.WellFormed) (hcapacity : t.capacity ≠ 0) (n : Nat) :
    (double^[n] t).contents.Perm t.contents := by
  induction n generalizing t with
  | zero => exact .refl _
  | succ n ih =>
      have hdouble := h.capacity_double hcapacity
      rw [Function.iterate_succ_apply]
      exact (ih (h.double hcapacity) (by omega)).trans (h.contents_double_perm hcapacity)

theorem keyCount_eq_length (h : t.WellFormed) : t.keyCount = t.contents.length := by
  rw [h.holds.keyCount_eq, contents, Layout.contents, List.length_map]

theorem keyCount_iterate_double (h : t.WellFormed) (hcapacity : t.capacity ≠ 0) (n : Nat) :
    (double^[n] t).keyCount = t.keyCount := by
  rw [(h.capacity_iterate_double hcapacity n).1.keyCount_eq_length,
    (h.contents_iterate_double_perm hcapacity n).length_eq, ← h.keyCount_eq_length]

end WellFormed

theorem tuning_iterate_double : (double^[n] t).tuning = t.tuning := by
  induction n generalizing t with
  | zero => rfl
  | succ n ih =>
      rw [Function.iterate_succ_apply, ih, sameItems_double.tuning_eq]

/-! ## The loop -/

theorem doubleWhileCrowded_eq_iterate (memory : Memory) (limit : Nat) (t : Table) :
    ∃ n, (t.doubleWhileCrowded memory limit).2 = double^[n] t ∧
      (∀ i < n, (double^[i] t).crowded = true) ∧
      ((t.doubleWhileCrowded memory limit).1 = .ok () →
        n = limit ∨ (double^[n] t).crowded = false) := by
  induction limit generalizing t with
  | zero => exact ⟨0, rfl, by simp, fun _ => .inl rfl⟩
  | succ limit ih =>
      rw [doubleWhileCrowded]
      cases hcrowded : t.crowded with
      | false => exact ⟨0, rfl, by simp, fun _ => .inr hcrowded⟩
      | true =>
          simp only [if_true]
          by_cases hmemory : memory (.moreBuckets (2 * t.capacity))
          · rcases ih t.double with ⟨n, hn, hbefore, hend⟩
            refine ⟨n + 1, ?_, ?_, ?_⟩
            · rw [if_pos hmemory, hn, Function.iterate_succ_apply]
            · intro i hi
              cases i with
              | zero => exact hcrowded
              | succ i => exact hbefore i (Nat.lt_of_succ_lt_succ hi)
            · intro hok
              rw [if_pos hmemory] at hok
              exact (hend hok).imp_left (congrArg Nat.succ)
          · refine ⟨0, ?_, by simp, ?_⟩
            · rw [if_neg hmemory]
              rfl
            · intro hok
              rw [if_neg hmemory] at hok
              cases hok

theorem Hangs.occupied_le (h : t.Hangs layout) : t.occupied ≤ layout.rows.length := by
  rw [h.occupied_eq]
  clear h
  induction layout with
  | nil => exact Nat.zero_le _
  | cons rows layout ih =>
      have hrows : (Layout.rows (rows :: layout)).length =
          rows.length + (Layout.rows layout).length := by
        simp [Layout.rows]
      rw [List.countP_cons, hrows]
      cases rows with
      | nil => simpa using ih
      | cons r rows =>
          simp only [List.isEmpty_cons, Bool.not_false, if_true, List.length_cons]
          omega

/-- At most as many buckets are occupied as there are keys, so enough buckets are
not crowded. -/
theorem WellFormed.not_crowded (h : t.WellFormed) (hlt : 1000 * t.keyCount < t.capacity) :
    t.crowded = false := by
  have hoccupied := h.holds.hangs.occupied_le
  rw [← h.holds.keyCount_eq] at hoccupied
  have hload : t.capacity ≤ t.tuning.loadFactor * t.capacity :=
    Nat.le_mul_of_pos_left _ t.tuning_valid.loadFactor_pos
  rw [crowded, decide_eq_false_iff_not]
  omega

/-- After the allowed doublings there are enough buckets. -/
theorem lt_capacity_mul_doublingLimit (hcapacity : t.capacity ≠ 0) :
    1000 * t.keyCount < t.capacity * 2 ^ t.doublingLimit := by
  calc 1000 * t.keyCount
      < 2 ^ t.doublingLimit := Nat.lt_log2_self
    _ ≤ t.capacity * 2 ^ t.doublingLimit :=
        Nat.le_mul_of_pos_left _ (Nat.pos_of_ne_zero hcapacity)

/-- When the loop ends without an error, it has reached buckets that are not
crowded. -/
theorem WellFormed.not_crowded_of_doubleWhileCrowded (h : t.WellFormed)
    (hcapacity : t.capacity ≠ 0)
    (hok : (t.doubleWhileCrowded memory t.doublingLimit).1 = .ok ()) :
    (t.doubleWhileCrowded memory t.doublingLimit).2.crowded = false := by
  rcases doubleWhileCrowded_eq_iterate memory t.doublingLimit t with ⟨n, hn, -, hend⟩
  rw [hn]
  rcases hend hok with rfl | hcrowded
  · rcases h.capacity_iterate_double hcapacity t.doublingLimit with ⟨hwf, hcap⟩
    apply hwf.not_crowded
    rw [h.keyCount_iterate_double hcapacity, hcap]
    exact lt_capacity_mul_doublingLimit hcapacity
  · exact hcrowded

/-! ## Room for a pair -/

theorem initialCapacity_ne_zero (t : Table) : t.tuning.initialCapacity ≠ 0 := by
  rcases t.tuning_valid.initialCapacity_pow with ⟨k, hk⟩
  rw [hk]
  exact Nat.ne_of_gt (Nat.two_pow_pos k)

theorem WellFormed.layout_eq_nil (h : t.WellFormed) (hcapacity : t.capacity = 0) :
    t.layout = [] := by
  rw [← List.length_eq_zero_iff, ← h.holds.hangs.capacity_eq, hcapacity]

/-- The first buckets are empty. -/
theorem WellFormed.allocate (h : t.WellFormed) (hcapacity : t.capacity = 0) :
    { t with heads := Array.replicate t.tuning.initialCapacity none }.Holds
      (.dealt t.tuning.initialCapacity []) := by
  have hlayout := h.layout_eq_nil hcapacity
  have hoccupied := h.holds.hangs.occupied_eq
  have hstores := h.holds.stores
  have hwf := h.holds.wellFormed
  rw [hlayout] at hoccupied hstores hwf
  have hperm := Layout.rows_dealt_perm t.initialCapacity_ne_zero []
  exact ⟨⟨hangs_dealt_nil rfl hoccupied, hstores.perm hperm.symm⟩,
    hwf.dealt t.initialCapacity_ne_zero⟩

theorem tuning_makeRoom (t : Table) (memory : Memory) :
    (t.makeRoom memory).2.tuning = t.tuning := by
  rw [makeRoom]
  split
  · dsimp only
    split <;> rfl
  · rcases doubleWhileCrowded_eq_iterate memory t.doublingLimit t with ⟨n, hn, -⟩
    rw [hn, tuning_iterate_double]

namespace WellFormed

/-- Making room keeps all bindings, also when it fails. -/
theorem makeRoom (h : t.WellFormed) (memory : Memory) :
    (t.makeRoom memory).2.WellFormed ∧ (t.makeRoom memory).2.contents.Perm t.contents := by
  rw [Table.makeRoom]
  by_cases hcapacity : t.capacity = 0
  · rw [if_pos hcapacity]
    dsimp only
    split
    · have hholds := h.allocate hcapacity
      refine ⟨⟨hholds.layout_eq.symm ▸ hholds, .inr ⟨0, ?_⟩⟩, ?_⟩
      · simp [capacity]
      · rw [hholds.contents_eq, contents, h.layout_eq_nil hcapacity]
        exact (Layout.rows_dealt_perm t.initialCapacity_ne_zero []).map Row.binding
    · exact ⟨h, .refl _⟩
  · rw [if_neg hcapacity]
    rcases doubleWhileCrowded_eq_iterate memory t.doublingLimit t with ⟨n, hn, -⟩
    rw [hn]
    exact ⟨(h.capacity_iterate_double hcapacity n).1,
      h.contents_iterate_double_perm hcapacity n⟩

/-- A table for which room was made has buckets, and they are not crowded. -/
theorem makeRoom_ok (h : t.WellFormed) (memory : Memory)
    (hok : (t.makeRoom memory).1 = .ok ()) :
    (t.makeRoom memory).2.capacity ≠ 0 ∧ (t.makeRoom memory).2.crowded = false := by
  rw [Table.makeRoom] at hok ⊢
  by_cases hcapacity : t.capacity = 0
  · rw [if_pos hcapacity] at hok ⊢
    dsimp only at hok ⊢
    split at hok
    · next hmemory =>
        have hholds := h.allocate hcapacity
        have hoccupied := hholds.hangs.occupied_le
        rw [(Layout.rows_dealt_perm t.initialCapacity_ne_zero []).length_eq] at hoccupied
        have hpos : 0 < t.tuning.loadFactor * t.tuning.initialCapacity :=
          Nat.mul_pos t.tuning_valid.loadFactor_pos (Nat.pos_of_ne_zero t.initialCapacity_ne_zero)
        rw [if_pos hmemory]
        refine ⟨?_, ?_⟩
        · simpa [capacity] using t.initialCapacity_ne_zero
        · rw [crowded, decide_eq_false_iff_not]
          simp only [capacity, Array.size_replicate, List.length_nil] at hoccupied ⊢
          omega
    · cases hok
  · rw [if_neg hcapacity] at hok ⊢
    refine ⟨?_, h.not_crowded_of_doubleWhileCrowded hcapacity hok⟩
    rcases doubleWhileCrowded_eq_iterate memory t.doublingLimit t with ⟨n, hn, -⟩
    rw [hn, (h.capacity_iterate_double hcapacity n).2]
    exact Nat.mul_ne_zero hcapacity (Nat.ne_of_gt (Nat.two_pow_pos n))

end WellFormed

/-- What ample memory grants: everything but first buckets. -/
theorem grants_of_ample (hample : memory.Ample) {a : Allocation}
    (h : ∀ count, a ≠ .buckets count) : memory a = true := by
  by_contra hrefused
  obtain ⟨count, hcount⟩ := hample a (by simpa using hrefused)
  exact h count hcount

theorem doubleWhileCrowded_of_ample (hample : memory.Ample) :
    (t.doubleWhileCrowded memory limit).1 = .ok () := by
  induction limit generalizing t with
  | zero => rfl
  | succ limit ih =>
      rw [doubleWhileCrowded, if_pos (grants_of_ample hample (by simp))]
      split
      · exact ih
      · rfl

/-- Room can be made wherever the first buckets are there or are granted. -/
theorem makeRoom_of_ample (hample : memory.Ample)
    (h : t.capacity ≠ 0 ∨ memory (.buckets t.tuning.initialCapacity) = true) :
    (t.makeRoom memory).1 = .ok () := by
  rw [makeRoom]
  by_cases hcapacity : t.capacity = 0
  · have hgranted := h.resolve_left (not_not.2 hcapacity)
    rw [if_pos hcapacity, if_pos hgranted]
  · rw [if_neg hcapacity]
    exact doubleWhileCrowded_of_ample hample

end Table

end Multimap.Chained
