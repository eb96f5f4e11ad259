import Multimap.Proofs.Chained.Growth

/-!
# Splitting — what doublings make of one chain

By one more bit of their digests, doubling deals the nodes of a bucket to two new ones. It
walks the old chain from its head and puts every node in front, so the two new chains have
their nodes in the reverse order, and another doubling reverses them once more.

* the invariant of a table is all that well-formedness asks for (`wellFormed_iff_invariant`);
* what goes to a new bucket comes from one old bucket (`WellFormed.filter_rows`), hence the
  new chain is a part of an old one, reversed (`WellFormed.chain_double`);
* after any number of doublings a chain is a part of an old one, as often reversed
  (`WellFormed.chain_iterate_double`);
* `Split` puts this together with what doubling leaves alone (`doublings_split`).
-/

namespace Multimap.Chained

open Multimap.Traversal

namespace Layout

variable {layout : Layout} {rows : List Row} {bucket : Nat}

/-- Rows that belong in one bucket are in no other one. -/
theorem WellFormed.filter_rows (h : layout.WellFormed) (hrows : layout[bucket]? = some rows)
    {p : Row → Bool} (hp : ∀ r, p r → indexOf layout.length r.node.digest = bucket) :
    layout.rows.filter p = rows.filter p := by
  obtain ⟨before, behind, rfl, rfl⟩ := exists_split hrows
  have hbefore : before.rows.filter p = [] := by
    rw [List.filter_eq_nil_iff]
    intro r hr hpr
    obtain ⟨i, rs, hrs, hmem⟩ := exists_bucket hr
    have hlt : i < before.length := (List.getElem?_eq_some_iff.1 hrs).1
    have hindex := h.indexOf_eq i rs (by rwa [List.getElem?_append_left hlt]) r hmem
    rw [hp r hpr] at hindex
    omega
  have hbehind : behind.rows.filter p = [] := by
    rw [List.filter_eq_nil_iff]
    intro r hr hpr
    obtain ⟨i, rs, hrs, hmem⟩ := exists_bucket hr
    have hwhole : (before ++ rows :: behind)[before.length + (i + 1)]? = some rs := by
      rw [List.getElem?_append_right (Nat.le_add_right _ _), Nat.add_sub_cancel_left,
        List.getElem?_cons_succ, hrs]
    have hindex := h.indexOf_eq _ rs hwhole r hmem
    rw [hp r hpr] at hindex
    omega
  rw [rows_append_cons, List.filter_append, List.filter_append, hbefore, hbehind, List.nil_append,
    List.append_nil]

end Layout

namespace Table

variable {t : Table} {bucket : Nat} {rows : List Row}

/-! ## The invariant -/

theorem map_cell_map_row (cells : List (Slot × Node)) :
    (cells.map t.row).map Row.cell = cells := by
  rw [List.map_map, show Row.cell ∘ t.row = id from rfl, List.map_id]

/-- The rows of a bucket are read off its chain. -/
theorem eq_of_getElem?_layout (h : t.layout[bucket]? = some rows) :
    bucket < t.capacity ∧ rows = (t.chain bucket).map t.row := by
  have hlt : bucket < t.capacity := by
    simpa [layout] using (List.getElem?_eq_some_iff.1 h).1
  rw [getElem?_layout hlt] at h
  exact ⟨hlt, (Option.some.inj h).symm⟩

theorem Invariant.wellFormed (h : t.Invariant) : t.WellFormed where
  holds :=
    { hangs :=
        { capacity_eq := by simp [layout]
          isChain := by
            intro bucket rows hrows
            obtain ⟨hlt, rfl⟩ := eq_of_getElem?_layout hrows
            rw [map_cell_map_row]
            exact h.isChain bucket hlt
          occupied_eq := by
            rw [h.occupied_eq, layout, List.countP_map]
            simp [Function.comp_def] }
      stores :=
        { node_iff := fun slot => map_slot_rows t ▸ h.node_iff slot
          value_iff := fun slot => flatMap_valueSlots_rows t ▸ h.value_iff slot
          nodes_nodup := map_slot_rows t ▸ h.nodes_nodup
          values_nodup := flatMap_valueSlots_rows t ▸ h.values_nodup
          isChain := by
            rw [rows_layout, List.forall_mem_map]
            exact h.isValueChain }
      wellFormed :=
        { row := by
            rw [rows_layout, List.forall_mem_map]
            intro c hc
            obtain ⟨bucket, hbucket, hmem⟩ := List.mem_flatMap.1 hc
            have hdigest := h.digest_eq bucket (List.mem_range.1 hbucket) c hmem
            have hcount := h.valueCount_eq c hc
            refine ⟨hdigest.1, ?_, hcount.2⟩
            exact List.length_pos_iff.1 (hcount.2 ▸ hcount.1)
          indexOf_eq := by
            intro bucket rows hrows r hr
            obtain ⟨hlt, rfl⟩ := eq_of_getElem?_layout hrows
            obtain ⟨c, hc, rfl⟩ := List.mem_map.1 hr
            have hlength : t.layout.length = t.capacity := by simp [layout]
            rw [hlength]
            exact (h.digest_eq bucket hlt c hc).2
          keys_nodup := by
            rw [rows_layout, List.map_map]
            exact h.keys_nodup } }
  capacity_eq := h.capacity_eq.imp_left fun hzero => hzero.1

/-- What the invariant says is all that makes a table well formed. -/
theorem wellFormed_iff_invariant : t.WellFormed ↔ t.Invariant :=
  ⟨WellFormed.toInvariant, Invariant.wellFormed⟩

/-! ## One chain -/

/-- The nodes of a new bucket are those of one old bucket whose digests say so, in the reverse
order. -/
theorem WellFormed.chain_double (h : t.WellFormed) (hcapacity : t.capacity ≠ 0)
    (hbucket : bucket < 2 * t.capacity) :
    t.double.chain bucket = ((t.chain (bucket % t.capacity)).filter fun c =>
      c.2.digest.toNat % (2 * t.capacity) = bucket).reverse := by
  have hlength : t.layout.length = t.capacity := h.holds.hangs.capacity_eq.symm
  have hpow := h.isPowerOfTwo hcapacity
  have hpow' : (2 * t.capacity).isPowerOfTwo :=
    h.capacity_double hcapacity ▸ (h.double hcapacity).isPowerOfTwo (by
      rw [h.capacity_double hcapacity]
      omega)
  have hold : bucket % t.capacity < t.capacity := Nat.mod_lt _ (Nat.pos_of_ne_zero hcapacity)
  have hshare : t.layout.rows.filter (fun r => indexOf (2 * t.capacity) r.node.digest = bucket) =
      ((t.chain (bucket % t.capacity)).map t.row).filter
        fun r => indexOf (2 * t.capacity) r.node.digest = bucket := by
    refine h.holds.wellFormed.filter_rows (getElem?_layout hold) ?_
    intro r hr
    rw [decide_eq_true_iff, indexOf_eq_mod hpow'] at hr
    rw [hlength, indexOf_eq_mod hpow, ← hr, Nat.mod_mod_of_dvd _ (Nat.dvd_mul_left _ _)]
  calc t.double.chain bucket
      = (Layout.share (2 * t.capacity) t.layout.rows bucket).map Row.cell :=
        (h.holds.double hcapacity).hangs.chain_eq (by rw [Layout.getElem?_dealt, if_pos hbucket])
    _ = ((t.chain (bucket % t.capacity)).filter fun c =>
          indexOf (2 * t.capacity) c.2.digest = bucket).reverse := by
        rw [Layout.share, hshare, List.filter_map, ← List.map_reverse, map_cell_map_row]
        rfl
    _ = _ := by
        simp only [indexOf_eq_mod hpow']

/-- Every doubling reverses what is left of a chain. -/
theorem WellFormed.chain_iterate_double (h : t.WellFormed) (hcapacity : t.capacity ≠ 0) (n : Nat)
    (hbucket : bucket < t.capacity * 2 ^ n) :
    (double^[n] t).chain bucket = List.reverse^[n]
      ((t.chain (bucket % t.capacity)).filter fun c =>
        c.2.digest.toNat % (t.capacity * 2 ^ n) = bucket) := by
  induction n generalizing t with
  | zero =>
      have hlt : bucket < t.capacity := by simpa using hbucket
      have hself : (t.chain bucket).filter (fun c => c.2.digest.toNat % t.capacity = bucket) =
          t.chain bucket := by
        rw [List.filter_eq_self]
        intro c hc
        have hindex := (h.toInvariant.digest_eq bucket hlt c hc).2
        rw [indexOf_eq_mod (h.isPowerOfTwo hcapacity)] at hindex
        exact decide_eq_true hindex
      rw [Nat.mod_eq_of_lt hlt, Nat.pow_zero, Nat.mul_one, hself]
      rfl
  | succ n ih =>
      have hdouble := h.capacity_double hcapacity
      have hpow : 2 * t.capacity * 2 ^ n = t.capacity * 2 ^ (n + 1) := by
        rw [Nat.pow_succ, Nat.mul_comm 2, Nat.mul_assoc, Nat.mul_comm 2]
      have hrest := ih (h.double hcapacity) (by omega) (by rwa [hdouble, hpow])
      have hmiddle : bucket % (2 * t.capacity) < 2 * t.capacity := Nat.mod_lt _ (by omega)
      rw [hdouble, hpow, h.chain_double hcapacity hmiddle, List.filter_reverse, List.filter_filter,
        Nat.mod_mod_of_dvd _ (Nat.dvd_mul_left _ _)] at hrest
      rw [Function.iterate_succ_apply, Function.iterate_succ_apply, hrest]
      congr 2
      refine List.filter_congr ?_
      intro c _
      -- The digest's bits for the last bucket are also those for the bucket on the way to it.
      rw [Bool.and_eq_left_iff_imp, decide_eq_true_iff, decide_eq_true_iff]
      rintro rfl
      rw [Nat.mod_mod_of_dvd _ (hpow ▸ Nat.dvd_mul_right _ _)]

/-! ## The whole table -/

/-- What one doubling makes of a table. -/
structure Split (t t' : Table) : Prop where
  capacity_eq : t'.capacity = 2 * t.capacity
  chain_eq : ∀ bucket < t'.capacity, t'.chain bucket =
    ((t.chain (bucket % t.capacity)).filter fun c =>
      c.2.digest.toNat % t'.capacity = bucket).reverse
  /-- Every slot has the same node as before, with its key, digest, count and values. -/
  sameItems : t.SameItems t'
  valueChain_eq : ∀ slot, t'.valueChain slot = t.valueChain slot
  occupied_eq : t'.occupied =
    (List.range t'.capacity).countP fun bucket => !(t'.chain bucket).isEmpty
  keyCount_eq : t'.keyCount = t.keyCount
  pairCount_eq : t'.pairCount = t.pairCount
  /-- Keys come in another order, each with its values in the order from before. -/
  contents_perm : t'.contents.Perm t.contents
  valuesOf_eq : t'.contents.valuesOf = t.contents.valuesOf

theorem WellFormed.split_double (h : t.WellFormed) (hcapacity : t.capacity ≠ 0) :
    t.Split t.double where
  capacity_eq := h.capacity_double hcapacity
  chain_eq bucket hbucket := by
    rw [h.capacity_double hcapacity] at hbucket ⊢
    exact h.chain_double hcapacity hbucket
  sameItems := sameItems_double
  valueChain_eq slot := by
    rw [valueChain, valueChain, sameItems_double.values_eq, sameItems_double.node?_eq]
  occupied_eq := (h.double hcapacity).toInvariant.occupied_eq
  keyCount_eq := h.keyCount_iterate_double hcapacity 1
  pairCount_eq := congrArg Arena.size sameItems_double.values_eq
  contents_perm := h.contents_double_perm hcapacity
  valuesOf_eq := Contents.valuesOf_perm h.keys_nodup (h.contents_double_perm hcapacity).symm

/-- Doubling splits every chain in two and reverses it, and loses or changes nothing. Two
doublings in a row leave parts of the old chains in their old order. -/
theorem doublings_split (h : t.Invariant) (hcapacity : t.capacity ≠ 0) :
    t.Split t.double ∧ t.double.Invariant ∧
      ∀ bucket < 4 * t.capacity, t.double.double.chain bucket =
        (t.chain (bucket % t.capacity)).filter fun c =>
          c.2.digest.toNat % (4 * t.capacity) = bucket := by
  have hwf := h.wellFormed
  refine ⟨hwf.split_double hcapacity, (hwf.double hcapacity).toInvariant, ?_⟩
  intro bucket hbucket
  have hfour : t.capacity * 2 ^ 2 = 4 * t.capacity := Nat.mul_comm _ _
  have htwice := hwf.chain_iterate_double hcapacity 2 (hfour ▸ hbucket)
  rw [hfour] at htwice
  exact htwice.trans (List.reverse_reverse _)

/-- Three keys in one bucket of eight. The second goes to another bucket of sixteen, and the
other two change places there and change back in thirty-two. -/
theorem split_of_three :
    let t := (((standard.putIn .addressable [97] [1]).2.putIn .addressable [105] [2]).2.putIn
      .addressable [129] [3]).2
    t.Invariant ∧ t.capacity = 8 ∧ (t.chain 1).map (·.2.key) = [[129], [105], [97]] ∧
      (t.double.chain 1).map (·.2.key) = [[97], [129]] ∧
      (t.double.chain 9).map (·.2.key) = [[105]] ∧
      (t.double.double.chain 1).map (·.2.key) = [[129], [97]] ∧ t.Split t.double := by
  intro t
  have hreachable : t.Reachable {} :=
    (((Reachable.fresh rfl).putIn _ _ _).putIn _ _ _).putIn _ _ _
  have hinvariant := hreachable.wellFormed.2.toInvariant
  obtain ⟨hsplit, -, htwice⟩ := doublings_split hinvariant (by decide)
  have hcapacity : t.double.capacity = 16 := hsplit.capacity_eq
  refine ⟨hinvariant, rfl, by decide, ?_, ?_, ?_, hsplit⟩
  · rw [hsplit.chain_eq 1 (by omega), hcapacity]
    decide
  · rw [hsplit.chain_eq 9 (by omega), hcapacity]
    decide
  · rw [htwice 1 (by decide)]
    decide

end Table

end Multimap.Chained
