import Mathlib.Data.List.Induction
import Multimap.Proofs.Chained.Adding

/-!
# Doubling — all rows hung anew

Doubling walks the old chains and hangs node after node in front of its new bucket.
What comes out is the layout in which the rows are dealt to their buckets, the last
one in front (`Layout.dealt`).

* hanging a chain changes links and buckets, and neither nodes nor values
  (`sameItems_hangChain`);
* the chains that are still to be walked are not touched meanwhile
  (`isChain_hangChain`);
* `double` deals all rows to twice as many buckets (`Holds.double`).
-/

namespace Multimap.Chained

open Multimap.Traversal

/-! ## Dealing rows to buckets -/

namespace Layout

variable {rows : List Row} {r : Row} {capacity : Nat}

/-- The rows that belong in a bucket, the last one in front. -/
def share (capacity : Nat) (rows : List Row) (bucket : Nat) : List Row :=
  (rows.filter fun r => indexOf capacity r.node.digest = bucket).reverse

/-- The layout in which rows are put in front of their buckets one by one. -/
def dealt (capacity : Nat) (rows : List Row) : Layout :=
  (List.range capacity).map (share capacity rows)

theorem length_dealt : (dealt capacity rows).length = capacity := by
  simp [dealt]

theorem share_concat (bucket : Nat) :
    share capacity (rows ++ [r]) bucket =
      if indexOf capacity r.node.digest = bucket then r :: share capacity rows bucket
      else share capacity rows bucket := by
  by_cases h : indexOf capacity r.node.digest = bucket
  · simp [share, h]
  · simp [share, h]

theorem getElem?_dealt {bucket : Nat} :
    (dealt capacity rows)[bucket]? =
      if bucket < capacity then some (share capacity rows bucket) else none := by
  by_cases h : bucket < capacity
  · simp [dealt, h]
  · simp [dealt, h]

theorem exists_split_range {n i : Nat} (h : i < n) :
    ∃ l₁ l₂ : List Nat, List.range n = l₁ ++ i :: l₂ ∧ l₁.length = i ∧ i ∉ l₁ ++ l₂ := by
  have hlt : i < (List.range n).length := by rwa [List.length_range]
  have hsplit : List.range n = (List.range n).take i ++ i :: (List.range n).drop (i + 1) := by
    conv_lhs => rw [← List.take_append_drop i (List.range n), ← List.getElem_cons_drop hlt,
      List.getElem_range]
  refine ⟨_, _, hsplit, List.length_take_of_le (Nat.le_of_lt hlt), ?_⟩
  have hnodup : (List.range n).Nodup := List.nodup_range
  rw [hsplit, List.nodup_middle] at hnodup
  exact (List.nodup_cons.1 hnodup).1

/-- One more row changes its bucket only. -/
theorem exists_dealt_concat (hcapacity : capacity ≠ 0) (rows : List Row) (r : Row) :
    ∃ (before behind : Layout) (bucket : List Row),
      before.length = indexOf capacity r.node.digest ∧
        dealt capacity rows = before ++ bucket :: behind ∧
        dealt capacity (rows ++ [r]) = before ++ (r :: bucket) :: behind := by
  obtain ⟨l₁, l₂, hrange, hlength, hnotMem⟩ :=
    exists_split_range (Table.indexOf_lt hcapacity r.node.digest)
  have hsame : ∀ bucket ∈ l₁ ++ l₂,
      share capacity (rows ++ [r]) bucket = share capacity rows bucket := by
    intro bucket hbucket
    rw [share_concat, if_neg (ne_of_mem_of_not_mem hbucket hnotMem).symm]
  refine ⟨l₁.map (share capacity rows), l₂.map (share capacity rows),
    share capacity rows (indexOf capacity r.node.digest), ?_, ?_, ?_⟩
  · rw [List.length_map, hlength]
  · rw [dealt, hrange, List.map_append, List.map_cons]
  · rw [dealt, hrange, List.map_append, List.map_cons, share_concat, if_pos rfl,
      List.map_congr_left fun b hb => hsame b (List.mem_append_left _ hb),
      List.map_congr_left fun b hb => hsame b (List.mem_append_right _ hb)]

theorem rows_dealt_perm (hcapacity : capacity ≠ 0) (rows : List Row) :
    (dealt capacity rows).rows.Perm rows := by
  induction rows using List.reverseRec with
  | nil =>
      have hnil : (dealt capacity []).rows = [] := by
        simp [dealt, share, Layout.rows]
      rw [hnil]
  | append_singleton rows r ih =>
      rcases exists_dealt_concat hcapacity rows r with ⟨before, behind, bucket, -, hdealt, hdealt'⟩
      rw [hdealt, rows_append_cons] at ih
      rw [hdealt', rows_append_cons]
      have hfront : (before.rows ++ (r :: bucket ++ behind.rows)).Perm
          (r :: (before.rows ++ (bucket ++ behind.rows))) := List.perm_middle
      exact (hfront.trans (ih.cons r)).trans (List.perm_append_singleton r rows).symm

theorem WellFormed.dealt {layout : Layout} (h : layout.WellFormed) (hcapacity : capacity ≠ 0) :
    (dealt capacity layout.rows).WellFormed where
  row r hr := h.row r ((rows_dealt_perm hcapacity _).mem_iff.1 hr)
  indexOf_eq bucket rows hrows r hr := by
    rw [getElem?_dealt] at hrows
    split at hrows
    · cases hrows
      have hmem : r ∈ layout.rows.filter fun r => indexOf capacity r.node.digest = bucket :=
        List.mem_reverse.1 hr
      rw [length_dealt]
      simpa using (List.mem_filter.1 hmem).2
    · cases hrows
  keys_nodup := by
    rw [((rows_dealt_perm hcapacity _).map Row.key).nodup_iff]
    exact h.keys_nodup

end Layout

namespace Table

variable {t grown : Table} {layout : Layout} {rows done : List Row} {head : Option Slot}
  {heads : List (Option Slot)} {slot other : Slot} {digest : UInt64} {limit capacity : Nat}

/-! ## What hanging leaves alone -/

/-- Two tables that differ in their links and buckets only. -/
structure SameItems (t t' : Table) : Prop where
  tuning_eq : t'.tuning = t.tuning
  values_eq : t'.values = t.values
  node?_eq : ∀ slot, t'.node? slot = t.node? slot

namespace SameItems

variable {t t' t'' : Table}

theorem refl (t : Table) : t.SameItems t :=
  ⟨rfl, rfl, fun _ => rfl⟩

theorem trans (h : t.SameItems t') (h' : t'.SameItems t'') : t.SameItems t'' where
  tuning_eq := h'.tuning_eq.trans h.tuning_eq
  values_eq := h'.values_eq.trans h.values_eq
  node?_eq slot := (h'.node?_eq slot).trans (h.node?_eq slot)

theorem isSome_iff (h : t.SameItems t') (slot : Slot) :
    (t'.nodes.get? slot).isSome ↔ (t.nodes.get? slot).isSome := by
  have hnode := congrArg Option.isSome (h.node?_eq slot)
  rw [node?, node?, Option.isSome_map, Option.isSome_map] at hnode
  rw [hnode]

end SameItems

theorem sameItems_hang : t.SameItems (t.hang slot digest) where
  tuning_eq := rfl
  values_eq := rfl
  node?_eq other := by
    rw [node?, node?, hang, Arena.get?_setNext]
    split
    · rw [Option.map_map]
      rfl
    · rfl

theorem sameItems_hangChain : t.SameItems (t.hangChain limit head) := by
  induction limit generalizing t head with
  | zero => exact .refl t
  | succ limit ih =>
      cases head with
      | none => exact .refl t
      | some slot =>
          rw [hangChain]
          split
          · exact .refl t
          · exact sameItems_hang.trans ih

theorem capacity_hangChain : (t.hangChain limit head).capacity = t.capacity := by
  induction limit generalizing t head with
  | zero => rfl
  | succ limit ih =>
      cases head with
      | none => rfl
      | some slot =>
          rw [hangChain]
          split
          · rfl
          · exact ih.trans capacity_hang

/-- Nodes that are not on the chain keep their links as well. -/
theorem get?_hangChain (hchain : t.nodes.IsChain head (rows.map Row.cell))
    (hslot : slot ∉ rows.map Row.slot) :
    (t.hangChain limit head).nodes.get? slot = t.nodes.get? slot := by
  induction rows generalizing t head limit with
  | nil =>
      cases hchain
      cases limit <;> rfl
  | cons r rows ih =>
      cases limit with
      | zero => rfl
      | succ limit =>
          have hnodup := hchain.nodup
          rw [List.map_cons, List.map_cons, List.nodup_cons] at hnodup
          rw [List.map_cons, List.mem_cons, not_or] at hslot
          cases hchain with
          | @cons _ _ next _ hget hrest =>
              have hrest' : (t.hang r.slot r.node.digest).nodes.IsChain next
                  (rows.map Row.cell) := hrest.modify hnodup.1
              rw [hangChain, hget]
              apply (ih hrest' hslot.2).trans
              rw [hang, Arena.get?_setNext, if_neg hslot.1]

/-- Chains of other buckets are not touched. -/
theorem isChain_hangChain (hchain : t.nodes.IsChain head (rows.map Row.cell))
    (hnodup : ((rows ++ layout.rows).map Row.slot).Nodup)
    (hchains : ∀ bucket rows, layout[bucket]? = some rows →
      t.nodes.IsChain (heads.getD bucket none) (rows.map Row.cell)) :
    ∀ bucket rows, layout[bucket]? = some rows →
      (t.hangChain limit head).nodes.IsChain (heads.getD bucket none) (rows.map Row.cell) := by
  intro bucket rs hrs
  apply (hchains bucket rs hrs).congr
  intro slot hslot
  refine get?_hangChain hchain ?_
  -- The chains are on different rows, and no two rows have one slot.
  intro hmem
  have hslot' : slot ∈ layout.rows.map Row.slot := by
    obtain ⟨r, hr, rfl⟩ := List.mem_map.1 (show slot ∈ rs.map Row.slot by
      simpa [Row.cell, Function.comp_def] using hslot)
    exact List.mem_map_of_mem (List.mem_flatten.2 ⟨rs, List.mem_of_getElem? hrs, hr⟩)
  rw [List.map_append] at hnodup
  exact hnodup.disjoint hmem hslot'

/-! ## Hanging all chains -/

/-- Hanging a node deals its row. -/
theorem Hangs.hang_dealt {r : Row} (h : t.Hangs (.dealt capacity done)) (hcapacity : capacity ≠ 0)
    (hnode : t.node? r.slot = some r.node) (hslot : r.slot ∉ done.map Row.slot) :
    (t.hang r.slot r.node.digest).Hangs (.dealt capacity (done ++ [r])) := by
  obtain ⟨before, behind, bucket, hbefore, hdealt, hdealt'⟩ :=
    Layout.exists_dealt_concat hcapacity done r
  have hcapacity' : t.capacity = capacity := h.capacity_eq.trans Layout.length_dealt
  have hperm := (Layout.rows_dealt_perm hcapacity done).map Row.slot
  rw [hdealt] at h hperm
  rw [hdealt']
  exact h.hang hnode (hcapacity' ▸ hbefore) (hperm.mem_iff.not.2 hslot)

/-- Hanging a chain deals its rows, from its head on. -/
theorem Hangs.hangChain (h : t.Hangs (.dealt capacity done)) (hcapacity : capacity ≠ 0)
    (hchain : t.nodes.IsChain head (rows.map Row.cell))
    (hnodup : ((done ++ rows).map Row.slot).Nodup) (hlimit : rows.length ≤ limit) :
    (t.hangChain limit head).Hangs (.dealt capacity (done ++ rows)) := by
  induction rows generalizing t head done limit with
  | nil =>
      cases hchain
      rw [List.append_nil]
      cases limit <;> exact h
  | cons r rows ih =>
      cases limit with
      | zero => simp at hlimit
      | succ limit =>
          have hdone : r.slot ∉ done.map Row.slot := by
            rw [List.map_append, List.map_cons, List.nodup_middle, List.nodup_cons] at hnodup
            exact fun hmem => hnodup.1 (List.mem_append_left _ hmem)
          have hchainNodup := hchain.nodup
          rw [List.map_cons, List.map_cons, List.nodup_cons] at hchainNodup
          cases hchain with
          | @cons _ _ next _ hget hrest =>
              have hnode : t.node? r.slot = some r.node := by
                rw [node?, hget, Option.map_some]
              have hrest' : (t.hang r.slot r.node.digest).nodes.IsChain next
                  (rows.map Row.cell) := hrest.modify hchainNodup.1
              rw [Table.hangChain, hget, List.append_cons]
              refine ih (h.hang_dealt hcapacity hnode hdone) hrest' ?_
                (Nat.le_of_succ_le_succ hlimit)
              rwa [← List.append_cons]

/-- Hanging chain after chain deals the rows of them all. As the chains do not meet,
none of them is touched before its turn. -/
theorem Hangs.foldl_hangChain (h : grown.Hangs (.dealt capacity done)) (hcapacity : capacity ≠ 0)
    (hheads : heads.length = layout.length)
    (hchains : ∀ bucket rows, layout[bucket]? = some rows →
      grown.nodes.IsChain (heads.getD bucket none) (rows.map Row.cell))
    (hnodup : ((done ++ layout.rows).map Row.slot).Nodup) (hlimit : layout.rows.length ≤ limit) :
    (heads.foldl (fun grown head => grown.hangChain limit head) grown).Hangs
      (.dealt capacity (done ++ layout.rows)) := by
  induction layout generalizing grown done heads with
  | nil =>
      have hnil : heads = [] := List.length_eq_zero_iff.1 hheads
      simpa [hnil, Layout.rows] using h
  | cons rows layout ih =>
      have hrows : Layout.rows (rows :: layout) = rows ++ Layout.rows layout := List.flatten_cons
      rw [hrows, ← List.append_assoc] at hnodup ⊢
      rw [hrows, List.length_append] at hlimit
      cases heads with
      | nil => simp at hheads
      | cons head heads =>
          have hchain : grown.nodes.IsChain head (rows.map Row.cell) := hchains 0 rows rfl
          have hfront : ((done ++ rows).map Row.slot).Nodup := by
            rw [List.map_append] at hnodup
            exact hnodup.of_append_left
          have hfirst := h.hangChain hcapacity hchain hfront (Nat.le_of_add_right_le hlimit)
          rw [List.foldl_cons]
          refine ih hfirst (by simpa using hheads) ?_ hnodup (Nat.le_of_add_left_le hlimit)
          rw [List.append_assoc, List.map_append] at hnodup
          exact isChain_hangChain hchain hnodup.of_append_right fun bucket => hchains (bucket + 1)

/-! ## Doubling -/

theorem sameItems_foldl_hangChain :
    grown.SameItems (heads.foldl (fun grown head => grown.hangChain limit head) grown) := by
  induction heads generalizing grown with
  | nil => exact .refl grown
  | cons head heads ih => exact sameItems_hangChain.trans ih

theorem sameItems_double : t.SameItems t.double := by
  have hemptied : t.SameItems
      { t with heads := Array.replicate (2 * t.capacity) none, occupied := 0 } :=
    ⟨rfl, rfl, fun _ => rfl⟩
  rw [double, ← Array.foldl_toList]
  exact hemptied.trans sameItems_foldl_hangChain

theorem hangs_dealt_nil (hheads : t.heads = Array.replicate capacity none)
    (hoccupied : t.occupied = 0) : t.Hangs (.dealt capacity []) where
  capacity_eq := by
    rw [Table.capacity, hheads, Array.size_replicate, Layout.length_dealt]
  isChain bucket rows hrows := by
    have hhead : t.head bucket = none := by
      rw [Table.head, hheads, Array.getD_eq_getD_getElem?, Array.getElem?_replicate]
      split <;> rfl
    rw [Layout.getElem?_dealt] at hrows
    split at hrows
    · cases hrows
      rw [hhead]
      exact .nil
    · cases hrows
  occupied_eq := by
    rw [hoccupied, eq_comm, List.countP_eq_zero]
    simp [Layout.dealt, Layout.share]

/-- Doubling deals all rows to twice as many buckets. -/
theorem Realizes.double (h : t.Realizes layout) (hcapacity : t.capacity ≠ 0) :
    t.double.Realizes (.dealt (2 * t.capacity) layout.rows) := by
  have hcapacity' : 2 * t.capacity ≠ 0 := by omega
  refine ⟨?_, ?_⟩
  · rw [Table.double, ← Array.foldl_toList]
    have hempty : { t with heads := Array.replicate (2 * t.capacity) none, occupied := 0 }.Hangs
        (.dealt (2 * t.capacity) []) := hangs_dealt_nil rfl rfl
    refine hempty.foldl_hangChain hcapacity' ?_ ?_
      h.stores.nodes_nodup (Nat.le_of_eq h.keyCount_eq.symm)
    · rw [Array.length_toList]
      exact h.hangs.capacity_eq
    · intro bucket rows hrows
      have hchain := h.hangs.isChain bucket rows hrows
      simpa [Table.head] using hchain
  · have hstores := (h.stores.perm (Layout.rows_dealt_perm hcapacity' _).symm).congr_nodes
      sameItems_double.isSome_iff
    rwa [← sameItems_double.values_eq] at hstores

theorem Holds.double (h : t.Holds layout) (hcapacity : t.capacity ≠ 0) :
    t.double.Holds (.dealt (2 * t.capacity) layout.rows) :=
  ⟨h.toRealizes.double hcapacity, h.wellFormed.dealt (by omega)⟩

end Table

end Multimap.Chained
