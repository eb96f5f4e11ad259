import Multimap.Chained.Backend
import Multimap.Proofs.Chained.Operations
import Multimap.Proofs.Effects

/-!
# Reachable tables — what holds after every run

A run begins with a fresh table and goes on with any operations in any order, in a
memory that may refuse any allocation at any time. Copies may come from any source
without effects of its own.

* each operation keeps a table well formed, hence every reachable table is
  (`Reachable.wellFormed`);
* what that means for buckets, chains, counts and arenas is spelled out in
  `Table.Invariant`.
-/

namespace Multimap.Chained

open Multimap.Traversal

namespace Table

/-! ## Runs -/

/-- Makes a table a copy of another backend, where memory may refuse something at one
time and grant it at another. -/
def copyIn {m : Type → Type} {σ κ : Type} [Monad m] [CursorState m κ] [Backend m σ κ]
    (memory : Table → Memory) (identifier : String) (source : σ) : Op m Table Unit :=
  letI : Backend m Table Cursor := backendIn memory
  Backend.copyFrom identifier source

/-- The tables that runs lead to which begin with a fresh table of a tuning. -/
inductive Reachable (tuning : Tuning) : Table → Prop where
  | fresh {t : Table} : ofTuning tuning = .ok t → Reachable tuning t
  | putIn {t : Table} (memory : Memory) (key value : Bytes) :
      Reachable tuning t → Reachable tuning (t.putIn memory key value).2
  | erase {t : Table} (key : Bytes) : Reachable tuning t → Reachable tuning (t.erase key).2
  | erasePair {t : Table} (key value : Bytes) :
      Reachable tuning t → Reachable tuning (t.erasePair key value).2
  | clear {t : Table} : Reachable tuning t → Reachable tuning t.clear
  | copyIn {t : Table} {σ κ : Type} [CursorState Id κ] [Backend Id σ κ]
      (memory : Table → Memory) (identifier : String) (source : σ) :
      Reachable tuning t →
        Reachable tuning ((Table.copyIn (m := Id) memory identifier source).run t).run.2

variable {t : Table} {tuning : Tuning}

theorem eq_empty_of_ofTuning (h : ofTuning tuning = .ok t) :
    ∃ hvalid, t = empty tuning hvalid := by
  rw [ofTuning] at h
  split at h
  · cases h
  · cases h
    exact ⟨_, rfl⟩

theorem ofTuning_eq_ok (h : ofTuning tuning = .ok t) : t.tuning = tuning ∧ t.WellFormed := by
  obtain ⟨hvalid, rfl⟩ := eq_empty_of_ofTuning h
  exact ⟨rfl, wellFormed_empty tuning hvalid⟩

/-- A copy is made by adding pairs, so it keeps what adding keeps. -/
theorem keeps_copyIn {m : Type → Type} {σ κ : Type} [Monad m] [LawfulMonad m] [CursorState m κ]
    [Backend m σ κ] {p : Table → Prop}
    (hput : ∀ t memory key value, p t → p (t.putIn memory key value).2)
    (memory : Table → Memory) (identifier : String) (source : σ) :
    Op.Keeps p (copyIn (m := m) memory identifier source) := by
  let _ : Backend m Table Cursor := backendIn memory
  refine Backend.keeps_copyFrom (p := p) ?_ ?_ identifier source
  · intro request
    exact .ofStep fun t ht => ht
  · intro key value
    exact .ofStep fun t ht => hput t (memory t) key value ht

theorem Reachable.wellFormed (h : Reachable tuning t) : t.tuning = tuning ∧ t.WellFormed := by
  induction h with
  | fresh h => exact ofTuning_eq_ok h
  | putIn memory key value _ ih =>
      exact ⟨tuning_putIn.trans ih.1, ih.2.putIn memory key value⟩
  | erase key _ ih => exact ⟨sameShape_erase.tuning_eq.trans ih.1, (ih.2.erase key).1⟩
  | erasePair key value _ ih =>
      exact ⟨sameShape_erasePair.tuning_eq.trans ih.1, (ih.2.erasePair key value).1⟩
  | clear _ ih => exact ⟨ih.1, wellFormed_clear⟩
  | copyIn memory identifier source _ ih =>
      have hput : ∀ (t : Table) (memory : Memory) (key value : Bytes),
          t.tuning = tuning ∧ t.WellFormed →
            (t.putIn memory key value).2.tuning = tuning ∧
              (t.putIn memory key value).2.WellFormed :=
        fun t memory key value ht =>
          ⟨tuning_putIn.trans ht.1, ht.2.putIn memory key value⟩
      have hkeeps := keeps_copyIn (m := Id) hput memory identifier source _ ih
      exact (ensures_id_iff.1 hkeeps :)

/-! ## The invariant -/

/-- The nodes that the buckets lead to. -/
def linkedNodes (t : Table) : List (Slot × Node) :=
  (List.range t.capacity).flatMap t.chain

/-- The values that these nodes lead to. -/
def linkedValues (t : Table) : List (Slot × Bytes) :=
  t.linkedNodes.flatMap fun c => t.values.chain c.2.values

/-- What ties buckets, links, arenas and counts together. -/
structure Invariant (t : Table) : Prop where
  capacity_eq : t.capacity = 0 ∧ t.keyCount = 0 ∧ t.pairCount = 0 ∨
    ∃ doublings, t.capacity = t.tuning.initialCapacity * 2 ^ doublings
  isPowerOfTwo : t.capacity ≠ 0 → t.capacity.isPowerOfTwo
  occupied_eq : t.occupied =
    (List.range t.capacity).countP fun bucket => !(t.chain bucket).isEmpty
  /-- Every chain ends. -/
  isChain : ∀ bucket < t.capacity, t.nodes.IsChain (t.head bucket) (t.chain bucket)
  digest_eq : ∀ bucket < t.capacity, ∀ c ∈ t.chain bucket,
    c.2.digest = digest c.2.key ∧ indexOf t.capacity c.2.digest = bucket
  keys_nodup : (t.linkedNodes.map fun c => c.2.key).Nodup
  /-- Every chain of values ends. -/
  isValueChain : ∀ c ∈ t.linkedNodes, t.values.IsChain c.2.values (t.values.chain c.2.values)
  valueCount_eq : ∀ c ∈ t.linkedNodes,
    0 < c.2.valueCount ∧ c.2.valueCount = (t.values.chain c.2.values).length
  /-- No node is on two chains, or twice on one. -/
  nodes_nodup : (t.linkedNodes.map Prod.fst).Nodup
  /-- No value is on two chains, or twice on one. -/
  values_nodup : (t.linkedValues.map Prod.fst).Nodup
  node_iff : ∀ slot, (t.nodes.get? slot).isSome ↔ slot ∈ t.linkedNodes.map Prod.fst
  value_iff : ∀ slot, (t.values.get? slot).isSome ↔ slot ∈ t.linkedValues.map Prod.fst
  keyCount_eq : t.keyCount = t.linkedNodes.length
  pairCount_eq : t.pairCount = t.linkedValues.length

theorem rows_layout (t : Table) : t.layout.rows = t.linkedNodes.map t.row := by
  rw [Layout.rows, layout, linkedNodes, List.flatMap, List.map_flatten, List.map_map]
  rfl

theorem keys_contents (t : Table) : t.contents.keys = t.linkedNodes.map fun c => c.2.key := by
  rw [contents, Layout.contents, rows_layout, Contents.keys, List.map_map, List.map_map]
  rfl

theorem map_slot_rows (t : Table) :
    t.layout.rows.map Row.slot = t.linkedNodes.map Prod.fst := by
  rw [rows_layout, List.map_map]
  rfl

theorem flatMap_valueSlots_rows (t : Table) :
    t.layout.rows.flatMap Row.valueSlots = t.linkedValues.map Prod.fst := by
  rw [rows_layout, linkedValues, List.flatMap_map, List.map_flatMap]
  rfl

theorem getElem?_layout {bucket : Nat} (h : bucket < t.capacity) :
    t.layout[bucket]? = some ((t.chain bucket).map t.row) := by
  simp [layout, h]

theorem isPowerOfTwo_mul {a : Nat} (ha : a.isPowerOfTwo) (n : Nat) :
    (a * 2 ^ n).isPowerOfTwo := by
  rcases ha with ⟨k, rfl⟩
  exact ⟨k + n, (Nat.pow_add 2 k n).symm⟩

theorem WellFormed.toInvariant (h : t.WellFormed) : t.Invariant where
  capacity_eq := by
    rcases h.capacity_eq with hzero | hpow
    · left
      have hnil := h.layout_eq_nil hzero
      rw [h.holds.keyCount_eq, h.holds.pairCount_eq, hnil]
      exact ⟨hzero, rfl, rfl⟩
    · exact .inr hpow
  isPowerOfTwo hne := by
    rcases h.capacity_eq with hzero | ⟨doublings, hpow⟩
    · exact absurd hzero hne
    · rw [hpow]
      exact isPowerOfTwo_mul t.tuning_valid.initialCapacity_pow doublings
  occupied_eq := by
    rw [h.holds.hangs.occupied_eq, layout, List.countP_map]
    simp [Function.comp_def]
  isChain bucket hlt := by
    have hchain := h.holds.hangs.isChain bucket _ (getElem?_layout hlt)
    rwa [List.map_map, show Row.cell ∘ t.row = id from rfl, List.map_id] at hchain
  digest_eq bucket hlt c hc := by
    have hmem : t.row c ∈ (t.chain bucket).map t.row := List.mem_map_of_mem hc
    have hrow := getElem?_layout hlt
    have hdigest := h.holds.wellFormed.row (t.row c)
      (List.mem_flatten.2 ⟨_, List.mem_of_getElem? hrow, hmem⟩)
    have hindex := h.holds.wellFormed.indexOf_eq bucket _ hrow (t.row c) hmem
    rw [← h.holds.hangs.capacity_eq] at hindex
    exact ⟨hdigest.digest_eq, hindex⟩
  keys_nodup := by
    have hnodup := h.holds.wellFormed.keys_nodup
    rwa [rows_layout, List.map_map] at hnodup
  isValueChain c hc := by
    apply h.holds.stores.isChain (t.row c)
    rw [rows_layout]
    exact List.mem_map_of_mem hc
  valueCount_eq c hc := by
    have hrow := h.holds.wellFormed.row (t.row c) (rows_layout t ▸ List.mem_map_of_mem hc)
    have hcount : c.2.valueCount = (t.values.chain c.2.values).length := hrow.valueCount_eq
    refine ⟨?_, hcount⟩
    rw [hcount]
    exact List.length_pos_iff.2 hrow.values_ne_nil
  nodes_nodup := map_slot_rows t ▸ h.holds.stores.nodes_nodup
  values_nodup := flatMap_valueSlots_rows t ▸ h.holds.stores.values_nodup
  node_iff slot := map_slot_rows t ▸ h.holds.stores.node_iff slot
  value_iff slot := flatMap_valueSlots_rows t ▸ h.holds.stores.value_iff slot
  keyCount_eq := by
    calc t.keyCount
        = t.layout.rows.length := h.holds.keyCount_eq
      _ = t.linkedNodes.length := by rw [rows_layout, List.length_map]
  pairCount_eq := by
    calc t.pairCount
        = (t.layout.rows.flatMap Row.valueSlots).length := h.holds.stores.values_size
      _ = t.linkedValues.length := by rw [flatMap_valueSlots_rows, List.length_map]

/-- Every run keeps the invariant, wherever memory fails in it. -/
theorem Reachable.invariant (h : Reachable tuning t) : t.tuning = tuning ∧ t.Invariant :=
  ⟨h.wellFormed.1, h.wellFormed.2.toInvariant⟩

/-- Memory refuses the first put, and then two keys come into one bucket. -/
theorem invariant_of_collision :
    let t := (((standard.putIn (fun _ => false) [97] [1]).2.putIn .addressable [97] [1]).2.putIn
      .addressable [105] [2]).2
    t.capacity = 8 ∧ t.occupied = 1 ∧ t.keyCount = 2 ∧ t.tuning = {} ∧ t.Invariant := by
  have hfresh : Reachable {} standard := .fresh rfl
  have hreachable := ((hfresh.putIn (fun _ => false) [97] [1]).putIn .addressable [97] [1]).putIn
    .addressable [105] [2]
  exact ⟨by decide, by decide, by decide, hreachable.invariant⟩

end Table

end Multimap.Chained
