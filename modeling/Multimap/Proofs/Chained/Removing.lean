import Multimap.Proofs.Chained.Adding
import Multimap.Proofs.Traversal.Contents

/-!
# Removing — one row or one value less in a layout

Removing a key takes its row out of its bucket; removing a pair takes one value out
of a row, and the row as well when that was the last value. In both cases the cell
that goes is bridged by the cell before it, which is the head of the chain or the
place that `seek?` has found.
-/

namespace Multimap.Chained

open Multimap.Traversal

namespace Row

/-- A row with the given values left, of which there is one less than before. -/
def keepValues (values : List (Slot × Bytes)) (r : Row) : Row :=
  { r with node := r.node.dropValue (values.map Prod.fst).head?, values }

theorem wellFormed_keepValues {r : Row} {values : List (Slot × Bytes)} (h : r.WellFormed)
    (hne : values ≠ []) (hlength : r.values.length = values.length + 1) :
    (r.keepValues values).WellFormed where
  digest_eq := h.digest_eq
  values_ne_nil := hne
  valueCount_eq := by
    have hcount : (r.keepValues values).node.valueCount = r.node.valueCount - 1 := rfl
    rw [hcount, h.valueCount_eq, hlength]
    rfl

end Row

theorem Layout.WellFormed.drop {f : Focus} (h : f.layout.WellFormed) : f.drop.WellFormed where
  row r hr := h.row r (f.rows_layout_perm.mem_iff.2 (List.mem_cons_of_mem _ hr))
  indexOf_eq := by
    rw [Focus.length_drop]
    refine Layout.forall_replace h.indexOf_eq (fun _ _ _ _ hP => hP) ?_
    intro s hs
    refine h.indexOf_eq _ _ f.getElem?_layout s ?_
    rcases List.mem_append.1 hs with hfront | hback
    · exact List.mem_append_left _ hfront
    · exact List.mem_append_right _ (List.mem_cons_of_mem _ hback)
  keys_nodup := by
    have hnodup := h.keys_nodup
    rw [(f.rows_layout_perm.map Row.key).nodup_iff] at hnodup
    exact (List.nodup_cons.1 hnodup).2

/-! ## Arenas -/

namespace Stores

variable {nodes : Arena Node} {values : Arena Bytes} {rows : List Row} {r s : Row}

/-- The values of two rows have no slot in common. -/
theorem notMem_valueSlots (h : Stores nodes values (r :: rows)) (hs : s ∈ rows) {slot : Slot}
    (hslot : slot ∈ r.valueSlots) : slot ∉ s.valueSlots := by
  have hnodup := h.values_nodup
  rw [List.flatMap_cons] at hnodup
  intro hmem
  exact hnodup.disjoint hslot (List.mem_flatMap.2 ⟨s, hs, hmem⟩)

theorem unlink (h : Stores nodes values (r :: rows)) (previous : Option Slot) :
    Stores (nodes.detach previous r.slot) (values.removeChain r.node.values) rows where
  node_iff slot := by
    have hnotMem := (List.nodup_cons.1 h.nodes_nodup).1
    rw [Arena.isSome_get?_detach, h.node_iff, List.map_cons, List.mem_cons]
    constructor
    · rintro ⟨hne, heq | hmem⟩
      · exact absurd heq hne
      · exact hmem
    · intro hmem
      exact ⟨ne_of_mem_of_not_mem hmem hnotMem, .inr hmem⟩
  value_iff slot := by
    have hnodup := h.values_nodup
    rw [List.flatMap_cons] at hnodup
    rw [Arena.get?_removeChain (h.isChain r (by simp)), ← Row.valueSlots]
    have hiff := h.value_iff slot
    rw [List.flatMap_cons, List.mem_append] at hiff
    by_cases hslot : slot ∈ r.valueSlots
    · have hnotMem : slot ∉ rows.flatMap Row.valueSlots := hnodup.disjoint hslot
      rw [if_pos hslot]
      simp [hnotMem]
    · rw [if_neg hslot, hiff]
      simp [hslot]
  nodes_nodup := (List.nodup_cons.1 h.nodes_nodup).2
  values_nodup := by
    have hnodup := h.values_nodup
    rw [List.flatMap_cons] at hnodup
    exact hnodup.of_append_right
  isChain s hs := by
    apply (h.isChain s (List.mem_cons_of_mem _ hs)).congr
    intro slot hslot
    rw [Arena.get?_removeChain (h.isChain r (by simp)), if_neg]
    exact fun hmem => h.notMem_valueSlots hs hmem hslot

theorem removeValue (h : Stores nodes values (r :: rows)) {front back : List (Slot × Bytes)}
    {slot : Slot} {value : Bytes} (hvalues : r.values = front ++ (slot, value) :: back)
    (change : Node → Node) :
    Stores (nodes.modifyItem r.slot change) (values.detach (front.getLast?.map Prod.fst) slot)
      (r.keepValues (front ++ back) :: rows) where
  node_iff other := by
    have hiff := h.node_iff other
    rw [Arena.get?_modifyItem]
    split <;> simpa [Row.keepValues] using hiff
  value_iff other := by
    have hiff := h.value_iff other
    have hnodup := h.values_nodup
    simp only [List.flatMap_cons, Row.valueSlots, Row.keepValues, hvalues, List.map_append,
      List.map_cons, List.append_assoc, List.cons_append, List.nodup_middle,
      List.nodup_cons, List.mem_append, List.mem_cons] at hiff hnodup ⊢
    rw [Arena.isSome_get?_detach, hiff]
    by_cases heq : other = slot
    · subst heq
      simpa using hnodup.1
    · simp [heq]
  nodes_nodup := h.nodes_nodup
  values_nodup := by
    have hnodup := h.values_nodup
    simp only [List.flatMap_cons, Row.valueSlots, Row.keepValues, hvalues, List.map_append,
      List.map_cons, List.append_assoc, List.cons_append, List.nodup_middle,
      List.nodup_cons] at hnodup ⊢
    exact hnodup.2
  isChain s hs := by
    have hchain := h.isChain r (by simp)
    rw [hvalues] at hchain
    rcases List.mem_cons.1 hs with rfl | hs
    · rcases hchain.get?_eq with ⟨next, hget, -⟩
      have hrest := hchain.detach hget
      have hhead := hrest.head_eq
      rwa [hhead] at hrest
    · apply (h.isChain s (List.mem_cons_of_mem _ hs)).congr
      intro other hother
      -- Neither the removed value nor the one before it belongs to another row.
      have hne : ∀ c ∈ r.values, other ≠ c.1 := by
        rintro c hc rfl
        exact h.notMem_valueSlots hs (List.mem_map_of_mem hc) hother
      rw [Arena.get?_detach_of_ne, if_neg]
      · exact hne (slot, value) (by simp [hvalues])
      · intro heq
        rcases Option.map_eq_some_iff.1 heq.symm with ⟨c, hc, hother'⟩
        have hmem : c ∈ r.values := by
          simp [hvalues, List.mem_of_getLast? hc]
        exact hne c hmem hother'.symm

end Stores

/-! ## Links -/

namespace Table

variable {t : Table} {layout : Layout} {f : Focus} {key value : Bytes}

theorem head_unlink {place : Place} {cell : Cell Node} (hget : t.nodes.get? place.slot = some cell)
    (hlt : place.bucket < t.capacity) (bucket : Nat) :
    (t.unlink place).head bucket =
      if bucket = place.bucket ∧ place.previous = none then cell.next else t.head bucket := by
  have hlt' : place.bucket < t.heads.size := hlt
  rw [unlink, hget]
  by_cases hprevious : place.previous = none
  · by_cases heq : bucket = place.bucket
    · subst heq
      simp [head, hprevious, hlt']
    · simp [head, hprevious, heq, Ne.symm heq]
  · simp [head, hprevious]

/-- The number of occupied buckets falls when the bucket has no other node. -/
theorem occupied_unlink {place : Place} {cell : Cell Node}
    (hget : t.nodes.get? place.slot = some cell) :
    (t.unlink place).occupied =
      if ((t.unlink place).head place.bucket).isNone then t.occupied - 1 else t.occupied := by
  rw [unlink, hget]
  rfl

theorem capacity_unlink {place : Place} : (t.unlink place).capacity = t.capacity := by
  rw [unlink]
  split
  · rfl
  · simp only [capacity]
    split <;> simp

theorem Hangs.unlink (h : t.Hangs f.layout) (hnodup : (f.layout.rows.map Row.slot).Nodup) :
    (t.unlink f.place).Hangs f.drop := by
  rcases h.get?_eq f.row_mem with ⟨next, hget⟩
  have hnodes : (t.unlink f.place).nodes = t.nodes.detach f.place.previous f.row.slot := by
    have hget' : t.nodes.get? f.place.slot = some { item := f.row.node, next } := hget
    rw [Table.unlink, hget']
    rfl
  have hchain : (t.unlink f.place).nodes.IsChain ((t.unlink f.place).head f.before.length)
      ((f.front ++ f.back).map Row.cell) := by
    have hrest := h.isChain_focus.detach hget
    rw [getLast?_map_cell] at hrest
    rw [hnodes, head_unlink hget h.bucket_lt, List.map_append]
    by_cases hfront : f.front = []
    · simpa [Focus.place, hfront] using hrest
    · simpa [Focus.place, hfront] using hrest
  refine ⟨?_, ?_, ?_⟩
  · rw [capacity_unlink, h.capacity_eq, f.length_drop]
  · refine Layout.forall_replace h.isChain ?_ hchain
    intro bucket rs hne hrs hother
    have hhead : (t.unlink f.place).head bucket = t.head bucket := by
      rw [head_unlink hget h.bucket_lt, if_neg]
      exact fun hbucket => hne hbucket.1
    have hnotMem : ∀ r ∈ f.front ++ f.row :: f.back, r.slot ∉ (rs.map Row.cell).map Prod.fst :=
      fun r hr => Layout.notMem_cells (Layout.slot_notMem_others hnodup hr) hrs
    rw [hhead]
    apply hother.congr
    intro slot hslot
    rw [hnodes, Arena.get?_detach_of_ne, if_neg]
    · exact ne_of_mem_of_not_mem hslot (hnotMem f.row (by simp))
    · -- The node before the removed one is in the same bucket.
      intro heq
      rcases Option.map_eq_some_iff.1 heq.symm with ⟨r, hr, rfl⟩
      exact hnotMem r (List.mem_append_left _ (List.mem_of_getLast? hr)) hslot
  · have hnone : ((t.unlink f.place).head f.place.bucket).isNone ↔ f.front ++ f.back = [] := by
      rw [← List.map_eq_nil_iff]
      exact hchain.isNone_iff
    have hoccupied := h.occupied_eq
    simp only [Focus.layout, List.countP_append, List.countP_cons] at hoccupied
    rw [occupied_unlink hget]
    simp only [hnone, Focus.drop, List.countP_append, List.countP_cons]
    by_cases hrest : f.front ++ f.back = []
    · simp [hrest] at hoccupied ⊢
      omega
    · simp [hrest] at hoccupied ⊢
      omega

theorem Realizes.unlink (h : t.Realizes f.layout) : (t.unlink f.place).Realizes f.drop where
  hangs := h.hangs.unlink h.stores.nodes_nodup
  stores := by
    rcases h.hangs.get?_eq f.row_mem with ⟨next, hget⟩
    have hget' : t.nodes.get? f.place.slot = some { item := f.row.node, next } := hget
    have hstores := h.stores.perm f.rows_layout_perm
    rw [Table.unlink, hget']
    exact hstores.unlink f.place.previous

theorem Realizes.removeValue (h : t.Realizes f.layout) {front back : List (Slot × Bytes)}
    {slot : Slot} (hvalues : f.row.values = front ++ (slot, value) :: back) :
    (t.removeValue f.row.slot (front.getLast?.map Prod.fst) slot).Realizes
      { f with row := f.row.keepValues (front ++ back) }.layout := by
  have hstores := (h.stores.perm f.rows_layout_perm).removeValue hvalues fun n =>
    n.dropValue (if (front.getLast?.map Prod.fst).isNone then
      (t.values.get? slot).bind Cell.next else n.values)
  refine ⟨h.hangs.modifyItem h.stores.nodes_nodup rfl ?_,
    hstores.perm (Focus.rows_layout_perm (f := { f with row := _ })).symm⟩
  -- The node leads to the first of the values that are left.
  have hchain := h.stores.isChain f.row f.row_mem
  rw [hvalues] at hchain
  rcases hchain.get?_eq with ⟨next, hget, -⟩
  have hhead := (hchain.detach hget).head_eq
  rw [Row.keepValues, ← hhead, hget]
  by_cases hfront : front = []
  · simp [hfront]
  · simp [hfront]

/-! ## Removing a key or a pair -/

/-- Removing a key takes out its row, or changes nothing where there is none. -/
theorem Holds.erase_cases (h : t.Holds layout) (key : Bytes) :
    (∃ f : Focus, f.layout = layout ∧ f.row.key = key ∧ (t.erase key).1 = true ∧
        (t.erase key).2.Holds f.drop) ∨
      (key ∉ layout.contents.keys ∧ t.erase key = (false, t)) := by
  rcases h.find?_cases key with ⟨f, rfl, hkey, hfind⟩ | ⟨hnotMem, hfind⟩
  · left
    refine ⟨f, rfl, hkey, ?_⟩
    rw [erase, hfind]
    exact ⟨rfl, h.unlink, h.wellFormed.drop⟩
  · right
    refine ⟨Layout.mem_keys.not.2 hnotMem, ?_⟩
    rw [erase, hfind]

/-- The node of a row that has lost a value counts the values that are left. -/
theorem Holds.valueCount_removeValue (h : t.Holds f.layout) {front back : List (Slot × Bytes)}
    {slot : Slot} (hvalues : f.row.values = front ++ (slot, value) :: back) :
    ((t.removeValue f.row.slot (front.getLast?.map Prod.fst) slot).node? f.row.slot).any
        (·.valueCount == 0) ↔ front ++ back = [] := by
  have hnode := (h.removeValue hvalues).node?_eq (Focus.row_mem (f := { f with row := _ }))
  have hcount := (h.wellFormed.row f.row f.row_mem).valueCount_eq
  rw [hvalues, List.length_append, List.length_cons] at hcount
  simp only [Row.keepValues] at hnode
  rw [hnode, ← List.length_eq_zero_iff, List.length_append]
  simp [Node.dropValue, hcount]

theorem Holds.erasePair_eq (h : t.Holds f.layout) (hfind : t.find? key = some f.place)
    {front back : List (Slot × Bytes)} {slot : Slot}
    (hvalues : f.row.values = front ++ (slot, value) :: back)
    (hseek : seek? (· == value) none f.row.values = some (front.getLast?.map Prod.fst, slot)) :
    t.erasePair key value =
      (true, if front ++ back = [] then
          (t.removeValue f.row.slot (front.getLast?.map Prod.fst) slot).unlink f.place
        else t.removeValue f.row.slot (front.getLast?.map Prod.fst) slot) := by
  have hvalueChain : t.valueChain f.place.slot = f.row.values := h.valueChain_eq f.row_mem
  rw [erasePair, hfind]
  simp only [hvalueChain, hseek, ← h.valueCount_removeValue hvalues]
  rfl

/-- Removing a pair takes the first occurrence of its value out of the row of its
key, and the row with its last value. -/
theorem Holds.erasePair_cases (h : t.Holds layout) (key value : Bytes) :
    (∃ (f : Focus) (front back : List (Slot × Bytes)) (slot : Slot), f.layout = layout ∧
        f.row.key = key ∧ f.row.values = front ++ (slot, value) :: back ∧
        value ∉ front.map Prod.snd ∧ (t.erasePair key value).1 = true ∧
        (t.erasePair key value).2.Holds (if front ++ back = [] then f.drop
          else { f with row := f.row.keepValues (front ++ back) }.layout)) ∨
      (value ∉ layout.contents.valuesOf key ∧ t.erasePair key value = (false, t)) := by
  rcases h.find?_cases key with ⟨f, rfl, hkey, hfind⟩ | ⟨hnotMem, hfind⟩
  · cases hseek : seek? (· == value) none f.row.values with
    | none =>
        right
        have hvaluesOf : f.layout.contents.valuesOf key = f.row.values.map Prod.snd := by
          apply Contents.valuesOf_of_mem h.keys_nodup
          exact hkey ▸ List.mem_map_of_mem (f := Row.binding) f.row_mem
        have hvalueChain : t.valueChain f.place.slot = f.row.values := h.valueChain_eq f.row_mem
        refine ⟨?_, ?_⟩
        · rw [hvaluesOf]
          intro hmem
          rcases List.mem_map.1 hmem with ⟨c, hc, rfl⟩
          simpa using seek?_eq_none_iff.1 hseek c hc
        · rw [erasePair, hfind]
          simp only [hvalueChain, hseek]
    | some found =>
        left
        rcases found with ⟨previous, slot⟩
        rcases seek?_eq_some hseek with ⟨front, item, back, hvalues, hitem, hfront, hprevious⟩
        have heq : item = value := by simpa using hitem
        subst heq
        rw [Option.or_none] at hprevious
        subst hprevious
        have hnotMem : item ∉ front.map Prod.snd := by
          intro hmem
          rcases List.mem_map.1 hmem with ⟨c, hc, hcitem⟩
          simpa [hcitem] using hfront c hc
        have hremoved := h.removeValue hvalues
        have hwf := h.wellFormed
        rw [h.erasePair_eq hfind hvalues hseek]
        refine ⟨f, front, back, slot, rfl, hkey, hvalues, hnotMem, rfl, ?_⟩
        by_cases hrest : front ++ back = []
        · -- The node without values is taken out like any other.
          rw [if_pos hrest, if_pos hrest]
          exact ⟨hremoved.unlink (f := { f with row := _ }), hwf.drop⟩
        · rw [if_neg hrest, if_neg hrest]
          refine ⟨hremoved, hwf.replace ?_ rfl⟩
          apply Row.wellFormed_keepValues (hwf.row _ f.row_mem) hrest
          simp [hvalues, Nat.add_assoc]
  · right
    rw [erasePair, hfind, Contents.valuesOf_eq_nil (Layout.mem_keys.not.2 hnotMem)]
    exact ⟨List.not_mem_nil, rfl⟩

end Table

end Multimap.Chained
