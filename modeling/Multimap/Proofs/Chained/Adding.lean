import Multimap.Proofs.Chained.Layout

/-!
# Adding — one more pair in a layout

Adding a pair to a key that is there changes one row; adding it to a new key puts a
row in front of its bucket. Both are done in steps that leave rows without values
for a while, so the links (`Hangs`), the arenas (`Stores`) and the rows
(`Layout.WellFormed`) are followed separately and put together at the end
(`Holds.add_cases`).
-/

namespace Multimap.Chained

namespace Row

/-- The row of a key without values. -/
def ofKey (slot : Slot) (key : Bytes) : Row :=
  { slot, node := .ofKey key, values := [] }

/-- A row with one more value, which is at `slot`. -/
def addValue (slot : Slot) (value : Bytes) (r : Row) : Row :=
  { r with node := r.node.addValue slot, values := (slot, value) :: r.values }

variable {r : Row} {slot : Slot} {key value : Bytes}

theorem wellFormed_addValue (h : r.WellFormed) : (r.addValue slot value).WellFormed where
  digest_eq := h.digest_eq
  values_ne_nil := List.cons_ne_nil _ _
  valueCount_eq := congrArg Nat.succ h.valueCount_eq

theorem wellFormed_ofKey {valueSlot : Slot} :
    ((ofKey slot key).addValue valueSlot value).WellFormed where
  digest_eq := rfl
  values_ne_nil := List.cons_ne_nil _ _
  valueCount_eq := rfl

end Row

/-! ## Rows -/

namespace Layout.WellFormed

variable {f : Focus} {r : Row} {before behind : Layout} {rows : List Row}

theorem replace (h : f.layout.WellFormed) (hr : r.WellFormed) (hkey : r.key = f.row.key) :
    { f with row := r }.layout.WellFormed := by
  have hdigest : r.node.digest = f.row.node.digest := by
    rw [hr.digest_eq, (h.row _ f.row_mem).digest_eq, hkey]
  refine ⟨?_, ?_, ?_⟩
  · intro s hs
    rw [Focus.rows_layout] at hs
    rcases List.mem_append.1 hs with hleft | hs
    · exact h.row s (f.rows_layout ▸ List.mem_append_left _ hleft)
    · rcases List.mem_cons.1 hs with rfl | hright
      · exact hr
      · exact h.row s (f.rows_layout ▸ List.mem_append_right _ (List.mem_cons_of_mem _ hright))
  · have hlength : { f with row := r }.layout.length = f.layout.length := by
      simp [Focus.layout]
    rw [hlength]
    refine Layout.forall_replace h.indexOf_eq (fun _ _ _ _ hP => hP) ?_
    intro s hs
    have hself := h.indexOf_eq _ _ f.getElem?_layout
    rcases List.mem_append.1 hs with hfront | hs
    · exact hself s (List.mem_append_left _ hfront)
    · rcases List.mem_cons.1 hs with rfl | hback
      · rw [hdigest]
        exact hself f.row (by simp)
      · exact hself s (List.mem_append_right _ (List.mem_cons_of_mem _ hback))
  · have hnodup := h.keys_nodup
    rw [Focus.rows_layout, List.map_append, List.map_cons] at hnodup ⊢
    rwa [hkey]

theorem push (h : (before ++ rows :: behind : Layout).WellFormed) (hr : r.WellFormed)
    (hbefore : before.length = indexOf (before ++ rows :: behind).length (digest r.key))
    (hkey : r.key ∉ (Layout.rows (before ++ rows :: behind)).map Row.key) :
    (before ++ (r :: rows) :: behind : Layout).WellFormed := by
  have hperm : (Layout.rows (before ++ (r :: rows) :: behind)).Perm
      (r :: Layout.rows (before ++ rows :: behind)) := by
    rw [Layout.rows_append_cons, Layout.rows_append_cons]
    exact List.perm_middle
  refine ⟨?_, ?_, ?_⟩
  · intro s hs
    rcases List.mem_cons.1 (hperm.mem_iff.1 hs) with rfl | hs
    · exact hr
    · exact h.row s hs
  · have hlength : (before ++ (r :: rows) :: behind : Layout).length =
        (before ++ rows :: behind).length := by simp
    rw [hlength]
    refine Layout.forall_replace h.indexOf_eq (fun _ _ _ _ hP => hP) ?_
    intro s hs
    rcases List.mem_cons.1 hs with rfl | hs
    · rw [hr.digest_eq, ← hbefore]
    · exact h.indexOf_eq before.length rows (by simp) s hs
  · rw [(hperm.map Row.key).nodup_iff, List.map_cons, List.nodup_cons]
    exact ⟨hkey, h.keys_nodup⟩

end Layout.WellFormed

/-! ## Arenas -/

namespace Stores

variable {nodes : Arena Node} {values : Arena Bytes} {rows : List Row} {r : Row}

theorem insertNode (h : Stores nodes values rows) {node : Node} {next : Option Slot}
    (hvalues : node.values = none) :
    Stores (nodes.insert { item := node, next }) values
      ({ slot := nodes.fresh, node, values := [] } :: rows) where
  node_iff slot := by
    rw [Arena.get?_insert]
    by_cases heq : slot = nodes.fresh
    · simp [heq]
    · simp [heq, h.node_iff]
  value_iff slot := by
    simp [h.value_iff, Row.valueSlots]
  nodes_nodup := by
    have hfresh : nodes.fresh ∉ rows.map Row.slot := by
      rw [← h.node_iff, Arena.get?_fresh]
      simp
    exact List.nodup_cons.2 ⟨hfresh, h.nodes_nodup⟩
  values_nodup := h.values_nodup
  isChain s hs := by
    rcases List.mem_cons.1 hs with rfl | hs
    · rw [hvalues]
      exact .nil
    · exact h.isChain s hs

theorem addValue (h : Stores nodes values (r :: rows)) (value : Bytes) (change : Node → Node) :
    Stores (nodes.modifyItem r.slot change)
      (values.insert { item := value, next := r.node.values })
      (r.addValue values.fresh value :: rows) where
  node_iff slot := by
    rw [Arena.get?_modifyItem]
    have hiff := h.node_iff slot
    split <;> simpa [Row.addValue] using hiff
  value_iff slot := by
    rw [Arena.get?_insert]
    by_cases heq : slot = values.fresh
    · simp [heq, Row.addValue, Row.valueSlots]
    · have hiff := h.value_iff slot
      simpa [heq, Row.addValue, Row.valueSlots] using hiff
  nodes_nodup := by
    have hnodup := h.nodes_nodup
    simpa [Row.addValue] using hnodup
  values_nodup := by
    have hfresh : values.fresh ∉ (r :: rows).flatMap Row.valueSlots := by
      rw [← h.value_iff, Arena.get?_fresh]
      simp
    exact List.nodup_cons.2 ⟨hfresh, h.values_nodup⟩
  isChain s hs := by
    rcases List.mem_cons.1 hs with rfl | hs
    · exact (h.isChain r (by simp)).insert_cons
    · exact (h.isChain s (List.mem_cons_of_mem _ hs)).insert

end Stores

/-! ## Links -/

namespace Table

variable {t : Table} {layout before behind : Layout} {rows : List Row} {f : Focus} {r : Row}
  {key value : Bytes}

theorem capacity_hang {slot : Slot} {digest : UInt64} :
    (t.hang slot digest).capacity = t.capacity := by
  simp [hang, capacity]

theorem head_hang {slot : Slot} {digest : UInt64} (hcapacity : t.capacity ≠ 0) (bucket : Nat) :
    (t.hang slot digest).head bucket =
      if bucket = indexOf t.capacity digest then some slot else t.head bucket := by
  have hlt : indexOf t.capacity digest < t.heads.size := indexOf_lt hcapacity digest
  by_cases heq : bucket = indexOf t.capacity digest
  · subst heq
    simp [head, hang, hlt]
  · simp [head, hang, heq, Ne.symm heq]

namespace Hangs

theorem isNone_head_iff (h : t.Hangs (before ++ rows :: behind)) :
    (t.head before.length).isNone ↔ rows = [] := by
  rw [(h.isChain before.length rows (by simp)).isNone_iff, List.map_eq_nil_iff]

/-- A node that is stored and not yet in a bucket goes to the front of its bucket. -/
theorem hang (h : t.Hangs (before ++ rows :: behind)) (hnode : t.node? r.slot = some r.node)
    (hbefore : before.length = indexOf t.capacity r.node.digest)
    (hslot : r.slot ∉ (Layout.rows (before ++ rows :: behind)).map Row.slot) :
    (t.hang r.slot r.node.digest).Hangs (before ++ (r :: rows) :: behind) := by
  have hcapacity : t.capacity ≠ 0 := by
    rw [h.capacity_eq]
    simp
  refine ⟨?_, ?_, ?_⟩
  · rw [capacity_hang, h.capacity_eq]
    simp
  · refine Layout.forall_replace h.isChain ?_ ?_
    · intro bucket rs hne hrs hchain
      rw [head_hang hcapacity, if_neg (hbefore ▸ hne)]
      exact hchain.modify (Layout.notMem_cells hslot hrs)
    · rw [head_hang hcapacity, if_pos hbefore]
      have hchain := h.isChain before.length rows (by simp)
      rw [hbefore] at hchain
      refine hchain.setNext_cons ?_ hnode
      rw [Layout.rows_append_cons, List.map_append, List.map_append] at hslot
      intro hmem
      refine hslot (List.mem_append_right _ (List.mem_append_left _ ?_))
      simpa [Row.cell, Function.comp_def] using hmem
  · have hnone := h.isNone_head_iff
    have hoccupied := h.occupied_eq
    simp only [List.countP_append, List.countP_cons] at hoccupied ⊢
    rw [hbefore] at hnone
    simp only [Table.hang, hnone]
    by_cases hrows : rows = []
    · simp [hrows] at hoccupied ⊢
      omega
    · simp [hrows] at hoccupied ⊢
      omega

/-- Another item for the node of a row, in place. -/
theorem modifyItem (h : t.Hangs f.layout) (hnodup : (f.layout.rows.map Row.slot).Nodup)
    {change : Node → Node} {values : Arena Bytes} (hslot : r.slot = f.row.slot)
    (hnode : r.node = change f.row.node) :
    { t with nodes := t.nodes.modifyItem f.row.slot change, values }.Hangs
      { f with row := r }.layout := by
  refine ⟨?_, ?_, ?_⟩
  · have hcapacity := h.capacity_eq
    simpa [Focus.layout, capacity] using hcapacity
  · refine Layout.forall_replace h.isChain ?_ ?_
    · intro bucket rs _ hrs hchain
      exact hchain.modify (Layout.notMem_cells (f.slot_notMem hnodup) hrs)
    · have hcell : r.cell = (f.row.slot, change f.row.node) := by
        rw [Row.cell, hslot, hnode]
      rw [List.map_append, List.map_cons, hcell]
      exact h.isChain_focus.modifyItem
  · have hoccupied := h.occupied_eq
    simpa [Focus.layout] using hoccupied

end Hangs

/-! ## Adding a pair -/

theorem Realizes.addValue (h : t.Realizes f.layout) :
    (t.addValue f.row.slot value).Realizes
      { f with row := f.row.addValue t.values.fresh value }.layout where
  hangs := h.hangs.modifyItem h.stores.nodes_nodup rfl rfl
  stores := by
    have hnode : (t.node? f.row.slot).bind Node.values = f.row.node.values := by
      rw [h.node?_eq f.row_mem, Option.bind_some]
    have hstores : Stores (t.addValue f.row.slot value).nodes (t.addValue f.row.slot value).values
        (f.row.addValue t.values.fresh value :: f.drop.rows) := by
      rw [Table.addValue, hnode]
      exact (h.stores.perm f.rows_layout_perm).addValue value _
    exact hstores.perm (Focus.rows_layout_perm (f := { f with row := _ })).symm

/-- A new key gets a row without values in front of its bucket. -/
theorem Realizes.addNode (h : t.Realizes (before ++ rows :: behind))
    (hbefore : before.length = indexOf t.capacity (digest key)) :
    (t.addNode key).Realizes (before ++ (Row.ofKey t.nodes.fresh key :: rows) :: behind) := by
  have hstores : Stores (t.nodes.insert { item := .ofKey key, next := none }) t.values
      (Row.ofKey t.nodes.fresh key :: Layout.rows (before ++ rows :: behind)) :=
    h.stores.insertNode rfl
  have hhangs : { t with nodes := t.nodes.insert { item := .ofKey key, next := none } }.Hangs
      (before ++ rows :: behind) :=
    { h.hangs with isChain := fun bucket rs hrs => (h.hangs.isChain bucket rs hrs).insert }
  refine ⟨?_, ?_⟩
  · refine hhangs.hang (r := .ofKey t.nodes.fresh key) ?_ hbefore ?_
    · simp [node?, Arena.get?_insert, Row.ofKey]
    · exact (List.nodup_cons.1 hstores.nodes_nodup).1
  · have hperm : (Row.ofKey t.nodes.fresh key :: Layout.rows (before ++ rows :: behind)).Perm
        (Layout.rows (before ++ (Row.ofKey t.nodes.fresh key :: rows) :: behind)) := by
      rw [Layout.rows_append_cons, Layout.rows_append_cons]
      exact List.perm_middle.symm
    apply (hstores.perm hperm).congr_nodes
    intro slot
    rw [Table.addNode, Table.hang, Arena.get?_setNext]
    split <;> simp

/-- Adding a pair changes the row of its key, or puts a new row in front of the
bucket of a key that is not there. -/
theorem Holds.add_cases (h : t.Holds layout) (hcapacity : t.capacity ≠ 0) (key value : Bytes) :
    (∃ f : Focus, f.layout = layout ∧ f.row.key = key ∧
        (t.add key value).Holds { f with row := f.row.addValue t.values.fresh value }.layout) ∨
      (key ∉ layout.contents.keys ∧ ∃ (before behind : Layout) (rows : List Row),
        layout = before ++ rows :: behind ∧ before.length = indexOf t.capacity (digest key) ∧
          (t.add key value).Holds (before ++
            ((Row.ofKey t.nodes.fresh key).addValue t.values.fresh value :: rows) :: behind)) := by
  rcases h.find?_cases key with ⟨f, rfl, hkey, hfind⟩ | ⟨hnotMem, hfind⟩
  · left
    refine ⟨f, rfl, hkey, ?_⟩
    rw [Table.add, hfind]
    exact ⟨h.addValue, h.wellFormed.replace
      (Row.wellFormed_addValue (h.wellFormed.row _ f.row_mem)) rfl⟩
  · right
    rcases h.hangs.exists_bucket hcapacity key with ⟨before, behind, rows, rfl, hbefore⟩
    refine ⟨Layout.mem_keys.not.2 hnotMem, before, behind, rows, rfl, hbefore, ?_⟩
    rw [Table.add, hfind]
    refine ⟨?_, h.wellFormed.push Row.wellFormed_ofKey ?_ hnotMem⟩
    · -- The new row is the first of its bucket.
      exact (h.addNode hbefore).addValue (f := ⟨before, [], _, _, behind⟩)
    · rw [← h.hangs.capacity_eq]
      exact hbefore

end Table

end Multimap.Chained
