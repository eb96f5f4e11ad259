import Multimap.Proofs.Chained.Links

/-!
# Layout — rows in their buckets

A change of a table concerns one bucket, and in it at most one row. `Focus` is a
row of a layout with everything around it; the rows of the layout are then
`left ++ row :: right`, whatever the buckets are.

* what two arenas store does not depend on the order of the rows (`Stores.perm`);
* the layout that a table realizes is the one that it shows (`Realizes.layout_eq`);
* `find?` gives the focus of a key, or else the key is nowhere (`Holds.find?_cases`).
-/

namespace Multimap.Chained

open Multimap.Traversal

/-! ## One row and its surroundings -/

/-- A row of a layout and what is around it: the buckets before its own, the rows
before and behind it in its bucket, and the buckets behind. -/
structure Focus where
  before : Layout
  front : List Row
  row : Row
  back : List Row
  behind : Layout

namespace Focus

variable {f : Focus}

/-- The layout in which the row is. -/
def layout (f : Focus) : Layout :=
  f.before ++ (f.front ++ f.row :: f.back) :: f.behind

/-- The layout without the row. -/
def drop (f : Focus) : Layout :=
  f.before ++ (f.front ++ f.back) :: f.behind

/-- Where the row is. -/
def place (f : Focus) : Place :=
  { bucket := f.before.length, previous := f.front.getLast?.map Row.slot, slot := f.row.slot }

/-- The rows before the row. -/
def left (f : Focus) : List Row :=
  f.before.rows ++ f.front

/-- The rows behind the row. -/
def right (f : Focus) : List Row :=
  f.back ++ f.behind.rows

theorem rows_layout : f.layout.rows = f.left ++ f.row :: f.right := by
  simp [layout, Layout.rows, left, right]

theorem rows_drop : f.drop.rows = f.left ++ f.right := by
  simp [drop, Layout.rows, left, right]

theorem rows_layout_perm : f.layout.rows.Perm (f.row :: f.drop.rows) := by
  rw [rows_layout, rows_drop]
  exact List.perm_middle

theorem row_mem : f.row ∈ f.layout.rows := by
  simp [rows_layout]

theorem slot_notMem (h : (f.layout.rows.map Row.slot).Nodup) :
    f.row.slot ∉ f.drop.rows.map Row.slot := by
  rw [(f.rows_layout_perm.map Row.slot).nodup_iff, List.map_cons, List.nodup_cons] at h
  exact h.1

theorem length_drop : f.drop.length = f.layout.length := by
  simp [drop, layout]

theorem getElem?_layout : f.layout[f.before.length]? = some (f.front ++ f.row :: f.back) := by
  simp [layout]

end Focus

namespace Layout

variable {layout before behind : Layout} {rows : List Row} {r : Row}

theorem rows_append_cons : Layout.rows (before ++ rows :: behind) =
    before.rows ++ (rows ++ behind.rows) := by
  simp [Layout.rows]

/-- A slot that no row has is not on the chain of another bucket. -/
theorem notMem_cells {slot : Slot} {rs : List Row}
    (hslot : slot ∉ (Layout.rows (before ++ rows :: behind)).map Row.slot)
    (hrs : rs ∈ before ++ behind) : slot ∉ (rs.map Row.cell).map Prod.fst := by
  intro hmem
  have hmem' : slot ∈ rs.map Row.slot := by
    simpa [Row.cell, Function.comp_def] using hmem
  rcases List.mem_map.1 hmem' with ⟨r, hr, rfl⟩
  refine hslot (List.mem_map_of_mem ?_)
  rw [rows_append_cons]
  rcases List.mem_append.1 hrs with hrs | hrs
  · exact List.mem_append_left _ (List.mem_flatten.2 ⟨rs, hrs, hr⟩)
  · exact List.mem_append_right _ (List.mem_append_right _ (List.mem_flatten.2 ⟨rs, hrs, hr⟩))

/-- The slots of a bucket are not in other buckets. -/
theorem slot_notMem_others (h : ((Layout.rows (before ++ rows :: behind)).map Row.slot).Nodup)
    (hr : r ∈ rows) : r.slot ∉ (Layout.rows (before ++ [] :: behind)).map Row.slot := by
  have hperm : (Layout.rows (before ++ rows :: behind)).Perm
      (rows ++ Layout.rows (before ++ [] :: behind)) := by
    rw [rows_append_cons, rows_append_cons, List.nil_append, ← List.append_assoc,
      ← List.append_assoc]
    exact List.perm_append_comm.append_right _
  rw [(hperm.map Row.slot).nodup_iff, List.map_append] at h
  intro hmem
  exact h.disjoint (List.mem_map_of_mem hr) hmem

theorem exists_bucket (h : r ∈ layout.rows) :
    ∃ (bucket : Nat) (rows : List Row), layout[bucket]? = some rows ∧ r ∈ rows := by
  rcases List.mem_flatten.1 h with ⟨rows, hrows, hr⟩
  rcases List.mem_iff_getElem?.1 hrows with ⟨bucket, hbucket⟩
  exact ⟨bucket, rows, hbucket, hr⟩

theorem exists_split {bucket : Nat} (h : layout[bucket]? = some rows) :
    ∃ before behind : Layout, layout = before ++ rows :: behind ∧ before.length = bucket := by
  rcases List.getElem?_eq_some_iff.1 h with ⟨hlt, rfl⟩
  refine ⟨layout.take bucket, layout.drop (bucket + 1), ?_, ?_⟩
  · rw [List.getElem_cons_drop, List.take_append_drop]
  · exact List.length_take_of_le (Nat.le_of_lt hlt)

/-- Another list in one bucket: what holds of the old buckets is carried over, and
the new bucket is looked at on its own. -/
theorem forall_replace {P Q : Nat → List Row → Prop} {new : List Row}
    (h : ∀ bucket rs, (before ++ rows :: behind)[bucket]? = some rs → P bucket rs)
    (hother : ∀ bucket rs, bucket ≠ before.length → rs ∈ before ++ behind → P bucket rs →
      Q bucket rs)
    (hnew : Q before.length new) :
    ∀ bucket rs, (before ++ new :: behind)[bucket]? = some rs → Q bucket rs := by
  intro bucket rs hrs
  by_cases heq : bucket = before.length
  · subst heq
    have hrs' : new = rs := by simpa using hrs
    exact hrs' ▸ hnew
  · have hsame : (before ++ rows :: behind)[bucket]? = some rs := by
      rcases Nat.lt_or_gt_of_ne heq with hlt | hgt
      · rwa [List.getElem?_append_left hlt] at hrs ⊢
      · rcases Nat.exists_eq_add_of_lt hgt with ⟨i, rfl⟩
        simpa [List.getElem?_append_right, Nat.add_assoc] using hrs
    have hmem : rs ∈ before ++ behind := by
      rcases Nat.lt_or_gt_of_ne heq with hlt | hgt
      · rw [List.getElem?_append_left hlt] at hrs
        exact List.mem_append_left _ (List.mem_of_getElem? hrs)
      · rcases Nat.exists_eq_add_of_lt hgt with ⟨i, rfl⟩
        refine List.mem_append_right _ (List.mem_of_getElem? (i := i) ?_)
        simpa [List.getElem?_append_right, Nat.add_assoc] using hrs
    exact hother bucket rs heq hmem (h bucket rs hsame)

end Layout

/-! ## What the arenas store -/

namespace Stores

variable {nodes nodes' : Arena Node} {values : Arena Bytes} {rows rows' : List Row}

theorem perm (h : Stores nodes values rows) (hperm : rows.Perm rows') :
    Stores nodes values rows' where
  node_iff slot := by rw [h.node_iff, (hperm.map Row.slot).mem_iff]
  value_iff slot := by rw [h.value_iff, (hperm.flatMap_right Row.valueSlots).mem_iff]
  nodes_nodup := (hperm.map Row.slot).nodup_iff.1 h.nodes_nodup
  values_nodup := (hperm.flatMap_right Row.valueSlots).nodup_iff.1 h.values_nodup
  isChain r hr := h.isChain r (hperm.mem_iff.2 hr)

theorem congr_nodes (h : Stores nodes values rows)
    (hnodes : ∀ slot, (nodes'.get? slot).isSome ↔ (nodes.get? slot).isSome) :
    Stores nodes' values rows :=
  { h with node_iff := fun slot => (hnodes slot).trans (h.node_iff slot) }

theorem nodes_size (h : Stores nodes values rows) : nodes.size = rows.length := by
  rw [Arena.size_eq_length h.nodes_nodup h.node_iff, List.length_map]

theorem values_size (h : Stores nodes values rows) :
    values.size = (rows.flatMap Row.valueSlots).length :=
  Arena.size_eq_length h.values_nodup h.value_iff

end Stores

/-! ## The layout of a table -/

namespace Table

variable {t : Table} {layout : Layout} {f : Focus} {r : Row} {key value : Bytes}

namespace Hangs

theorem get?_eq (h : t.Hangs layout) (hr : r ∈ layout.rows) :
    ∃ next, t.nodes.get? r.slot = some { item := r.node, next } := by
  rcases Layout.exists_bucket hr with ⟨bucket, rows, hrows, hmem⟩
  rcases List.append_of_mem hmem with ⟨front, back, rfl⟩
  have hchain := h.isChain bucket _ hrows
  rw [List.map_append, List.map_cons] at hchain
  rcases hchain.get?_eq with ⟨next, hget, -⟩
  exact ⟨next, hget⟩

theorem chain_eq (h : t.Hangs layout) {bucket : Nat} {rows : List Row}
    (hrows : layout[bucket]? = some rows) : t.chain bucket = rows.map Row.cell :=
  (h.isChain bucket rows hrows).chain_eq

theorem bucket_lt (h : t.Hangs f.layout) : f.place.bucket < t.capacity := by
  rw [h.capacity_eq]
  simp [Focus.place, Focus.layout]

/-- The chain of the bucket of a row, split at its node. -/
theorem isChain_focus (h : t.Hangs f.layout) :
    t.nodes.IsChain (t.head f.before.length)
      (f.front.map Row.cell ++ f.row.cell :: f.back.map Row.cell) := by
  have hchain := h.isChain _ _ f.getElem?_layout
  rwa [List.map_append, List.map_cons] at hchain

end Hangs

namespace Realizes

theorem node?_eq (h : t.Realizes layout) (hr : r ∈ layout.rows) :
    t.node? r.slot = some r.node := by
  rcases h.hangs.get?_eq hr with ⟨next, hget⟩
  rw [node?, hget, Option.map_some]

theorem valueChain_eq (h : t.Realizes layout) (hr : r ∈ layout.rows) :
    t.valueChain r.slot = r.values := by
  rw [valueChain, h.node?_eq hr]
  exact (h.stores.isChain r hr).chain_eq

theorem row_cell (h : t.Realizes layout) (hr : r ∈ layout.rows) : t.row r.cell = r := by
  have hvalues := (h.stores.isChain r hr).chain_eq
  cases r
  simpa [row, Row.cell] using hvalues

/-- A table realizes no layout but its own. -/
theorem layout_eq (h : t.Realizes layout) : t.layout = layout := by
  apply List.ext_getElem?
  intro bucket
  rw [Table.layout, List.getElem?_map, h.hangs.capacity_eq]
  cases hrows : layout[bucket]? with
  | none =>
      have hle : layout.length ≤ bucket := List.getElem?_eq_none_iff.1 hrows
      simp [hle]
  | some rows =>
      have hlt : bucket < layout.length := (List.getElem?_eq_some_iff.1 hrows).1
      have hself : rows.map (t.row ∘ Row.cell) = rows := by
        refine (List.map_congr_left ?_).trans (List.map_id rows)
        intro r hr
        exact h.row_cell (List.mem_flatten.2 ⟨rows, List.mem_of_getElem? hrows, hr⟩)
      simp [hlt, h.hangs.chain_eq hrows, hself]

theorem contents_eq (h : t.Realizes layout) : t.contents = layout.contents := by
  rw [contents, h.layout_eq]

/-! ## Counts -/

theorem keyCount_eq (h : t.Realizes layout) : t.keyCount = layout.rows.length :=
  h.stores.nodes_size

theorem pairCount_eq (h : t.Realizes layout) : t.pairCount = layout.contents.pairs.length := by
  calc t.pairCount
      = (layout.rows.flatMap Row.valueSlots).length := h.stores.values_size
    _ = layout.contents.pairs.length := by
        simp [Layout.contents, Contents.pairs, List.length_flatMap, Row.valueSlots, Row.binding,
          List.map_map, Function.comp_def]

end Realizes

/-! ## Finding a key -/

theorem indexOf_lt {capacity : Nat} (h : capacity ≠ 0) (digest : UInt64) :
    indexOf capacity digest < capacity := by
  have hle : digest.toNat &&& (capacity - 1) ≤ capacity - 1 := Nat.and_le_right
  rw [indexOf]
  omega

/-- Rows that are listed as cells, split at one of the cells. -/
theorem map_cell_eq_append {rows : List Row} {l₁ l₂ : List (Slot × Node)} {slot : Slot}
    {node : Node} (h : rows.map Row.cell = l₁ ++ (slot, node) :: l₂) :
    ∃ front r back, rows = front ++ r :: back ∧ front.map Row.cell = l₁ ∧
      r.slot = slot ∧ r.node = node := by
  rcases List.map_eq_append_iff.1 h with ⟨front, rest, rfl, hfront, hrest⟩
  rcases List.map_eq_cons_iff.1 hrest with ⟨r, back, rfl, hr, -⟩
  simp only [Row.cell, Prod.mk.injEq] at hr
  exact ⟨front, r, back, rfl, hfront, hr.1, hr.2⟩

/-- A table with buckets has one for every key. -/
theorem Hangs.exists_bucket (h : t.Hangs layout) (hcapacity : t.capacity ≠ 0) (key : Bytes) :
    ∃ (before behind : Layout) (rows : List Row),
      layout = before ++ rows :: behind ∧ before.length = indexOf t.capacity (digest key) := by
  have hlt : indexOf t.capacity (digest key) < layout.length :=
    h.capacity_eq ▸ indexOf_lt hcapacity (digest key)
  obtain ⟨before, behind, hlayout, hbefore⟩ :=
    Layout.exists_split (List.getElem?_eq_getElem hlt)
  exact ⟨before, behind, _, hlayout, hbefore⟩

theorem getLast?_map_cell (rows : List Row) :
    (rows.map Row.cell).getLast?.map Prod.fst = rows.getLast?.map Row.slot := by
  rw [List.getLast?_map, Option.map_map]
  rfl

/-- In the bucket where a key belongs it is found, or else no row there has it. -/
theorem Hangs.find?_cases {before behind : Layout} {rows : List Row}
    (h : t.Hangs (before ++ rows :: behind)) (hcapacity : t.capacity ≠ 0)
    (hbefore : before.length = indexOf t.capacity (digest key)) :
    (∃ front r back, rows = front ++ r :: back ∧ r.key = key ∧
        t.find? key = some
          { bucket := before.length, previous := front.getLast?.map Row.slot, slot := r.slot }) ∨
      ((∀ r ∈ rows, r.key ≠ key) ∧ t.find? key = none) := by
  have hchain : t.chain before.length = rows.map Row.cell := h.chain_eq (by simp)
  have hfind : t.find? key =
      (seek? (·.key == key) none (rows.map Row.cell)).map fun found =>
        { bucket := before.length, previous := found.1, slot := found.2 } := by
    rw [find?, if_neg hcapacity, ← hbefore, ← hchain]
  rw [hfind]
  cases hseek : seek? (fun n : Node => n.key == key) none (rows.map Row.cell) with
  | none =>
      right
      refine ⟨?_, rfl⟩
      intro r hr
      have hne := seek?_eq_none_iff.1 hseek r.cell (List.mem_map_of_mem hr)
      simpa [Row.cell, Row.key] using hne
  | some found =>
      left
      rcases found with ⟨previous, slot⟩
      rcases seek?_eq_some hseek with ⟨l₁, node, l₂, hl, hkey, -, hprevious⟩
      rcases map_cell_eq_append hl with ⟨front, r, back, rfl, rfl, rfl, rfl⟩
      have hplace : previous = front.getLast?.map Row.slot := by
        rw [hprevious, getLast?_map_cell, Option.or_none]
      exact ⟨front, r, back, rfl, by simpa [Row.key] using hkey, by simp [hplace]⟩

/-- A row is in the bucket where its key belongs. -/
theorem Holds.mem_bucket (h : t.Holds layout) {before behind : Layout} {rows : List Row}
    (hlayout : layout = before ++ rows :: behind)
    (hbefore : before.length = indexOf t.capacity (digest r.key)) (hr : r ∈ layout.rows) :
    r ∈ rows := by
  rcases Layout.exists_bucket hr with ⟨bucket, rows', hrows', hmem⟩
  have hindex := h.wellFormed.indexOf_eq bucket rows' hrows' r hmem
  rw [(h.wellFormed.row r hr).digest_eq, ← h.hangs.capacity_eq, ← hbefore] at hindex
  have hrows : rows = rows' := by simpa [← hindex, hlayout] using hrows'
  exact hrows ▸ hmem

/-- A key is found where its row is, or else no row has it. -/
theorem Holds.find?_cases (h : t.Holds layout) (key : Bytes) :
    (∃ f : Focus, f.layout = layout ∧ f.row.key = key ∧ t.find? key = some f.place) ∨
      (key ∉ layout.rows.map Row.key ∧ t.find? key = none) := by
  by_cases hcapacity : t.capacity = 0
  · right
    have hlayout : layout = [] := List.length_eq_zero_iff.1 (h.hangs.capacity_eq ▸ hcapacity)
    simp [find?, hcapacity, hlayout, Layout.rows]
  · rcases h.hangs.exists_bucket hcapacity key with ⟨before, behind, rows, hlayout, hbefore⟩
    rcases (hlayout ▸ h.hangs).find?_cases hcapacity hbefore with
      ⟨front, r, back, hrows, hkey, hfind⟩ | ⟨hne, hfind⟩
    · rw [hrows] at hlayout
      exact .inl ⟨⟨before, front, r, back, behind⟩, hlayout.symm, hkey, hfind⟩
    · right
      refine ⟨?_, hfind⟩
      intro hmem
      rcases List.mem_map.1 hmem with ⟨r, hr, rfl⟩
      exact hne r (h.mem_bucket hlayout hbefore hr) rfl

/-! ## Reading a key -/

namespace Holds

theorem keys_nodup (h : t.Holds layout) : layout.contents.keys.Nodup := by
  simpa [Layout.contents, Contents.keys, List.map_map, Function.comp_def, Row.binding]
    using h.wellFormed.keys_nodup

theorem values_ne_nil (h : t.Holds layout) : ∀ b ∈ layout.contents, b.2 ≠ [] := by
  intro b hb
  rcases List.mem_map.1 hb with ⟨r, hr, rfl⟩
  simpa [Row.binding] using (h.wellFormed.row r hr).values_ne_nil

end Holds

end Table

namespace Layout

variable {layout : Layout} {f : Focus} {key : Bytes}

theorem mem_keys : key ∈ layout.contents.keys ↔ key ∈ layout.rows.map Row.key := by
  simp [contents, Contents.keys, Row.binding]

theorem contents_layout :
    f.layout.contents = f.left.map Row.binding ++ f.row.binding :: f.right.map Row.binding := by
  simp [contents, Focus.rows_layout]

theorem contents_drop :
    f.drop.contents = f.left.map Row.binding ++ f.right.map Row.binding := by
  simp [contents, Focus.rows_drop]

end Layout

end Multimap.Chained
