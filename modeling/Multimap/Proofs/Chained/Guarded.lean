import Multimap.Chained.Guarded
import Multimap.Proofs.Chained.Reachable

/-!
# Guards — operations that none of them stops

On a well-formed table every operation passes all its guards and does what the operation without
guards does. The states between two steps of an operation are not well formed, so each step has
its own reason.

* A walk passes its guards on a chain that ends, and on no other one (`seek_eq`,
  `seek_eq_none_iff`). The cell before one on a chain is still there when that one is gone
  (`detach_eq`).
* While nodes are hung, the chains that are still to be walked end as before
  (`foldlM_hangChain`), and the doublings that are allowed are enough (`doubleWhileCrowded_eq`).
* A row is found in a bucket that is counted as occupied, and has a value that is counted
  (`occupied_ne_zero`, `removeValue_eq`).
* `find?_eq`, `contains_eq`, `putIn_eq`, `erase_eq` and `erasePair_eq` put this together.
-/

namespace Multimap.Chained.Guarded

open Multimap.Traversal

variable {α β : Type}

@[simp] theorem ok_bind (a : α) (f : α → Except Fault β) : (Except.ok a >>= f) = f a := rfl

/-! ## Arenas -/

section Arena

variable {a : Arena α} {slot : Slot} {cell : Cell α} {item : α} {head : Option Slot}
  {l l₁ l₂ : List (Slot × α)} {limit : Nat}

theorem follow_eq (h : a.get? slot = some cell) : follow a slot = .ok cell := by
  rw [follow, h]

theorem alter_eq (h : (a.get? slot).isSome) (change : Cell α → Cell α) :
    alter a slot change = .ok (a.modify slot change) := by
  obtain ⟨cell, hcell⟩ := Option.isSome_iff_exists.1 h
  rw [alter, follow_eq hcell]
  rfl

/-- The cell before one on a chain is another one, and is there when that one is gone. -/
theorem detach_eq (h : a.IsChain head (l₁ ++ (slot, item) :: l₂)) :
    detach a (l₁.getLast?.map Prod.fst) slot =
      .ok (a.detach (l₁.getLast?.map Prod.fst) slot) := by
  obtain ⟨next, hget, -⟩ := h.get?_eq
  rcases List.eq_nil_or_concat l₁ with rfl | ⟨l₀, ⟨previous, item'⟩, rfl⟩
  · rw [detach, follow_eq hget]
    rfl
  · have hne : previous ≠ slot := by
      have hnodup := h.nodup
      rintro rfl
      simp [List.nodup_append] at hnodup
    have hlive : ((a.remove slot).get? previous).isSome := by
      rw [Arena.get?_remove, if_neg hne]
      exact h.isSome_get? previous (by simp)
    rw [detach, follow_eq hget, ok_bind]
    simp [alter_eq hlive, Arena.detach, hget, Arena.setNext]

theorem seek_eq (h : a.IsChain head l) (hlimit : l.length ≤ limit) (p : α → Bool)
    (previous : Option Slot) : seek a p limit previous head = .ok (seek? p previous l) := by
  induction h generalizing limit previous with
  | nil => cases limit <;> rfl
  | @cons slot item next rest hget _ ih =>
      cases limit with
      | zero => simp at hlimit
      | succ limit =>
          rw [seek, follow_eq hget, ok_bind, seek?]
          split
          · rfl
          · exact ih (Nat.le_of_succ_le_succ hlimit) _

theorem free_eq_foldl (h : a.IsChain head l) (hlimit : l.length ≤ limit) :
    free limit head a = .ok (l.foldl (fun a cell => a.remove cell.1) a) := by
  induction l generalizing a head limit with
  | nil =>
      cases h
      cases limit <;> rfl
  | cons c rest ih =>
      have hnotMem := h.notMem_rest
      cases limit with
      | zero => simp at hlimit
      | succ limit =>
          cases h with
          | cons hget hrest =>
              rw [free, follow_eq hget, ok_bind, List.foldl_cons]
              exact ih (hrest.remove hnotMem) (Nat.le_of_succ_le_succ hlimit)

theorem free_eq (h : a.IsChain head l) (hlimit : l.length ≤ limit) :
    free limit head a = .ok (a.removeChain head) := by
  rw [free_eq_foldl h hlimit, Arena.removeChain, h.chain_eq]

/-- A walk that goes through its whole chain has met its end. -/
theorem exists_isChain_of_seek {p : α → Bool} {previous : Option Slot}
    (h : seek a p limit previous head = .ok none) :
    ∃ l, a.IsChain head l ∧ ∀ c ∈ l, p c.2 = false := by
  induction limit generalizing previous head with
  | zero =>
      cases head with
      | none => exact ⟨[], .nil, nofun⟩
      | some slot => cases h
  | succ limit ih =>
      cases head with
      | none => exact ⟨[], .nil, nofun⟩
      | some slot =>
          cases hget : a.get? slot with
          | none =>
              rw [seek, follow, hget] at h
              cases h
          | some cell =>
              rw [seek, follow_eq hget, ok_bind] at h
              split at h
              · cases h
              · next hp =>
                  obtain ⟨l, hchain, hl⟩ := ih h
                  exact ⟨(slot, cell.item) :: l, .cons hget hchain,
                    List.forall_mem_cons.2 ⟨by simpa using hp, hl⟩⟩

/-- No guard stops a walk through a whole chain exactly if the chain ends: its links lead to cells
that are there, and never back. -/
theorem seek_eq_none_iff {p : α → Bool} {previous : Option Slot} :
    seek a p a.size previous head = .ok none ↔
      ∃ l, a.IsChain head l ∧ ∀ c ∈ l, p c.2 = false := by
  refine ⟨exists_isChain_of_seek, ?_⟩
  rintro ⟨l, hchain, hl⟩
  rw [seek_eq hchain hchain.length_le_size, seek?_eq_none_iff.2 hl]

/-- A cell that leads to itself. -/
example : seek (Arena.empty.insert { item := 7, next := some 0 }) (· == 8) 1 none (some 0) =
    .error .endless := rfl

end Arena

variable {t : Table} {f : Focus} {layout : Layout} {bucket : Nat} {slot : Slot} {key value : Bytes}

/-! ## Buckets and counts -/

theorem bucketOf_eq (h : t.capacity ≠ 0) (digest : UInt64) :
    bucketOf t digest = .ok (indexOf t.capacity digest) :=
  if_neg h

theorem headAt_eq (h : bucket < t.capacity) : headAt t bucket = .ok (t.head bucket) := by
  have hlt : bucket < t.heads.size := h
  simp [headAt, Table.head, hlt]

theorem setHead_eq (h : bucket < t.capacity) (head : Option Slot) :
    setHead t bucket head = .ok (t.heads.setIfInBounds bucket head) := by
  rw [setHead, headAt_eq h]
  rfl

theorem lower_eq {n : Nat} (h : n ≠ 0) : lower n = .ok (n - 1) := by
  cases n with
  | zero => exact absurd rfl h
  | succ n => rfl

/-! ## Reading -/

theorem find?_eq (h : t.WellFormed) (key : Bytes) : find? t key = .ok (t.find? key) := by
  rw [find?, Table.find?]
  by_cases hcapacity : t.capacity = 0
  · rw [if_pos hcapacity, if_pos hcapacity]
    rfl
  · have hlt : indexOf t.capacity (digest key) < t.heads.size :=
      Table.indexOf_lt hcapacity (digest key)
    have hchain := h.toInvariant.isChain _ hlt
    have hlimit : (t.chain (indexOf t.capacity (digest key))).length ≤ t.keyCount :=
      hchain.length_le_size
    rw [if_neg hcapacity, if_neg hcapacity, bucketOf_eq hcapacity, ok_bind, headAt_eq hlt, ok_bind,
      seek_eq hchain hlimit]
    rfl

theorem findValue?_eq (h : t.Realizes f.layout) (value : Bytes) :
    findValue? t f.row.slot value = .ok (seek? (· == value) none f.row.values) := by
  obtain ⟨next, hget⟩ := h.hangs.get?_eq f.row_mem
  have hchain := h.stores.isChain f.row f.row_mem
  rw [findValue?, follow_eq hget, ok_bind]
  exact seek_eq hchain hchain.length_le_size _ _

theorem isSome_seek? {p : α → Bool} {previous : Option Slot} {l : List (Slot × α)} :
    (seek? p previous l).isSome = l.any (p ·.2) := by
  rw [Bool.eq_iff_iff, List.any_eq_true, Option.isSome_iff_ne_none, ne_eq, seek?_eq_none_iff]
  simp

theorem contains_eq (h : t.WellFormed) (key : Bytes) (value : Option Bytes) :
    contains t key value = .ok (t.contains key value) := by
  rcases h.find?_cases key with ⟨f, hlayout, -, -, hfind⟩ | ⟨-, hfind⟩
  · simp only [contains, Table.contains, find?_eq h, hfind, ok_bind]
    cases value with
    | none => rfl
    | some value =>
        have hholds : t.Holds f.layout := hlayout ▸ h.holds
        have hvalues : t.valueChain f.place.slot = f.row.values := hholds.valueChain_eq f.row_mem
        have hfound : findValue? t f.place.slot value = .ok _ :=
          findValue?_eq hholds.toRealizes value
        simp only [hvalues, hfound, ok_bind, isSome_seek?]
        rfl
  · simp only [contains, Table.contains, find?_eq h, hfind, ok_bind]
    rfl

/-! ## Doubling -/

theorem hang_eq (hcapacity : t.capacity ≠ 0) (hlive : (t.nodes.get? slot).isSome)
    (digest : UInt64) : hang t slot digest = .ok (t.hang slot digest) := by
  have hlt := Table.indexOf_lt hcapacity digest
  rw [hang, bucketOf_eq hcapacity, ok_bind, headAt_eq hlt, ok_bind, alter_eq hlive, ok_bind,
    setHead_eq hlt]
  rfl

theorem hangChain_eq {head : Option Slot} {l : List (Slot × Node)} {limit : Nat}
    (hcapacity : t.capacity ≠ 0) (hchain : t.nodes.IsChain head l) (hlimit : l.length ≤ limit) :
    hangChain limit head t = .ok (t.hangChain limit head) := by
  induction l generalizing t head limit with
  | nil =>
      cases hchain
      cases limit <;> rfl
  | cons c rest ih =>
      have hnotMem := hchain.notMem_rest
      cases limit with
      | zero => simp at hlimit
      | succ limit =>
          cases hchain with
          | @cons slot node next _ hget hrest =>
              have hlive : (t.nodes.get? slot).isSome := by simp [hget]
              rw [hangChain, follow_eq hget, ok_bind, hang_eq hcapacity hlive, ok_bind,
                Table.hangChain, hget]
              refine ih ?_ (hrest.modify hnotMem) (Nat.le_of_succ_le_succ hlimit)
              rwa [Table.capacity_hang]

/-- The chains that are still to be hung are left as they are by those that have been. -/
theorem foldlM_hangChain {heads : List (Option Slot)} {limit : Nat} (hcapacity : t.capacity ≠ 0)
    (hheads : heads.length = layout.length)
    (hchains : ∀ bucket rows, layout[bucket]? = some rows →
      t.nodes.IsChain (heads.getD bucket none) (rows.map Row.cell))
    (hnodup : (layout.rows.map Row.slot).Nodup) (hlimit : layout.rows.length ≤ limit) :
    heads.foldlM (fun grown head => hangChain limit head grown) t =
      .ok (heads.foldl (fun grown head => grown.hangChain limit head) t) := by
  induction layout generalizing t heads with
  | nil =>
      have hnil : heads = [] := List.length_eq_zero_iff.1 hheads
      rw [hnil]
      rfl
  | cons rows layout ih =>
      have hrows : Layout.rows (rows :: layout) = rows ++ Layout.rows layout := List.flatten_cons
      rw [hrows] at hnodup
      rw [hrows, List.length_append] at hlimit
      cases heads with
      | nil => simp at hheads
      | cons head heads =>
          have hchain : t.nodes.IsChain head (rows.map Row.cell) := hchains 0 rows rfl
          have hlength : (rows.map Row.cell).length ≤ limit := by
            rw [List.length_map]
            exact Nat.le_of_add_right_le hlimit
          rw [List.foldlM_cons, List.foldl_cons, hangChain_eq hcapacity hchain hlength, ok_bind]
          refine ih ?_ (by simpa using hheads) ?_ ?_ (Nat.le_of_add_left_le hlimit)
          · rwa [Table.capacity_hangChain]
          · exact Table.isChain_hangChain hchain hnodup fun bucket => hchains (bucket + 1)
          · rw [List.map_append] at hnodup
            exact hnodup.of_append_right

theorem double_eq (h : t.WellFormed) (hcapacity : t.capacity ≠ 0) :
    double t = .ok t.double := by
  rw [double, if_neg hcapacity, Table.double, ← Array.foldlM_toList, ← Array.foldl_toList]
  refine foldlM_hangChain ?_ ?_ ?_ h.holds.stores.nodes_nodup
    (Nat.le_of_eq h.holds.keyCount_eq.symm)
  · simpa [Table.capacity] using hcapacity
  · rw [Array.length_toList]
    exact h.holds.hangs.capacity_eq
  · intro bucket rows hrows
    have hchain := h.holds.hangs.isChain bucket rows hrows
    simpa [Table.head] using hchain

/-- Enough doublings are allowed for the loop to end by itself. -/
theorem doubleWhileCrowded_eq (memory : Memory) {limit : Nat} (h : t.WellFormed)
    (hcapacity : t.capacity ≠ 0) (hlimit : 1000 * t.keyCount < t.capacity * 2 ^ limit) :
    doubleWhileCrowded memory limit t = .ok (t.doubleWhileCrowded memory limit) := by
  induction limit generalizing t with
  | zero =>
      have hcrowded : t.crowded = false := h.not_crowded (by simpa using hlimit)
      rw [doubleWhileCrowded, hcrowded]
      rfl
  | succ limit ih =>
      rw [doubleWhileCrowded, Table.doubleWhileCrowded]
      split
      · dsimp only
        split
        · have hdouble := h.capacity_double hcapacity
          have hkeyCount : t.double.keyCount = t.keyCount := h.keyCount_iterate_double hcapacity 1
          rw [double_eq h hcapacity, ok_bind]
          refine ih (h.double hcapacity) (by omega) ?_
          calc 1000 * t.double.keyCount
              = 1000 * t.keyCount := by rw [hkeyCount]
            _ < t.capacity * 2 ^ (limit + 1) := hlimit
            _ = t.double.capacity * 2 ^ limit := by
                rw [hdouble, Nat.pow_succ, Nat.mul_comm 2, Nat.mul_assoc, Nat.mul_comm 2]
        · rfl
      · rfl

/-! ## Adding -/

theorem makeRoom_eq (memory : Memory) (h : t.WellFormed) :
    makeRoom memory t = .ok (t.makeRoom memory) := by
  rw [makeRoom]
  split
  · rfl
  · next hcapacity =>
      have hlimit := Table.lt_capacity_mul_doublingLimit hcapacity
      rw [doubleWhileCrowded_eq memory h hcapacity hlimit, Table.makeRoom, if_neg hcapacity]

theorem addNode_eq (hcapacity : t.capacity ≠ 0) (key : Bytes) :
    addNode t key = .ok (t.addNode key) := by
  let nodes := t.nodes.insert { item := .ofKey key, next := none }
  have hlive : (nodes.get? t.nodes.fresh).isSome := by
    rw [Arena.get?_insert, if_pos rfl]
    rfl
  exact hang_eq (t := { t with nodes }) hcapacity hlive (digest key)

theorem addValue_eq {node : Node} (hnode : t.node? slot = some node) (value : Bytes) :
    addValue t slot value = .ok (t.addValue slot value) := by
  obtain ⟨cell, hget, rfl⟩ := Option.map_eq_some_iff.1 hnode
  have hlive : (t.nodes.get? slot).isSome := by simp [hget]
  rw [addValue, follow_eq hget, ok_bind, alter_eq hlive, Table.addValue, hnode]
  rfl

theorem node?_addNode (key : Bytes) : (t.addNode key).node? t.nodes.fresh = some (.ofKey key) := by
  rw [Table.addNode, Table.sameItems_hang.node?_eq, Table.node?, Arena.get?_insert, if_pos rfl]
  rfl

/-- The copies that memory is asked for come before every change. -/
theorem add_eq (memory : Memory) (h : t.WellFormed) (hcapacity : t.capacity ≠ 0)
    (key value : Bytes) :
    add memory t key value = .ok (match memory.refusal? (t.copies key value) with
      | some error => (.error error, t)
      | none => (.ok (), t.add key value)) := by
  rw [add, Table.copies, Table.add, find?_eq h, ok_bind]
  rcases h.find?_cases key with ⟨f, hlayout, -, -, hfind⟩ | ⟨-, hfind⟩
  · have hholds : t.Holds f.layout := hlayout ▸ h.holds
    have hadd : addValue t f.place.slot value = .ok _ :=
      addValue_eq (hholds.node?_eq f.row_mem) value
    rw [hfind]
    simp only [hadd, ok_bind]
    cases memory.refusal? [.value value.length] with
    | some error => rfl
    | none => rfl
  · have hcopies := memory.refusal?_append [.value value.length] [.key key.length]
    rw [List.singleton_append] at hcopies
    rw [hfind]
    simp only [hcopies, addNode_eq hcapacity, addValue_eq (node?_addNode key), ok_bind]
    cases memory.refusal? [.value value.length] with
    | some error => rfl
    | none =>
        cases memory.refusal? [.key key.length] with
        | some error => rfl
        | none => rfl

theorem putIn_eq (memory : Memory) (h : t.WellFormed) (key value : Bytes) :
    putIn memory t key value = .ok (t.putIn memory key value) := by
  have hroom := h.makeRoom memory
  have hok := h.makeRoom_ok memory
  rw [putIn, makeRoom_eq memory h, ok_bind, Table.putIn]
  rcases hmake : t.makeRoom memory with ⟨answer, room⟩
  rw [hmake] at hroom hok
  cases answer with
  | error error => rfl
  | ok _ => exact add_eq memory hroom.1 (hok rfl).1 key value

/-! ## Removing -/

/-- The bucket of a row is occupied, so one bucket less can be counted. -/
theorem occupied_ne_zero (h : t.Hangs f.layout) : t.occupied ≠ 0 := by
  have hmem : f.front ++ f.row :: f.back ∈ f.layout := List.mem_of_getElem? f.getElem?_layout
  rw [h.occupied_eq, Nat.ne_zero_iff_zero_lt, List.countP_pos_iff]
  exact ⟨_, hmem, by simp⟩

theorem headsWithout_eq {place : Place} (h : place.bucket < t.capacity) (next : Option Slot) :
    headsWithout t place next = .ok
      (if place.previous.isNone then t.heads.setIfInBounds place.bucket next else t.heads) := by
  rw [headsWithout, setHead_eq h]
  split <;> rfl

theorem occupiedWithout_eq (h : bucket < t.capacity) (hoccupied : t.occupied ≠ 0) :
    occupiedWithout t bucket =
      .ok (if (t.head bucket).isNone then t.occupied - 1 else t.occupied) := by
  rw [occupiedWithout, headAt_eq h, ok_bind, lower_eq hoccupied]
  split <;> rfl

theorem unlink_eq (h : t.Realizes f.layout) : unlink t f.place = .ok (t.unlink f.place) := by
  obtain ⟨next, hget⟩ := h.hangs.get?_eq f.row_mem
  have hlt : f.place.bucket < t.capacity := h.hangs.bucket_lt
  have hdetach : detach t.nodes f.place.previous f.place.slot =
      .ok (t.nodes.detach f.place.previous f.place.slot) := by
    have hcells := detach_eq h.hangs.isChain_focus
    rwa [Table.getLast?_map_cell] at hcells
  have hvalues := h.stores.isChain f.row f.row_mem
  have hfree : free t.pairCount f.row.node.values t.values =
      .ok (t.values.removeChain f.row.node.values) := free_eq hvalues hvalues.length_le_size
  have hget' : t.nodes.get? f.place.slot = some { item := f.row.node, next } := hget
  -- The buckets are as many as before, with or without another head.
  have hoccupied : ∀ heads : Array (Option Slot), f.place.bucket < heads.size →
      occupiedWithout { t with heads } f.place.bucket = .ok
        (if (heads.getD f.place.bucket none).isNone then t.occupied - 1 else t.occupied) := by
    have hpos : t.occupied ≠ 0 := occupied_ne_zero h.hangs
    intro heads hsize
    exact occupiedWithout_eq hsize hpos
  rw [unlink, Table.unlink, hget']
  simp only [hdetach, headsWithout_eq hlt, hfree, ok_bind]
  rw [hoccupied]
  · rfl
  · split
    · rwa [Array.size_setIfInBounds]
    · exact hlt

theorem erase_eq (h : t.WellFormed) (key : Bytes) : erase t key = .ok (t.erase key) := by
  rw [erase, Table.erase, find?_eq h, ok_bind]
  rcases h.find?_cases key with ⟨f, hlayout, -, -, hfind⟩ | ⟨-, hfind⟩
  · have hholds : t.Holds f.layout := hlayout ▸ h.holds
    rw [hfind]
    simp only [unlink_eq hholds.toRealizes, ok_bind]
    rfl
  · rw [hfind]
    rfl

/-- A table that has lost count of its buckets. -/
example : erase { (Table.standard.putIn .addressable [97] [1]).2 with occupied := 0 } [97] =
    .error .belowZero := rfl

theorem removeValue_eq (h : t.Holds f.layout) {front back : List (Slot × Bytes)}
    (hvalues : f.row.values = front ++ (slot, value) :: back) :
    removeValue t f.row.slot (front.getLast?.map Prod.fst) slot =
      .ok (t.removeValue f.row.slot (front.getLast?.map Prod.fst) slot) := by
  have hchain := h.stores.isChain f.row f.row_mem
  rw [hvalues] at hchain
  obtain ⟨next, hvalue, -⟩ := hchain.get?_eq
  obtain ⟨_, hnode⟩ := h.hangs.get?_eq f.row_mem
  have hlive : (t.nodes.get? f.row.slot).isSome := by simp [hnode]
  have hcount : f.row.node.valueCount ≠ 0 := by
    rw [(h.wellFormed.row f.row f.row_mem).valueCount_eq, hvalues]
    simp
  rw [removeValue, follow_eq hvalue, ok_bind, detach_eq hchain, ok_bind, follow_eq hnode, ok_bind,
    lower_eq hcount, ok_bind, alter_eq hlive, Table.removeValue, hvalue]
  rfl

theorem unlinkEmpty_eq (h : t.Realizes f.layout) :
    unlinkEmpty t f.place = .ok
      (if (t.node? f.place.slot).any (·.valueCount == 0) then t.unlink f.place else t) := by
  obtain ⟨next, hget⟩ := h.hangs.get?_eq f.row_mem
  have hnode : t.node? f.place.slot = some f.row.node := h.node?_eq f.row_mem
  have hfollow : follow t.nodes f.place.slot = .ok { item := f.row.node, next } := follow_eq hget
  rw [unlinkEmpty, hfollow, ok_bind, unlink_eq h, hnode, Option.any_some]
  simp only [beq_iff_eq]
  split <;> rfl

theorem erasePair_eq (h : t.WellFormed) (key value : Bytes) :
    erasePair t key value = .ok (t.erasePair key value) := by
  rw [erasePair, Table.erasePair, find?_eq h, ok_bind]
  rcases h.find?_cases key with ⟨f, hlayout, -, -, hfind⟩ | ⟨-, hfind⟩
  · have hholds : t.Holds f.layout := hlayout ▸ h.holds
    have hvalueChain : t.valueChain f.place.slot = f.row.values := hholds.valueChain_eq f.row_mem
    have hseek : findValue? t f.place.slot value = .ok _ := findValue?_eq hholds.toRealizes value
    rw [hfind]
    simp only [hvalueChain, hseek, ok_bind]
    cases hfound : seek? (· == value) none f.row.values with
    | none => rfl
    | some found =>
        obtain ⟨previous, slot⟩ := found
        obtain ⟨front, item, back, hvalues, hitem, -, hprevious⟩ := seek?_eq_some hfound
        obtain rfl : item = value := by simpa using hitem
        obtain rfl : previous = front.getLast?.map Prod.fst := by rw [hprevious, Option.or_none]
        have hremove : removeValue t f.place.slot (front.getLast?.map Prod.fst) slot = .ok _ :=
          removeValue_eq hholds hvalues
        -- The node is at the same place as before, with one value less.
        have hunlink : unlinkEmpty (t.removeValue f.row.slot (front.getLast?.map Prod.fst) slot)
            f.place = .ok _ :=
          unlinkEmpty_eq (f := { f with row := f.row.keepValues (front ++ back) })
            (hholds.removeValue hvalues)
        simp only [hremove, hunlink, ok_bind]
        rfl
  · rw [hfind]
    rfl

end Multimap.Chained.Guarded
