import Mathlib.Data.List.Nodup
import Mathlib.Data.List.Perm.Subperm
import Multimap.Chained.Contents

/-!
# Links — chains of cells in an arena

What `insert`, `modify` and `remove` do to the cells of an arena, and what that
means for its chains. Only the laws of the cells and of their number look into the
tree that an arena is; the others follow from them, and so would hold of any container
with these laws.

* a chain that ends has no slot twice, and `chain` finds it (`IsChain.nodup`,
  `IsChain.chain_eq`);
* a chain survives every change of cells that are not on it (`IsChain.congr`);
* `detach` closes the gap that the removed cell leaves (`IsChain.detach`);
* `seek?` gives the cell before the one it finds (`seek?_eq_some`).
-/

namespace Multimap.Chained

variable {α : Type}

namespace Arena

variable {a b : Arena α} {slot other : Slot} {cell : Cell α} {change : Cell α → Cell α}
  {f : α → α} {item : α} {head next : Option Slot} {l l₁ l₂ : List (Slot × α)}

/-! ## Cells -/

theorem get?_empty : (empty : Arena α).get? slot = none :=
  Std.TreeMap.getElem?_emptyc

theorem get?_insert :
    (a.insert cell).get? slot = if slot = a.fresh then some cell else a.get? slot := by
  have heq : compare a.fresh slot = .eq ↔ slot = a.fresh := by
    rw [Nat.compare_eq_eq, eq_comm]
  simp only [get?, insert, Std.TreeMap.getElem?_insert, heq]

theorem get?_modify :
    (a.modify other change).get? slot =
      if slot = other then (a.get? slot).map change else a.get? slot := by
  have heq : compare other slot = .eq ↔ slot = other := by
    rw [Nat.compare_eq_eq, eq_comm]
  simp only [get?, modify, Std.TreeMap.getElem?_modify, heq]
  by_cases h : slot = other
  · simp [h]
  · simp [h]

theorem get?_remove :
    (a.remove other).get? slot = if slot = other then none else a.get? slot := by
  have heq : compare other slot = .eq ↔ slot = other := by
    rw [Nat.compare_eq_eq, eq_comm]
  simp only [get?, remove, Std.TreeMap.getElem?_erase, heq]

theorem get?_modifyItem :
    (a.modifyItem other f).get? slot =
      if slot = other then (a.get? slot).map fun cell => { cell with item := f cell.item }
      else a.get? slot :=
  get?_modify

theorem get?_setNext :
    (a.setNext other next).get? slot =
      if slot = other then (a.get? slot).map fun cell => { cell with next } else a.get? slot :=
  get?_modify

theorem isSome_get?_iff_mem : (a.get? slot).isSome ↔ slot ∈ a.cells := by
  rw [get?, Std.TreeMap.isSome_getElem?_iff_mem]

theorem get?_fresh : a.get? a.fresh = none := by
  by_contra h
  have hmem : a.fresh ∈ a.cells := isSome_get?_iff_mem.1 (Option.isSome_iff_ne_none.2 h)
  exact Nat.lt_irrefl _ (a.lt_fresh _ hmem)

theorem ne_fresh (h : (a.get? slot).isSome) : slot ≠ a.fresh := by
  rintro rfl
  simp [get?_fresh] at h

/-! ## The number of cells -/

theorem size_eq_length {slots : List Slot} (hnodup : slots.Nodup)
    (hiff : ∀ slot, (a.get? slot).isSome ↔ slot ∈ slots) : a.size = slots.length := by
  have hperm : a.cells.keys.Perm slots := by
    rw [List.perm_ext_iff_of_nodup Std.TreeMap.nodup_keys hnodup]
    intro slot
    rw [Std.TreeMap.mem_keys, ← isSome_get?_iff_mem, hiff]
  calc a.size
      = a.cells.keys.length := Std.TreeMap.length_keys.symm
    _ = slots.length := hperm.length_eq

theorem length_le_size {slots : List Slot} (hnodup : slots.Nodup)
    (hlive : ∀ slot ∈ slots, (a.get? slot).isSome) : slots.length ≤ a.size := by
  have hsub : slots ⊆ a.cells.keys := by
    intro slot hslot
    exact Std.TreeMap.mem_keys.2 (isSome_get?_iff_mem.1 (hlive slot hslot))
  calc slots.length
      ≤ a.cells.keys.length := (hnodup.subperm hsub).length_le
    _ = a.size := Std.TreeMap.length_keys

/-! ## Chains that end -/

namespace IsChain

theorem isSome_get? (h : a.IsChain head l) : ∀ s ∈ l.map Prod.fst, (a.get? s).isSome := by
  induction h with
  | nil => simp
  | cons hget _ ih =>
      intro s hs
      rcases List.mem_cons.1 hs with rfl | hs
      · simp [hget]
      · exact ih s hs

theorem head_eq (h : a.IsChain head l) : head = (l.map Prod.fst).head? := by
  cases h with
  | nil => rfl
  | cons => rfl

theorem isNone_iff (h : a.IsChain head l) : head.isNone ↔ l = [] := by
  cases h with
  | nil => simp
  | cons => simp

theorem get?_eq (h : a.IsChain head (l₁ ++ (slot, item) :: l₂)) :
    ∃ next, a.get? slot = some { item, next } ∧ a.IsChain next l₂ := by
  induction l₁ generalizing head with
  | nil =>
      cases h with
      | cons hget hrest => exact ⟨_, hget, hrest⟩
  | cons c rest ih =>
      cases h with
      | cons _ hrest => exact ih hrest

/-- The links determine the chain. -/
theorem unique (h₁ : a.IsChain head l₁) (h₂ : a.IsChain head l₂) : l₁ = l₂ := by
  induction h₁ generalizing l₂ with
  | nil =>
      cases h₂ with
      | nil => rfl
  | cons hget _ ih =>
      cases h₂ with
      | cons hget' hrest' =>
          rw [hget] at hget'
          cases hget'
          rw [ih hrest']

/-- A chain that ends does not come back to a slot. -/
theorem nodup (h : a.IsChain head l) : (l.map Prod.fst).Nodup := by
  induction h with
  | nil => simp
  | @cons slot item next rest hget hrest ih =>
      have hnotMem : slot ∉ rest.map Prod.fst := by
        intro hmem
        rcases List.mem_map.1 hmem with ⟨⟨s, x⟩, hc, rfl⟩
        rcases List.append_of_mem hc with ⟨l₁, l₂, rfl⟩
        rcases hrest.get?_eq with ⟨next', hget', hrest'⟩
        -- Both occurrences lead to the same rest, which is shorter behind the second.
        rw [hget] at hget'
        cases hget'
        have hlength := congrArg List.length (hrest.unique hrest')
        simp only [List.length_append, List.length_cons] at hlength
        omega
      simpa using ⟨by simpa using hnotMem, ih⟩

theorem notMem_rest {c : Slot × α} (h : a.IsChain head (c :: l)) : c.1 ∉ l.map Prod.fst :=
  (List.nodup_cons.1 h.nodup).1

theorem length_le_size (h : a.IsChain head l) : l.length ≤ a.size := by
  have hle := Arena.length_le_size h.nodup h.isSome_get?
  rwa [List.length_map] at hle

theorem chainUpTo_eq (h : a.IsChain head l) {limit : Nat} (hlimit : l.length ≤ limit) :
    a.chainUpTo limit head = l := by
  induction h generalizing limit with
  | nil => cases limit <;> rfl
  | cons hget _ ih =>
      cases limit with
      | zero => simp at hlimit
      | succ limit =>
          have hrest := ih (Nat.le_of_succ_le_succ hlimit)
          simp [chainUpTo, hget, hrest]

theorem chain_eq (h : a.IsChain head l) : a.chain head = l :=
  h.chainUpTo_eq h.length_le_size

/-! ## Changes beside a chain -/

theorem congr (h : a.IsChain head l) (hget : ∀ s ∈ l.map Prod.fst, b.get? s = a.get? s) :
    b.IsChain head l := by
  induction h with
  | nil => exact .nil
  | cons hslot _ ih =>
      refine .cons ?_ (ih ?_)
      · rw [hget _ (by simp), hslot]
      · intro s hs
        exact hget s (List.mem_cons_of_mem _ hs)

theorem insert (h : a.IsChain head l) : (a.insert cell).IsChain head l := by
  apply h.congr
  intro s hs
  rw [get?_insert, if_neg (ne_fresh (h.isSome_get? s hs))]

theorem modify (h : a.IsChain head l) (hslot : slot ∉ l.map Prod.fst) :
    (a.modify slot change).IsChain head l := by
  apply h.congr
  intro s hs
  rw [get?_modify, if_neg (ne_of_mem_of_not_mem hs hslot)]

theorem remove (h : a.IsChain head l) (hslot : slot ∉ l.map Prod.fst) :
    (a.remove slot).IsChain head l := by
  apply h.congr
  intro s hs
  rw [get?_remove, if_neg (ne_of_mem_of_not_mem hs hslot)]

/-! ## Changes of a chain -/

/-- A new cell in front of a chain. -/
theorem insert_cons (h : a.IsChain head l) :
    (a.insert { item, next := head }).IsChain (some a.fresh) ((a.fresh, item) :: l) := by
  refine .cons ?_ h.insert
  rw [get?_insert, if_pos rfl]

/-- A cell that is put in front of a chain to which it did not belong. -/
theorem setNext_cons (h : a.IsChain head l) (hslot : slot ∉ l.map Prod.fst)
    (hget : (a.get? slot).map Cell.item = some item) :
    (a.setNext slot head).IsChain (some slot) ((slot, item) :: l) := by
  rcases Option.map_eq_some_iff.1 hget with ⟨cell, hcell, rfl⟩
  refine .cons ?_ (h.modify hslot)
  rw [get?_setNext, if_pos rfl, hcell, Option.map_some]

theorem modifyItem (h : a.IsChain head (l₁ ++ (slot, item) :: l₂)) :
    (a.modifyItem slot f).IsChain head (l₁ ++ (slot, f item) :: l₂) := by
  induction l₁ generalizing head with
  | nil =>
      have hnodup := h.nodup
      cases h with
      | cons hget hrest =>
          refine .cons ?_ (hrest.modify ?_)
          · rw [get?_modifyItem, if_pos rfl, hget, Option.map_some]
          · simpa using (List.nodup_cons.1 hnodup).1
  | cons c rest ih =>
      have hnodup := h.nodup
      cases h with
      | @cons s x next _ hget hrest =>
          have hne : s ≠ slot := by
            rintro rfl
            simp at hnodup
          refine .cons ?_ (ih hrest)
          rw [get?_modifyItem, if_neg hne, hget]

/-- The cell that is behind the removed one is now behind the one before it. -/
theorem setNext_remove {previous : Slot} {item' : α}
    (h : a.IsChain head (l₁ ++ (previous, item') :: (slot, item) :: l₂))
    (hget : a.get? slot = some { item, next }) :
    ((a.remove slot).setNext previous next).IsChain head (l₁ ++ (previous, item') :: l₂) := by
  induction l₁ generalizing head with
  | nil =>
      have hnodup := h.nodup
      simp only [List.nil_append, List.map_cons, List.nodup_cons, List.mem_cons, not_or] at hnodup
      rcases hnodup with ⟨⟨hne, hprevious⟩, hslot, -⟩
      cases h with
      | cons hget' hrest =>
          cases hrest with
          | cons hget'' hrest' =>
              rw [hget] at hget''
              cases hget''
              refine .cons ?_ ((hrest'.remove hslot).modify hprevious)
              rw [get?_setNext, if_pos rfl, get?_remove, if_neg hne, hget', Option.map_some]
  | cons c rest ih =>
      have hnodup := h.nodup
      cases h with
      | @cons s x _ _ hget' hrest =>
          simp only [List.cons_append, List.map_cons, List.map_append, List.nodup_cons,
            List.mem_append, List.mem_cons, not_or] at hnodup
          rcases hnodup with ⟨⟨-, hprevious, hslot, -⟩, -⟩
          refine .cons ?_ (ih hrest)
          rw [get?_setNext, if_neg hprevious, get?_remove, if_neg hslot, hget']

theorem detach (h : a.IsChain head (l₁ ++ (slot, item) :: l₂))
    (hget : a.get? slot = some { item, next }) :
    (a.detach (l₁.getLast?.map Prod.fst) slot).IsChain (if l₁ = [] then next else head)
      (l₁ ++ l₂) := by
  rcases List.eq_nil_or_concat l₁ with rfl | ⟨l₀, ⟨previous, item'⟩, rfl⟩
  · -- The first cell goes, so the chain begins with the second.
    have hslot : slot ∉ l₂.map Prod.fst := (List.nodup_cons.1 (by simpa using h.nodup)).1
    cases h with
    | cons hget' hrest =>
        rw [hget] at hget'
        cases hget'
        simpa [Arena.detach] using hrest.remove hslot
  · simp only [List.concat_eq_append, List.append_assoc, List.singleton_append] at h ⊢
    simpa [Arena.detach, hget] using h.setNext_remove hget

end IsChain

theorem get?_detach_of_ne {previous : Option Slot} (hprevious : some slot ≠ previous) :
    (a.detach previous other).get? slot = if slot = other then none else a.get? slot := by
  cases previous with
  | none => rw [detach, get?_remove]
  | some p =>
      have hne : slot ≠ p := fun heq => hprevious (congrArg some heq)
      rw [detach, get?_setNext, if_neg hne, get?_remove]

theorem isSome_get?_detach {previous : Option Slot} :
    ((a.detach previous other).get? slot).isSome ↔ slot ≠ other ∧ (a.get? slot).isSome := by
  cases previous with
  | none =>
      rw [detach, get?_remove]
      split <;> simp_all
  | some p =>
      rw [detach, get?_setNext, get?_remove]
      split <;> split <;> simp_all

theorem get?_removeAll (cells : List (Slot × α)) :
    (cells.foldl (fun a cell => a.remove cell.1) a).get? slot =
      if slot ∈ cells.map Prod.fst then none else a.get? slot := by
  induction cells generalizing a with
  | nil => simp
  | cons c rest ih =>
      rw [List.foldl_cons, ih, get?_remove]
      by_cases hrest : slot ∈ rest.map Prod.fst
      · simp [hrest]
      · by_cases hc : slot = c.1
        · simp [hc]
        · simp [hrest, hc]

theorem get?_removeChain (h : a.IsChain head l) :
    (a.removeChain head).get? slot = if slot ∈ l.map Prod.fst then none else a.get? slot := by
  rw [removeChain, h.chain_eq, get?_removeAll]

end Arena

/-! ## Seeking in a chain -/

theorem seek?_eq_none_iff {p : α → Bool} {previous : Option Slot} {l : List (Slot × α)} :
    seek? p previous l = none ↔ ∀ c ∈ l, p c.2 = false := by
  induction l generalizing previous with
  | nil => simp [seek?]
  | cons c rest ih =>
      by_cases hc : p c.2
      · simp [seek?, hc]
      · simp [seek?, hc, ih]

theorem seek?_eq_some {p : α → Bool} {previous found : Option Slot} {slot : Slot}
    {l : List (Slot × α)} (h : seek? p previous l = some (found, slot)) :
    ∃ l₁ item l₂, l = l₁ ++ (slot, item) :: l₂ ∧ p item ∧ (∀ c ∈ l₁, p c.2 = false) ∧
      found = (l₁.getLast?.map Prod.fst).or previous := by
  induction l generalizing previous with
  | nil => simp [seek?] at h
  | cons c rest ih =>
      rcases c with ⟨s, x⟩
      by_cases hx : p x
      · simp only [seek?, hx, if_true, Option.some.injEq, Prod.mk.injEq] at h
        rcases h with ⟨rfl, rfl⟩
        exact ⟨[], x, rest, rfl, hx, by simp, rfl⟩
      · simp only [seek?, hx] at h
        rcases ih h with ⟨l₁, item, l₂, rfl, hitem, hbefore, rfl⟩
        refine ⟨(s, x) :: l₁, item, l₂, rfl, hitem, ?_, ?_⟩
        · intro c hc
          rcases List.mem_cons.1 hc with rfl | hc
          · simpa using hx
          · exact hbefore c hc
        · rw [List.getLast?_cons]
          cases l₁.getLast? <;> rfl

end Multimap.Chained
