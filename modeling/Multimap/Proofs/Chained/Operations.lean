import Multimap.Proofs.Chained.Removing
import Multimap.Proofs.Chained.Room

/-!
# Operations — what each of them does to the values of a key

Every operation leaves a well-formed table well formed. What it holds afterwards is
said for all keys at once: `valuesOf` is the same function as before but for the one
key that the operation is about.

* `WellFormed.putIn`, for every memory, and `WellFormed.valuesOf_putIn`;
* `WellFormed.erase` and `WellFormed.erasePair` with their flags;
* what `contains` says about a key (`WellFormed.contains_none`) and about a pair
  (`WellFormed.contains_some`).
-/

namespace Multimap.Chained

open Multimap.Traversal

namespace Focus

variable {f : Focus} {r : Row}

theorem key_mem (f : Focus) : f.row.key ∈ f.layout.contents.keys :=
  Layout.mem_keys.2 (List.mem_map_of_mem f.row_mem)

theorem key_notMem (h : f.layout.contents.keys.Nodup) : f.row.key ∉ f.drop.contents.keys := by
  have hperm : f.layout.contents.keys.Perm (f.row.key :: f.drop.contents.keys) :=
    (f.rows_layout_perm.map Row.binding).map Prod.fst
  rw [hperm.nodup_iff] at h
  exact (List.nodup_cons.1 h).1

theorem key_notMem_left (h : f.layout.contents.keys.Nodup) :
    f.row.key ∉ Contents.keys (f.left.map Row.binding) := by
  intro hmem
  apply f.key_notMem h
  rw [Layout.contents_drop, Contents.keys, List.map_append]
  exact List.mem_append_left _ hmem

theorem valuesOf_row (h : f.layout.contents.keys.Nodup) :
    f.layout.contents.valuesOf f.row.key = f.row.values.map Prod.snd :=
  Contents.valuesOf_of_mem h (List.mem_map_of_mem (f := Row.binding) f.row_mem)

/-- Another row for the same key changes the values of that key only. -/
theorem valuesOf_replace (h : f.layout.contents.keys.Nodup) (hkey : r.key = f.row.key) :
    { f with row := r }.layout.contents.valuesOf =
      Function.update f.layout.contents.valuesOf f.row.key (r.values.map Prod.snd) := by
  have hreplaced : { f with row := r }.layout.contents =
      f.left.map Row.binding ++ (f.row.key, r.values.map Prod.snd) :: f.right.map Row.binding := by
    rw [Layout.contents_layout, Row.binding, hkey]
    rfl
  rw [hreplaced, Layout.contents_layout, Row.binding]
  exact Contents.valuesOf_replace (f.key_notMem_left h)

theorem valuesOf_drop (h : f.layout.contents.keys.Nodup) :
    f.drop.contents.valuesOf = Function.update f.layout.contents.valuesOf f.row.key [] := by
  have hnotMem := f.key_notMem h
  rw [Layout.contents_drop] at hnotMem ⊢
  rw [Layout.contents_layout, Row.binding]
  exact Contents.valuesOf_remove hnotMem

end Focus

namespace Layout

variable {before behind : Layout} {rows : List Row} {r : Row}

theorem contents_append : (before ++ behind : Layout).contents =
    before.contents ++ behind.contents := by
  simp [contents, Layout.rows]

theorem contents_push : (before ++ (r :: rows) :: behind : Layout).contents =
    before.contents ++ r.binding :: Layout.contents (rows :: behind) := by
  simp [contents, Layout.rows]

end Layout

namespace Table

variable {t : Table} {memory : Memory} {key value : Bytes}

namespace WellFormed

theorem keys_nodup (h : t.WellFormed) : t.contents.keys.Nodup :=
  h.holds.keys_nodup

theorem values_ne_nil (h : t.WellFormed) : ∀ b ∈ t.contents, b.2 ≠ [] :=
  h.holds.values_ne_nil

theorem pairCount_eq (h : t.WellFormed) : t.pairCount = t.contents.pairs.length :=
  h.holds.pairCount_eq

end WellFormed

/-- A key is found where its row is, or else it is not in the contents. -/
theorem WellFormed.find?_cases (h : t.WellFormed) (key : Bytes) :
    (∃ f : Focus, f.layout = t.layout ∧ t.contents = f.layout.contents ∧ f.row.key = key ∧
        t.find? key = some f.place) ∨
      (key ∉ t.contents.keys ∧ t.find? key = none) := by
  rcases h.holds.find?_cases key with ⟨f, hlayout, hkey, hfind⟩ | ⟨hnotMem, hfind⟩
  · exact .inl ⟨f, hlayout, congrArg Layout.contents hlayout.symm, hkey, hfind⟩
  · exact .inr ⟨Layout.mem_keys.not.2 hnotMem, hfind⟩

/-! ## Building and clearing -/

theorem wellFormed_empty (tuning : Tuning) (h : tuning.Valid) : (empty tuning h).WellFormed where
  holds :=
    { hangs :=
        { capacity_eq := rfl
          isChain := fun bucket rows hrows => by simp [layout, empty, capacity] at hrows
          occupied_eq := rfl }
      stores :=
        { node_iff := fun slot => by simp [empty, Arena.get?_empty, layout, capacity, Layout.rows]
          value_iff := fun slot => by simp [empty, Arena.get?_empty, layout, capacity, Layout.rows]
          nodes_nodup := .nil
          values_nodup := .nil
          isChain := fun r hr => by simp [layout, empty, capacity, Layout.rows] at hr }
      wellFormed :=
        { row := fun r hr => by simp [layout, empty, capacity, Layout.rows] at hr
          indexOf_eq := fun bucket rows hrows => by simp [layout, empty, capacity] at hrows
          keys_nodup := .nil } }
  capacity_eq := .inl rfl

theorem wellFormed_clear : t.clear.WellFormed :=
  wellFormed_empty t.tuning t.tuning_valid

/-! ## Adding -/

theorem sameShape_add : t.SameShape (t.add key value) := by
  rw [add]
  split
  · exact ⟨rfl, rfl⟩
  · exact ⟨rfl, capacity_hang⟩

theorem tuning_putIn : (t.putIn memory key value).2.tuning = t.tuning := by
  have hroom := tuning_makeRoom t memory
  rw [putIn]
  split
  · next hmake => rwa [hmake] at hroom
  · next hmake =>
      rw [hmake] at hroom
      split
      · exact hroom
      · exact sameShape_add.tuning_eq.trans hroom

/-- Where memory is ample and grants the first buckets, adding never fails. -/
theorem putIn_of_ample (hample : memory.Ample)
    (h : t.capacity ≠ 0 ∨ memory (.buckets t.tuning.initialCapacity) = true) :
    (t.putIn memory key value).1 = .ok () := by
  have hroom := makeRoom_of_ample hample h
  have hcopies : ∀ t : Table, memory.refusal? (t.copies key value) = none := by
    intro t
    rw [Memory.refusal?, Option.map_eq_none_iff, List.find?_eq_none]
    intro a ha
    have hbuckets : ∀ count, a ≠ .buckets count := by
      rintro count rfl
      rw [copies] at ha
      split at ha <;> simp at ha
    simp [grants_of_ample hample hbuckets]
  rw [putIn]
  split
  · next hmake =>
      rw [hmake] at hroom
      cases hroom
  · rw [hcopies]

/-- Where the first buckets are refused, nothing is added. -/
theorem putIn_of_refused (hcapacity : t.capacity = 0)
    (h : memory (.buckets t.tuning.initialCapacity) = false) :
    t.putIn memory key value =
      (.error (Allocation.buckets t.tuning.initialCapacity).failure, t) := by
  have hroom : t.makeRoom memory =
      (.error (Allocation.buckets t.tuning.initialCapacity).failure, t) := by
    simp [makeRoom, hcapacity, h]
  rw [putIn, hroom]

namespace WellFormed

theorem add (h : t.WellFormed) (hcapacity : t.capacity ≠ 0) (key value : Bytes) :
    (t.add key value).WellFormed ∧
      (t.add key value).contents.valuesOf =
        Function.update t.contents.valuesOf key (value :: t.contents.valuesOf key) := by
  have hnodup := h.keys_nodup
  rcases h.holds.add_cases hcapacity key value with
    ⟨f, hlayout, rfl, hholds⟩ | ⟨hnotMem, before, behind, rows, hlayout, -, hholds⟩
  · refine ⟨h.of_holds hholds sameShape_add, ?_⟩
    have hcontents : t.contents = f.layout.contents := congrArg Layout.contents hlayout.symm
    rw [hcontents] at hnodup ⊢
    have hreplace := f.valuesOf_replace (r := f.row.addValue t.values.fresh value) hnodup rfl
    rw [hholds.contents_eq, hreplace, f.valuesOf_row hnodup]
    rfl
  · refine ⟨h.of_holds hholds sameShape_add, ?_⟩
    have hcontents : t.contents = before.contents ++ Layout.contents (rows :: behind) := by
      rw [contents, hlayout, Layout.contents_append]
    have hfront : key ∉ Contents.keys before.contents := by
      intro hmem
      apply hnotMem
      rw [← contents, hcontents, Contents.keys, List.map_append]
      exact List.mem_append_left _ hmem
    have hnil : t.contents.valuesOf key = [] := Contents.valuesOf_eq_nil hnotMem
    calc (t.add key value).contents.valuesOf
        = Contents.valuesOf (before.contents ++ (key, [value]) ::
            Layout.contents (rows :: behind)) := by
          rw [hholds.contents_eq, Layout.contents_push]
          rfl
      _ = Function.update t.contents.valuesOf key [value] := by
          rw [Contents.valuesOf_insert hfront, hcontents]
      _ = Function.update t.contents.valuesOf key (value :: t.contents.valuesOf key) := by
          rw [hnil]

/-- Memory may refuse what it likes: the table stays well formed. -/
theorem putIn (h : t.WellFormed) (memory : Memory) (key value : Bytes) :
    (t.putIn memory key value).2.WellFormed := by
  have hroom := h.makeRoom memory
  have hok := h.makeRoom_ok memory
  rw [Table.putIn]
  split
  · next hmake =>
      rw [hmake] at hroom
      exact hroom.1
  · next hmake =>
      rw [hmake] at hroom hok
      split
      · exact hroom.1
      · exact (hroom.1.add (hok rfl).1 key value).1

/-- A pair is added in front of the values of its key, or else nothing changes. -/
theorem valuesOf_putIn (h : t.WellFormed) (memory : Memory) (key value : Bytes) :
    (t.putIn memory key value).2.contents.valuesOf =
      match (t.putIn memory key value).1 with
      | .ok _ => Function.update t.contents.valuesOf key (value :: t.contents.valuesOf key)
      | .error _ => t.contents.valuesOf := by
  have hroom := h.makeRoom memory
  have hok := h.makeRoom_ok memory
  have hsame := Contents.valuesOf_perm h.keys_nodup hroom.2.symm
  rw [Table.putIn]
  split
  · next hmake => rwa [hmake] at hsame
  · next hmake =>
      rw [hmake] at hroom hok hsame
      split
      · exact hsame
      · exact hsame ▸ (hroom.1.add (hok rfl).1 key value).2

end WellFormed

/-! ## Removing -/

theorem sameShape_unlink {place : Place} : t.SameShape (t.unlink place) where
  tuning_eq := by
    rw [unlink]
    split <;> rfl
  capacity_eq := capacity_unlink

theorem sameShape_erase : t.SameShape (t.erase key).2 := by
  rw [erase]
  split
  · exact .refl t
  · exact sameShape_unlink

theorem sameShape_erasePair : t.SameShape (t.erasePair key value).2 := by
  rw [erasePair]
  split
  · exact .refl t
  · split
    · exact .refl t
    · dsimp only
      split
      · exact ⟨sameShape_unlink.tuning_eq, sameShape_unlink.capacity_eq⟩
      · exact ⟨rfl, rfl⟩

namespace WellFormed

/-- The flag says whether the key had values, and afterwards it has none. -/
theorem erase (h : t.WellFormed) (key : Bytes) :
    (t.erase key).2.WellFormed ∧
      ((t.erase key).1 = true ↔ t.contents.valuesOf key ≠ []) ∧
      (t.erase key).2.contents.valuesOf = Function.update t.contents.valuesOf key [] := by
  have hnodup := h.keys_nodup
  rcases h.holds.erase_cases key with ⟨f, hlayout, rfl, hflag, hholds⟩ | ⟨hnotMem, herase⟩
  · have hcontents : t.contents = f.layout.contents := congrArg Layout.contents hlayout.symm
    refine ⟨h.of_holds hholds sameShape_erase, ?_, ?_⟩
    · rw [hflag, ← Contents.mem_keys_iff h.values_ne_nil, hcontents]
      simp [f.key_mem]
    · rw [hcontents] at hnodup ⊢
      rw [hholds.contents_eq, f.valuesOf_drop hnodup]
  · have hnil : t.contents.valuesOf key = [] := Contents.valuesOf_eq_nil hnotMem
    rw [herase, Function.update_eq_self_iff.2 hnil.symm]
    exact ⟨h, by simp [hnil], rfl⟩

/-- The flag says whether the key had the value, and afterwards it has the first
occurrence of it no more. -/
theorem erasePair (h : t.WellFormed) (key value : Bytes) :
    (t.erasePair key value).2.WellFormed ∧
      ((t.erasePair key value).1 = true ↔ value ∈ t.contents.valuesOf key) ∧
      (t.erasePair key value).2.contents.valuesOf =
        Function.update t.contents.valuesOf key ((t.contents.valuesOf key).erase value) := by
  have hnodup := h.keys_nodup
  rcases h.holds.erasePair_cases key value with
    ⟨f, front, back, slot, hlayout, rfl, hvalues, hfront, hflag, hholds⟩ | ⟨hnotMem, herase⟩
  · have hcontents : t.contents = f.layout.contents := congrArg Layout.contents hlayout.symm
    refine ⟨h.of_holds hholds sameShape_erasePair, ?_, ?_⟩
    · rw [hcontents] at hnodup ⊢
      rw [f.valuesOf_row hnodup, hvalues, hflag]
      simp
    · rw [hcontents] at hnodup ⊢
      rw [hholds.contents_eq, f.valuesOf_row hnodup, hvalues, List.map_append, List.map_cons,
        List.erase_append_right _ hfront, List.erase_cons_head, ← List.map_append]
      split
      · next hrest => rw [f.valuesOf_drop hnodup, hrest, List.map_nil]
      · exact f.valuesOf_replace (r := f.row.keepValues (front ++ back)) hnodup rfl
  · have hnotMem' : value ∉ t.contents.valuesOf key := hnotMem
    rw [herase, List.erase_of_not_mem hnotMem', Function.update_eq_self]
    exact ⟨h, by simpa using hnotMem', rfl⟩

/-! ## Reading -/

theorem contains_none (h : t.WellFormed) (key : Bytes) :
    t.contains key none = true ↔ t.contents.valuesOf key ≠ [] := by
  rw [← Contents.mem_keys_iff h.values_ne_nil]
  rcases h.find?_cases key with ⟨f, -, hcontents, rfl, hfind⟩ | ⟨hnotMem, hfind⟩
  · simp [contains, hfind, hcontents, f.key_mem]
  · simp [contains, hfind, hnotMem]

theorem contains_some (h : t.WellFormed) (key value : Bytes) :
    t.contains key (some value) = true ↔ value ∈ t.contents.valuesOf key := by
  have hnodup := h.keys_nodup
  rcases h.find?_cases key with ⟨f, hlayout, hcontents, rfl, hfind⟩ | ⟨hnotMem, hfind⟩
  · have hchain : t.valueChain f.place.slot = f.row.values :=
      h.holds.valueChain_eq (hlayout ▸ f.row_mem)
    rw [hcontents] at hnodup ⊢
    rw [f.valuesOf_row hnodup]
    simp [contains, hfind, hchain]
  · simp [contains, hfind, Contents.valuesOf_eq_nil hnotMem]

end WellFormed

end Table

end Multimap.Chained
