import Mathlib.Algebra.Ring.Nat
import Mathlib.Data.List.Basic
import Mathlib.Data.List.Nodup
import Mathlib.Logic.Function.Basic
import Multimap.Traversal.Contents

/-!
# Contents — the values of a key

What a change of one binding means for the values of all keys. Where every key is
there once, the order of the bindings does not matter to the values of a key, and the
values of the keys are all that there is to the bindings.
-/

namespace Multimap.Traversal.Contents

variable {contents contents' front back : Contents} {key other : Bytes} {values : List Bytes}

theorem lookup_eq_none (h : key ∉ contents.keys) : contents.lookup key = none := by
  rw [List.lookup_eq_none_iff]
  intro p hp
  have hne : key ≠ p.1 := fun heq => h (heq ▸ List.mem_map_of_mem hp)
  simpa using hne

theorem valuesOf_eq_nil (h : key ∉ contents.keys) : contents.valuesOf key = [] := by
  rw [valuesOf, lookup_eq_none h, Option.getD_none]

theorem valuesOf_append_cons (h : key ∉ front.keys) :
    valuesOf (front ++ (key, values) :: back) other =
      if other = key then values else valuesOf (front ++ back) other := by
  by_cases heq : other = key
  · subst heq
    simp [valuesOf, List.lookup_append, lookup_eq_none h]
  · have hbeq : (other == key) = false := beq_eq_false_iff_ne.2 heq
    simp [valuesOf, List.lookup_append, List.lookup_cons, hbeq, heq]

/-! ## One binding changed -/

theorem valuesOf_insert (h : key ∉ Contents.keys front) :
    valuesOf (front ++ (key, values) :: back) =
      Function.update (valuesOf (front ++ back)) key values := by
  funext other
  rw [valuesOf_append_cons h, Function.update_apply]

theorem valuesOf_replace {values' : List Bytes} (h : key ∉ Contents.keys front) :
    valuesOf (front ++ (key, values') :: back) =
      Function.update (valuesOf (front ++ (key, values) :: back)) key values' := by
  rw [valuesOf_insert h, valuesOf_insert h, Function.update_idem]

theorem valuesOf_remove (h : key ∉ Contents.keys (front ++ back)) :
    valuesOf (front ++ back) =
      Function.update (valuesOf (front ++ (key, values) :: back)) key [] := by
  have hfront : key ∉ Contents.keys front := fun hmem => h (by
    rw [keys, List.map_append]
    exact List.mem_append_left _ hmem)
  calc valuesOf (front ++ back)
      = Function.update (valuesOf (front ++ back)) key [] := by
        rw [← valuesOf_eq_nil h, Function.update_eq_self]
    _ = Function.update (Function.update (valuesOf (front ++ back)) key values) key [] := by
        rw [Function.update_idem]
    _ = Function.update (valuesOf (front ++ (key, values) :: back)) key [] := by
        rw [valuesOf_insert hfront]

/-! ## Keys and values -/

theorem mem_keys_iff (hne : ∀ b ∈ contents, b.2 ≠ []) :
    key ∈ contents.keys ↔ contents.valuesOf key ≠ [] := by
  constructor
  · intro hmem
    rcases List.mem_map.1 hmem with ⟨⟨k, values⟩, hb, rfl⟩
    cases hlookup : contents.lookup k with
    | none =>
        have hnone := List.lookup_eq_none_iff.1 hlookup (k, values) hb
        simp at hnone
    | some vs =>
        rcases List.lookup_eq_some_iff.1 hlookup with ⟨front, back, rfl, -⟩
        have hvs : vs ≠ [] := hne (k, vs) (by simp)
        simpa [valuesOf, hlookup] using hvs
  · intro hvalues
    by_contra hmem
    exact hvalues (valuesOf_eq_nil hmem)

theorem valuesOf_of_mem (hnodup : contents.keys.Nodup) (h : (key, values) ∈ contents) :
    contents.valuesOf key = values := by
  rcases List.append_of_mem h with ⟨front, back, rfl⟩
  have hfront : key ∉ Contents.keys front := by
    intro hmem
    rw [keys, List.map_append] at hnodup
    exact hnodup.disjoint hmem (by simp)
  rw [valuesOf_append_cons hfront, if_pos rfl]

theorem valuesOf_perm (hnodup : contents.keys.Nodup) (hperm : contents.Perm contents') :
    contents'.valuesOf = contents.valuesOf := by
  funext key
  have hnodup' : contents'.keys.Nodup := (hperm.map Prod.fst).nodup_iff.1 hnodup
  by_cases hmem : key ∈ contents.keys
  · rcases List.mem_map.1 hmem with ⟨⟨k, values⟩, hb, rfl⟩
    rw [valuesOf_of_mem hnodup hb, valuesOf_of_mem hnodup' (hperm.mem_iff.1 hb)]
  · have hmem' : key ∉ contents'.keys := fun h => hmem ((hperm.map Prod.fst).mem_iff.2 h)
    rw [valuesOf_eq_nil hmem, valuesOf_eq_nil hmem']

theorem pairs_eq (hnodup : contents.keys.Nodup) :
    contents.pairs = contents.keys.flatMap fun key =>
      (contents.valuesOf key).map fun value => (key, value) := by
  rw [pairs, keys, List.flatMap_map]
  apply List.flatMap_congr
  intro b hb
  rw [valuesOf_of_mem hnodup hb]

theorem length_pairs (contents : Contents) :
    contents.pairs.length = (contents.map fun b => b.2.length).sum := by
  simp [pairs, List.length_flatMap]

theorem pairs_ne_nil (h : contents ≠ []) (hne : ∀ b ∈ contents, b.2 ≠ []) :
    contents.pairs ≠ [] := by
  obtain ⟨⟨key, values⟩, behind, rfl⟩ := List.exists_cons_of_ne_nil h
  have hvalues : values ≠ [] := hne (key, values) (by simp)
  simp [pairs, hvalues]

theorem mem_iff_valuesOf_eq (hnodup : contents.keys.Nodup) (hne : ∀ b ∈ contents, b.2 ≠ []) :
    (key, values) ∈ contents ↔ values ≠ [] ∧ contents.valuesOf key = values := by
  constructor
  · intro hmem
    exact ⟨hne _ hmem, valuesOf_of_mem hnodup hmem⟩
  · rintro ⟨hvalues, rfl⟩
    obtain ⟨⟨k, vs⟩, hb, rfl⟩ := List.mem_map.1 ((mem_keys_iff hne).2 hvalues)
    rw [valuesOf_of_mem hnodup hb]
    exact hb

/-- Contents with the same values under every key differ only in their order. -/
theorem perm_of_valuesOf_eq (hnodup : contents.keys.Nodup) (hne : ∀ b ∈ contents, b.2 ≠ [])
    (hnodup' : contents'.keys.Nodup) (hne' : ∀ b ∈ contents', b.2 ≠ [])
    (h : contents.valuesOf = contents'.valuesOf) : contents.Perm contents' := by
  rw [List.perm_ext_iff_of_nodup (.of_map _ hnodup) (.of_map _ hnodup')]
  rintro ⟨key, values⟩
  rw [mem_iff_valuesOf_eq hnodup hne, mem_iff_valuesOf_eq hnodup' hne', h]

/-- Lists of keys that agree about one key and about all others. -/
theorem perm_of_agree {keys keys' : List Bytes} (key : Bytes) (hnodup : keys.Nodup)
    (hnodup' : keys'.Nodup) (hkey : key ∈ keys' ↔ key ∈ keys)
    (hother : ∀ k, k ≠ key → (k ∈ keys' ↔ k ∈ keys)) : keys'.Perm keys := by
  refine (List.perm_ext_iff_of_nodup hnodup' hnodup).2 fun k => ?_
  by_cases hk : k = key
  · exact hk ▸ hkey
  · exact hother k hk

/-- With other values for one key, the keys are the same, or there is this one more, or
this one less. -/
theorem keys_perm_of_valuesOf_eq (hnodup : contents.keys.Nodup) (hne : ∀ b ∈ contents, b.2 ≠ [])
    (hnodup' : contents'.keys.Nodup) (hne' : ∀ b ∈ contents', b.2 ≠ [])
    (h : contents'.valuesOf = Function.update contents.valuesOf key values) :
    contents'.keys.Perm contents.keys ∨
      (values ≠ [] ∧ key ∉ contents.keys ∧ contents'.keys.Perm (key :: contents.keys)) ∨
      (values = [] ∧ contents.keys.Perm (key :: contents'.keys)) := by
  have hself : key ∈ contents'.keys ↔ values ≠ [] := by
    rw [mem_keys_iff hne', h, Function.update_self]
  have hother : ∀ k, k ≠ key → (k ∈ contents'.keys ↔ k ∈ contents.keys) := by
    intro k hk
    rw [mem_keys_iff hne', h, Function.update_of_ne hk, mem_keys_iff hne]
  by_cases hsame : key ∈ contents'.keys ↔ key ∈ contents.keys
  · exact .inl (perm_of_agree key hnodup hnodup' hsame hother)
  · right
    by_cases hold : key ∈ contents.keys
    · right
      have hgone : key ∉ contents'.keys := fun hin => hsame ⟨fun _ => hold, fun _ => hin⟩
      refine ⟨by simpa using mt hself.2 hgone, ?_⟩
      refine perm_of_agree key (hnodup'.cons hgone) hnodup (by simp [hold]) ?_
      intro k hk
      simp [hk, hother k hk]
    · left
      have hnew : key ∈ contents'.keys := by
        by_contra hin
        exact hsame ⟨fun h => absurd h hin, fun h => absurd h hold⟩
      refine ⟨hself.1 hnew, hold, ?_⟩
      refine perm_of_agree key (hnodup.cons hold) hnodup' (by simp [hnew]) ?_
      intro k hk
      simp [hk, hother k hk]

/-- What is to be seen where a key is sought is its first value. -/
theorem value_seek (contents : Contents) (spot : Option Spot) (key : Bytes) :
    ((contents.move spot (.seek key)).bind (·.current? true)).bind Entry.value =
      (contents.valuesOf key).head? := by
  induction contents with
  | nil => rfl
  | cons b behind ih =>
      obtain ⟨k, values⟩ := b
      by_cases heq : k = key
      · subst heq
        cases values <;> simp [move, start?, Spot.current?, valuesOf]
      · have hbeq : (key == k) = false := beq_eq_false_iff_ne.2 (Ne.symm heq)
        simpa [move, valuesOf, List.lookup_cons, hbeq, heq] using ih

/-! ## Lists of pairs -/

/-- The values that a list of pairs has for a key. -/
def listed (pairs : List (Bytes × Bytes)) (key : Bytes) : List Bytes :=
  (pairs.filter (·.1 == key)).map Prod.snd

theorem listed_reverse (pairs : List (Bytes × Bytes)) (key : Bytes) :
    listed pairs.reverse key = (listed pairs key).reverse := by
  rw [listed, listed, List.filter_reverse, List.map_reverse]

theorem listed_map_pair (k key : Bytes) (values : List Bytes) :
    listed (values.map fun value => (k, value)) key = if key = k then values else [] := by
  rw [listed, List.filter_map, List.map_map]
  by_cases heq : key = k
  · simp [heq, Function.comp_def]
  · simp [heq, Ne.symm heq, Function.comp_def]

/-- Where every key is there once, its pairs have its values. -/
theorem listed_pairs (hnodup : contents.keys.Nodup) (key : Bytes) :
    listed contents.pairs key = contents.valuesOf key := by
  induction contents with
  | nil => rfl
  | cons b behind ih =>
      obtain ⟨k, values⟩ := b
      obtain ⟨hk, hbehind⟩ := List.nodup_cons.1 hnodup
      have hvaluesOf : valuesOf ((k, values) :: behind) key =
          if key = k then values else valuesOf behind key :=
        @valuesOf_append_cons [] behind k key values List.not_mem_nil
      have hcons : listed (pairs ((k, values) :: behind)) key =
          listed (values.map fun value => (k, value)) key ++ listed (pairs behind) key := by
        simp [listed, pairs]
      rw [hcons, ih hbehind, hvaluesOf, listed_map_pair]
      by_cases heq : key = k
      · rw [if_pos heq, if_pos heq, heq, valuesOf_eq_nil hk, List.append_nil]
      · rw [if_neg heq, if_neg heq, List.nil_append]

end Multimap.Traversal.Contents
