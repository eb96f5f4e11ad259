import Mathlib.Data.Nat.Find
import Mathlib.Order.Bounds.Defs
import Multimap.Proofs.Chained.Digest
import Multimap.Proofs.Chained.Order

/-!
# Gathering — keys that end alike are in one chain

Keys whose last twenty-two bytes are the same have the same digest, so they share a bucket
however many buckets there are. A table with such keys only has one occupied bucket at most.
This is a reason to double it as long as one bucket is too many, and never again, so the number
of its buckets does not depend on the number of its keys.

* operations keep the end of the keys (`KeysEndIn.performIn`), and where all keys end alike
  they are gathered in one chain, also after any number of doublings (`WellFormed.gathered`);
* a table of gathered keys takes only buckets that it needs for one that is occupied
  (`WellFormed.needed_makeRoom`);
* `Narrow` is what every run keeps, and `Confined` what can be said of such a table
  (`confined_by_suffix`): besides, it tells its keys apart like any other table.
-/

namespace Multimap.Chained

open Multimap.Traversal

/-- The numbers of buckets that doubling leads to, and of which one may be occupied without
reaching the load factor. -/
def Tuning.roomForOne (tuning : Tuning) : Set Nat :=
  { capacity | ∃ doublings, capacity = tuning.initialCapacity * 2 ^ doublings ∧
    1000 < tuning.loadFactor * capacity }

/-- As the load factor is not zero, some number of doublings is enough for one bucket. -/
theorem Tuning.Valid.exists_isLeast {tuning : Tuning} (h : tuning.Valid) :
    ∃ capacity, IsLeast tuning.roomForOne capacity := by
  have hpos : 0 < tuning.initialCapacity := by
    obtain ⟨k, hk⟩ := h.initialCapacity_pow
    exact hk ▸ Nat.two_pow_pos k
  have henough : ∃ n, 1000 < tuning.loadFactor * (tuning.initialCapacity * 2 ^ n) := by
    refine ⟨10, ?_⟩
    have hfactor := Nat.mul_pos h.loadFactor_pos hpos
    rw [← Nat.mul_assoc]
    omega
  refine ⟨_, ⟨Nat.find henough, rfl, Nat.find_spec henough⟩, ?_⟩
  rintro capacity ⟨n, rfl, hn⟩
  exact Nat.mul_le_mul_left _ (Nat.pow_le_pow_right (by decide) (Nat.find_min' henough hn))

/-- If a key is added, it ends in these bytes. -/
def Operation.AddsOnly (suffix : Bytes) (op : Operation) : Prop :=
  ∀ key value, op = .put key value → suffix <:+ key

namespace Table

variable {t t' : Table} {tuning : Tuning} {memory : Memory} {suffix key : Bytes}
  {values : List Bytes} {bucket : Nat} {op : Operation} {ops : List (Memory × Operation)}

/-! ## The end of the keys -/

/-- All keys of a table end in the same bytes. -/
def KeysEndIn (suffix : Bytes) (t : Table) : Prop :=
  ∀ key ∈ t.contents.keys, suffix <:+ key

theorem KeysEndIn.of_perm (h : t.KeysEndIn suffix) (hperm : t'.contents.Perm t.contents) :
    t'.KeysEndIn suffix :=
  fun key hkey => h key ((hperm.map Prod.fst).mem_iff.1 hkey)

theorem KeysEndIn.of_valuesOf_eq (h : t.KeysEndIn suffix) (hwf : t.WellFormed)
    (hwf' : t'.WellFormed)
    (hvalues : t'.contents.valuesOf = Function.update t.contents.valuesOf key values)
    (hkey : values ≠ [] → suffix <:+ key) : t'.KeysEndIn suffix := by
  intro other hother
  rw [Contents.mem_keys_iff hwf'.values_ne_nil, hvalues] at hother
  by_cases heq : other = key
  · subst heq
    rw [Function.update_self] at hother
    exact hkey hother
  · rw [Function.update_of_ne heq] at hother
    exact h other ((Contents.mem_keys_iff hwf.values_ne_nil).2 hother)

theorem KeysEndIn.performIn (h : t.KeysEndIn suffix) (hwf : t.WellFormed) (memory : Memory)
    (hop : Operation.AddsOnly suffix op) : (t.performIn memory op).2.KeysEndIn suffix := by
  have hwf' := hwf.performIn memory op
  cases op with
  | put key value =>
      have hvalues := hwf.valuesOf_putIn memory key value
      cases hanswer : (t.putIn memory key value).1 with
      | ok _ =>
          rw [hanswer] at hvalues
          exact h.of_valuesOf_eq hwf hwf' hvalues fun _ => hop key value rfl
      | error error =>
          rw [hanswer, ← Function.update_eq_self key t.contents.valuesOf] at hvalues
          exact h.of_valuesOf_eq hwf hwf' hvalues fun _ => hop key value rfl
  | erase key => exact h.of_valuesOf_eq hwf hwf' (hwf.erase key).2.2 fun hne => absurd rfl hne
  | erasePair key value =>
      refine h.of_valuesOf_eq hwf hwf' (hwf.erasePair key value).2.2 ?_
      intro hne
      refine h key ((Contents.mem_keys_iff hwf.values_ne_nil).2 ?_)
      intro hnil
      rw [hnil] at hne
      exact hne rfl
  | contains key value => exact h
  | close => exact nofun

/-! ## One chain -/

/-- All nodes of a table are in the chain of one bucket. -/
structure Gathered (suffix : Bytes) (t : Table) : Prop where
  occupied_le : t.occupied ≤ 1
  linkedNodes_eq : t.linkedNodes = t.chain (t.bucketOf suffix)

theorem chain_eq_nil_of_le (h : t.capacity ≤ bucket) : t.chain bucket = [] := by
  have hhead : t.head bucket = none := by
    rw [head, Array.getD_eq_getD_getElem?, Array.getElem?_eq_none h, Option.getD_none]
  rw [chain, hhead]
  exact Arena.IsChain.nil.chain_eq

/-- A bucket beside which there is no other has all nodes. -/
theorem linkedNodes_eq_chain (h : ∀ other, other ≠ bucket → t.chain other = []) :
    t.linkedNodes = t.chain bucket := by
  have hnil : ∀ buckets : List Nat, bucket ∉ buckets → buckets.flatMap t.chain = [] := by
    intro buckets hnotMem
    rw [List.flatMap_eq_nil_iff]
    exact fun other hother => h other (ne_of_mem_of_not_mem hother hnotMem)
  by_cases hlt : bucket < t.capacity
  · obtain ⟨before, behind, hrange, -, hnotMem⟩ := Layout.exists_split_range hlt
    rw [List.mem_append, not_or] at hnotMem
    rw [linkedNodes, hrange, List.flatMap_append, List.flatMap_cons, hnil before hnotMem.1,
      hnil behind hnotMem.2, List.nil_append, List.append_nil]
  · have hnotMem : bucket ∉ List.range t.capacity := mt List.mem_range.1 hlt
    rw [linkedNodes, hnil _ hnotMem, chain_eq_nil_of_le (Nat.le_of_not_lt hlt)]

/-- Keys of one digest have one bucket. -/
theorem KeysEndIn.bucketOf_eq (h : t.KeysEndIn suffix) (hlength : 22 ≤ suffix.length)
    (hkey : key ∈ t.contents.keys) : t.bucketOf key = t.bucketOf suffix :=
  congrArg (indexOf t.capacity) (digest_eq_of_suffix hlength (h key hkey))

theorem KeysEndIn.chain_eq_nil (h : t.KeysEndIn suffix) (hwf : t.WellFormed)
    (hlength : 22 ≤ suffix.length) (hne : bucket ≠ t.bucketOf suffix) : t.chain bucket = [] := by
  by_contra hchain
  have hlt : bucket < t.capacity := by
    by_contra hle
    exact hchain (chain_eq_nil_of_le (Nat.le_of_not_lt hle))
  obtain ⟨c, hc⟩ := List.exists_mem_of_ne_nil _ hchain
  have hkey : c.2.key ∈ t.contents.keys := by
    rw [keys_contents]
    exact List.mem_map_of_mem (List.mem_flatMap.2 ⟨bucket, List.mem_range.2 hlt, hc⟩)
  have hdigest := hwf.toInvariant.digest_eq bucket hlt c hc
  rw [hdigest.1] at hdigest
  exact hne (hdigest.2.symm.trans (h.bucketOf_eq hlength hkey))

theorem WellFormed.gathered (h : t.WellFormed) (hkeys : t.KeysEndIn suffix)
    (hlength : 22 ≤ suffix.length) : t.Gathered suffix where
  occupied_le := by
    have hsub : (bucketsOf t.capacity t.contents).toFinset ⊆ {t.bucketOf suffix} := by
      intro bucket hbucket
      obtain ⟨key, hkey, rfl⟩ := List.mem_map.1 (List.mem_toFinset.1 hbucket)
      exact Finset.mem_singleton.2 (hkeys.bucketOf_eq hlength hkey)
    calc t.occupied
        = (bucketsOf t.capacity t.contents).toFinset.card := h.occupied_eq
      _ ≤ Finset.card {t.bucketOf suffix} := Finset.card_le_card hsub
      _ = 1 := Finset.card_singleton _
  linkedNodes_eq := linkedNodes_eq_chain fun _ hne => hkeys.chain_eq_nil h hlength hne

theorem WellFormed.gathered_iterate_double (h : t.WellFormed) (hcapacity : t.capacity ≠ 0)
    (hkeys : t.KeysEndIn suffix) (hlength : 22 ≤ suffix.length) (n : Nat) :
    (double^[n] t).Gathered suffix :=
  (h.capacity_iterate_double hcapacity n).1.gathered
    (hkeys.of_perm (h.contents_iterate_double_perm hcapacity n)) hlength

/-! ## Buckets that are needed -/

/-- No smaller number of buckets would have been enough for one that is occupied. -/
def Needed (t : Table) : Prop :=
  ∀ n, t.tuning.initialCapacity * 2 ^ n < t.capacity →
    t.tuning.loadFactor * (t.tuning.initialCapacity * 2 ^ n) ≤ 1000

theorem Needed.of_sameShape (h : t.Needed) (hshape : t.SameShape t') : t'.Needed := by
  unfold Needed
  rw [hshape.tuning_eq, hshape.capacity_eq]
  exact h

theorem needed_of_capacity_le (h : t.capacity ≤ t.tuning.initialCapacity) : t.Needed := by
  intro n hn
  have hpos : t.tuning.initialCapacity ≤ t.tuning.initialCapacity * 2 ^ n :=
    Nat.le_mul_of_pos_right _ (Nat.two_pow_pos n)
  omega

/-- A doubling of crowded buckets was needed if only one of them was occupied. -/
theorem WellFormed.needed_double (h : t.WellFormed) (hcapacity : t.capacity ≠ 0)
    (hcrowded : t.crowded = true) (hoccupied : t.occupied ≤ 1) : t.double.Needed := by
  obtain ⟨doublings, hpow⟩ := h.capacity_eq.resolve_left hcapacity
  rw [crowded, decide_eq_true_iff] at hcrowded
  unfold Needed
  rw [sameItems_double.tuning_eq, h.capacity_double hcapacity]
  intro n hn
  have hle : n ≤ doublings := by
    by_contra hlt
    have hmore : t.tuning.initialCapacity * 2 ^ (doublings + 1) ≤
        t.tuning.initialCapacity * 2 ^ n :=
      Nat.mul_le_mul_left _ (Nat.pow_le_pow_right (by decide) (Nat.lt_of_not_le hlt))
    rw [Nat.pow_succ, ← Nat.mul_assoc, ← hpow] at hmore
    omega
  have hfewer : t.tuning.initialCapacity * 2 ^ n ≤ t.capacity :=
    hpow ▸ Nat.mul_le_mul_left _ (Nat.pow_le_pow_right (by decide) hle)
  have hload := Nat.mul_le_mul_left t.tuning.loadFactor hfewer
  omega

theorem WellFormed.needed_makeRoom (h : t.WellFormed) (hneeded : t.Needed)
    (hoccupied : t.capacity ≠ 0 → ∀ n, (double^[n] t).occupied ≤ 1) (memory : Memory) :
    (t.makeRoom memory).2.Needed := by
  rw [Table.makeRoom]
  by_cases hcapacity : t.capacity = 0
  · rw [if_pos hcapacity]
    dsimp only
    split
    · exact needed_of_capacity_le (Nat.le_of_eq Array.size_replicate)
    · exact hneeded
  · rw [if_neg hcapacity]
    rcases doubleWhileCrowded_eq_iterate memory t.doublingLimit t with ⟨n, hn, hcrowded, -⟩
    rw [hn]
    cases n with
    | zero => exact hneeded
    | succ n =>
        -- Only the last doubling counts: it was needed, and so were the ones before it.
        obtain ⟨hwf, hpow⟩ := h.capacity_iterate_double hcapacity n
        have hcapacity' : (double^[n] t).capacity ≠ 0 :=
          hpow ▸ Nat.mul_ne_zero hcapacity (Nat.ne_of_gt (Nat.two_pow_pos n))
        rw [Function.iterate_succ_apply']
        exact hwf.needed_double hcapacity' (hcrowded n (Nat.lt_succ_self n)) (hoccupied hcapacity n)

/-! ## Runs -/

/-- What every operation keeps where all keys end alike. -/
structure Narrow (tuning : Tuning) (suffix : Bytes) (t : Table) : Prop where
  tuning_eq : t.tuning = tuning
  wellFormed : t.WellFormed
  keysEndIn : t.KeysEndIn suffix
  needed : t.Needed

namespace Narrow

theorem performIn (h : t.Narrow tuning suffix) (hlength : 22 ≤ suffix.length) (memory : Memory)
    (hop : Operation.AddsOnly suffix op) : (t.performIn memory op).2.Narrow tuning suffix where
  tuning_eq := (tuning_performIn t memory op).trans h.tuning_eq
  wellFormed := h.wellFormed.performIn memory op
  keysEndIn := h.keysEndIn.performIn h.wellFormed memory hop
  needed := by
    cases op with
    | put key value =>
        have hoccupied : t.capacity ≠ 0 → ∀ n, (double^[n] t).occupied ≤ 1 := fun hcapacity n =>
          (h.wellFormed.gathered_iterate_double hcapacity h.keysEndIn hlength n).occupied_le
        have hroom := h.wellFormed.needed_makeRoom h.needed hoccupied memory
        refine hroom.of_sameShape ⟨?_, capacity_putIn t memory key value⟩
        exact tuning_putIn.trans (tuning_makeRoom t memory).symm
    | erase key => exact h.needed.of_sameShape sameShape_erase
    | erasePair key value => exact h.needed.of_sameShape sameShape_erasePair
    | contains key value => exact h.needed
    | close => exact needed_of_capacity_le (Nat.zero_le _)

theorem performAllIn (h : t.Narrow tuning suffix) (hlength : 22 ≤ suffix.length)
    (hops : ∀ op ∈ ops, Operation.AddsOnly suffix op.2) :
    (t.performAllIn ops).Narrow tuning suffix := by
  induction ops generalizing t with
  | nil => exact h
  | cons op ops ih =>
      rcases List.forall_mem_cons.1 hops with ⟨hop, hrest⟩
      exact ih (h.performIn hlength op.1 hop) hrest

/-- There are no more buckets than is enough for one. -/
theorem capacity_le (h : t.Narrow tuning suffix) {bound : Nat}
    (hbound : IsLeast tuning.roomForOne bound) : t.capacity ≤ bound := by
  obtain ⟨⟨n, rfl, henough⟩, -⟩ := hbound
  by_contra hlt
  have hneeded := h.needed n (h.tuning_eq ▸ Nat.lt_of_not_le hlt)
  rw [h.tuning_eq] at hneeded
  omega

end Narrow

/-- What can be said of a table all of whose keys end alike. -/
structure Confined (tuning : Tuning) (suffix : Bytes) (t : Table) : Prop where
  tuning_eq : t.tuning = tuning
  gathered : t.Gathered suffix
  /-- More buckets would not spread the keys. -/
  doubled : t.capacity ≠ 0 → ∀ n, (double^[n] t).Gathered suffix
  capacity_le : ∃ bound, IsLeast tuning.roomForOne bound ∧
    t.capacity ≤ max tuning.initialCapacity bound
  /-- Keys are told apart nevertheless: a pair is added to its own key, -/
  putIn : ∀ memory key value, (t.putIn memory key value).2.contents.valuesOf =
    match (t.putIn memory key value).1 with
    | .ok _ => Function.update t.contents.valuesOf key (value :: t.contents.valuesOf key)
    | .error _ => t.contents.valuesOf
  /-- and all answers and walks are those of a multimap. -/
  run : tuning.initialCapacity < Memory.limit → ∀ ops,
    (t.run ops).1 = (Model.run t.contents.valuesOf ops).1.map .ok ∧
      (t.run ops).2.Reflects (Model.run t.contents.valuesOf ops).2

theorem Narrow.confined (h : t.Narrow tuning suffix) (hvalid : tuning.Valid)
    (hlength : 22 ≤ suffix.length) : t.Confined tuning suffix where
  tuning_eq := h.tuning_eq
  gathered := h.wellFormed.gathered h.keysEndIn hlength
  doubled hcapacity := h.wellFormed.gathered_iterate_double hcapacity h.keysEndIn hlength
  capacity_le := by
    obtain ⟨bound, hbound⟩ := hvalid.exists_isLeast
    exact ⟨bound, hbound, (h.capacity_le hbound).trans (Nat.le_max_right _ _)⟩
  putIn := h.wellFormed.valuesOf_putIn
  run hcapacity ops := by
    have hrefines : t.Refines t.contents.valuesOf :=
      ⟨h.wellFormed, rfl, h.tuning_eq.symm ▸ hcapacity⟩
    obtain ⟨hanswers, hrefines'⟩ := hrefines.run ops
    exact ⟨hanswers, hrefines'.reflects⟩

/-- The bytes at the end of a key determine the lowest bits of its digest, three bits for each
byte, and twenty-two of them all bits. So a table that is only given keys with the same
twenty-two bytes at the end has them in one chain of a bounded number of buckets, however many
they are and whatever memory refuses. -/
theorem confined_by_suffix :
    (∀ {bits : Nat} {front back : Bytes}, bits ≤ 3 * back.length →
      (digest (front ++ back)).toNat % 2 ^ bits = (digest back).toNat % 2 ^ bits) ∧
    ∀ {suffix : Bytes}, suffix.length = 22 →
      (∀ {key key' : Bytes}, suffix <:+ key → suffix <:+ key' → digest key = digest key') ∧
      ∀ {tuning : Tuning} (hvalid : tuning.Valid) {ops : List (Memory × Operation)},
        (∀ op ∈ ops, Operation.AddsOnly suffix op.2) →
          ((empty tuning hvalid).performAllIn ops).Confined tuning suffix := by
  refine ⟨fun {bits front back} h => digest_mod_two_pow front h, ?_⟩
  intro suffix hlength
  refine ⟨?_, ?_⟩
  · intro key key' hkey hkey'
    rw [digest_eq_of_suffix hlength.ge hkey, digest_eq_of_suffix hlength.ge hkey']
  · intro tuning hvalid ops hops
    have hempty : (empty tuning hvalid).Narrow tuning suffix :=
      ⟨rfl, wellFormed_empty tuning hvalid, nofun, needed_of_capacity_le (Nat.zero_le _)⟩
    exact (hempty.performAllIn hlength.ge hops).confined hvalid hlength.ge

/-- Memory refuses the first pair and grants it later. Three keys, which only their first byte
tells apart, then take two buckets and occupy one, and one of them is erased. -/
theorem confined_with_three_keys :
    let suffix : Bytes := List.replicate 22 0
    let ops : List (Memory × Operation) :=
      [(fun _ => false, .put (1 :: suffix) [1]), (.addressable, .put (1 :: suffix) [1]),
        (.addressable, .put (2 :: suffix) [2]), (.addressable, .put (3 :: suffix) [3])]
    let t := (empty { initialCapacity := 1 } ⟨by decide, by decide, 0, rfl⟩).performAllIn ops
    (digest (7 :: [1, 2])).toNat % 2 ^ 6 = (digest [1, 2]).toNat % 2 ^ 6 ∧
      digest (1 :: suffix) = digest (2 :: suffix) ∧
      (∀ op ∈ ops, Operation.AddsOnly suffix op.2) ∧ t.keyCount = 3 ∧ t.capacity = 2 ∧
      t.Confined { initialCapacity := 1 } suffix ∧
      (t.run [.erase (2 :: suffix), .contains (2 :: suffix) none, .contains (3 :: suffix) none]).1 =
        [.ok (some true), .ok (some false), .ok (some true)] := by
  intro suffix ops t
  obtain ⟨hbits, hends⟩ := confined_by_suffix
  obtain ⟨hdigest, hruns⟩ := @hends suffix rfl
  have hput : ∀ b value, Operation.AddsOnly suffix (.put (b :: suffix) value) := by
    rintro b value key _ ⟨⟩
    exact ⟨[b], rfl⟩
  have hops : ∀ op ∈ ops, Operation.AddsOnly suffix op.2 := by
    simp only [ops, List.forall_mem_cons]
    exact ⟨hput 1 [1], hput 1 [1], hput 2 [2], hput 3 [3], nofun⟩
  have hvalid : Tuning.Valid { initialCapacity := 1 } := ⟨by decide, by decide, 0, rfl⟩
  have hconfined : t.Confined { initialCapacity := 1 } suffix := hruns hvalid hops
  refine ⟨?_, hdigest ⟨[1], rfl⟩ ⟨[2], rfl⟩, hops, ?_, ?_, hconfined, ?_⟩
  · exact @hbits 6 [7] [1, 2] (by decide)
  · decide
  · decide
  · exact (hconfined.run (by decide) _).1.trans (by decide)

end Table

end Multimap.Chained
