import Multimap.Proofs.Chained.Growth
import Multimap.Proofs.Chained.Walking
import Multimap.Proofs.Traversal.Stability

/-!
# Order — what operations do to the order of the pairs

As long as a table has the same buckets, the pairs that an operation is not about stay where
they are. A pair that is added goes in front of the other pairs of its key, or behind the pairs
of lower buckets if its key is new; pairs that are removed leave the others as they are.

* `Added` says where a pair is put, and `WellFormed.added` that it is put there;
* `WellFormed.pairs_erase` and `WellFormed.pairs_erasePair` say what is left;
* `Steady` puts this together with the operations that change nothing at all, and holds of
  every reachable table (`tables_steady`).
-/

namespace Multimap.Traversal.Contents

variable {contents front back : Contents} {key value : Bytes} {values older newer : List Bytes}
  {pair : Bytes × Bytes}

/-! ## Pairs in front of a key, of the key, and behind it -/

theorem pairs_append : pairs (front ++ back) = front.pairs ++ back.pairs :=
  List.flatMap_append

theorem pairs_append_cons : pairs (front ++ (key, values) :: back) =
    front.pairs ++ (values.map (fun value => (key, value)) ++ back.pairs) := by
  rw [pairs_append]
  rfl

theorem key_mem_of_mem_pairs (h : pair ∈ contents.pairs) : pair.1 ∈ contents.keys := by
  rcases List.mem_flatMap.1 h with ⟨binding, hbinding, hpair⟩
  rcases List.mem_map.1 hpair with ⟨value, -, rfl⟩
  exact List.mem_map_of_mem hbinding

theorem key_notMem_pairs (h : key ∉ contents.keys) : key ∉ contents.pairs.map Prod.fst := by
  intro hmem
  rcases List.mem_map.1 hmem with ⟨pair, hpair, rfl⟩
  exact h (key_mem_of_mem_pairs hpair)

theorem filter_pairs (h : key ∉ contents.keys) :
    contents.pairs.filter (·.1 ≠ key) = contents.pairs := by
  rw [List.filter_eq_self]
  intro pair hpair
  exact decide_eq_true fun heq => h (heq ▸ key_mem_of_mem_pairs hpair)

/-- Without a key, what is in front of it and behind it is left. -/
theorem filter_pairs_append_cons (h : key ∉ Contents.keys (front ++ back)) :
    (pairs (front ++ (key, values) :: back)).filter (·.1 ≠ key) = pairs (front ++ back) := by
  rw [keys, List.map_append, List.mem_append, not_or] at h
  have hvalues : (values.map fun value => (key, value)).filter (·.1 ≠ key) = [] := by
    simp
  rw [pairs_append_cons, List.filter_append, List.filter_append, filter_pairs h.1,
    filter_pairs h.2, hvalues, pairs_append]
  rfl

/-- Without the first occurrence of a value, the other values of the key are left. -/
theorem erase_pairs_append_cons (h : key ∉ Contents.keys front) (hnewer : value ∉ newer) :
    (pairs (front ++ (key, newer ++ value :: older) :: back)).erase (key, value) =
      pairs (front ++ (key, newer ++ older) :: back) := by
  have hfront : (key, value) ∉ front.pairs := fun hmem => h (key_mem_of_mem_pairs hmem)
  have hvalues : (key, value) ∉ newer.map fun value => (key, value) := by
    simpa using hnewer
  rw [pairs_append_cons, pairs_append_cons, List.erase_append_right _ hfront, List.map_append,
    List.append_assoc, List.erase_append_right _ hvalues, List.map_cons, List.cons_append,
    List.erase_cons_head, List.map_append, List.append_assoc]

/-- A key without values makes no difference. -/
theorem pairs_append_cons_nil : pairs (front ++ (key, []) :: back) = pairs (front ++ back) := by
  rw [pairs_append_cons, pairs_append]
  rfl

end Multimap.Traversal.Contents

namespace Multimap.Chained

open Multimap.Traversal

/-- Where a pair is put among others, by the buckets of their keys: in front of the first pair
of its key, or between the pairs of lower buckets and the rest. -/
inductive Added (bucket : Bytes → Nat) (key value : Bytes) :
    List (Bytes × Bytes) → List (Bytes × Bytes) → Prop where
  | stored {front back : List (Bytes × Bytes)} {newest : Bytes} :
      key ∉ front.map Prod.fst →
        Added bucket key value (front ++ (key, newest) :: back)
          (front ++ (key, value) :: (key, newest) :: back)
  | fresh {front back : List (Bytes × Bytes)} : key ∉ (front ++ back).map Prod.fst →
      (∀ pair ∈ front, bucket pair.1 < bucket key) →
      (∀ pair ∈ back, bucket key ≤ bucket pair.1) →
        Added bucket key value (front ++ back) (front ++ (key, value) :: back)

/-- The key that an operation is about. -/
def Operation.key? : Operation → Option Bytes
  | .put key _ | .erase key | .erasePair key _ | .contains key _ => some key
  | .close => none

/-- What is not about the key of the pair is not changed by adding it. -/
theorem Added.filter_eq {bucket : Bytes → Nat} {key value : Bytes}
    {before after : List (Bytes × Bytes)} (h : Added bucket key value before after)
    {others : Bytes → Bool} (hkey : others key = false) :
    after.filter (others ·.1) = before.filter (others ·.1) := by
  cases h with
  | stored _ => simp [hkey]
  | fresh _ _ _ => simp [hkey]

/-! ## Rows -/

namespace Layout

variable {layout before behind : Layout} {rows : List Row} {r : Row} {pair : Bytes × Bytes}

theorem WellFormed.indexOf_digest (h : layout.WellFormed) {bucket : Nat}
    (hbucket : layout[bucket]? = some rows) (hr : r ∈ rows) :
    indexOf layout.length (digest r.key) = bucket := by
  have hmem : r ∈ layout.rows := List.mem_flatten.2 ⟨rows, List.mem_of_getElem? hbucket, hr⟩
  rw [← (h.row r hmem).digest_eq]
  exact h.indexOf_eq bucket rows hbucket r hr

theorem exists_bucket_of_mem_pairs (h : pair ∈ layout.contents.pairs) :
    ∃ (bucket : Nat) (rows : List Row), layout[bucket]? = some rows ∧
      ∃ r ∈ rows, r.key = pair.1 := by
  rcases List.mem_map.1 (mem_keys.1 (Contents.key_mem_of_mem_pairs h)) with ⟨r, hr, hkey⟩
  rcases exists_bucket hr with ⟨bucket, rows, hbucket, hmem⟩
  exact ⟨bucket, rows, hbucket, r, hmem, hkey⟩

/-- Keys of the first buckets have lower buckets than the others. -/
theorem WellFormed.indexOf_lt (h : (before ++ behind : Layout).WellFormed)
    (hpair : pair ∈ before.contents.pairs) :
    indexOf (before ++ behind).length (digest pair.1) < before.length := by
  rcases exists_bucket_of_mem_pairs hpair with ⟨bucket, rows, hbucket, r, hr, hkey⟩
  have hlt : bucket < before.length := (List.getElem?_eq_some_iff.1 hbucket).1
  have hwhole : (before ++ behind)[bucket]? = some rows := by
    rw [List.getElem?_append_left hlt, hbucket]
  rw [← hkey, h.indexOf_digest hwhole hr]
  exact hlt

theorem WellFormed.le_indexOf (h : (before ++ behind : Layout).WellFormed)
    (hpair : pair ∈ behind.contents.pairs) :
    before.length ≤ indexOf (before ++ behind).length (digest pair.1) := by
  rcases exists_bucket_of_mem_pairs hpair with ⟨bucket, rows, hbucket, r, hr, hkey⟩
  have hle : before.length ≤ before.length + bucket := Nat.le_add_right _ _
  have hwhole : (before ++ behind)[before.length + bucket]? = some rows := by
    rw [List.getElem?_append_right hle, Nat.add_sub_cancel_left, hbucket]
  rw [← hkey, h.indexOf_digest hwhole hr]
  exact hle

/-- A new row in front of its bucket puts its pair behind those of the buckets before. -/
theorem WellFormed.added_push (h : (before ++ rows :: behind : Layout).WellFormed)
    {key value : Bytes} (hr : r.binding = (key, [value]))
    (hbefore : before.length = indexOf (before ++ rows :: behind).length (digest key))
    (hkey : key ∉ Contents.keys (Layout.contents (before ++ rows :: behind))) :
    Added (fun key => indexOf (before ++ rows :: behind).length (digest key)) key value
      (Contents.pairs (Layout.contents (before ++ rows :: behind)))
      (Contents.pairs (Layout.contents (before ++ (r :: rows) :: behind))) := by
  have hfresh := Contents.key_notMem_pairs hkey
  rw [contents_append, Contents.pairs_append] at hfresh
  rw [contents_push, contents_append, Contents.pairs_append, hr, Contents.pairs_append_cons]
  refine .fresh hfresh ?_ ?_
  · intro pair hpair
    exact Nat.lt_of_lt_of_eq (h.indexOf_lt hpair) hbefore
  · intro pair hpair
    exact Nat.le_trans hbefore.ge (h.le_indexOf hpair)

end Layout

/-- A value in front of the others of a row puts its pair in front of theirs. -/
theorem Focus.added_addValue {f : Focus} (hnodup : f.layout.contents.keys.Nodup)
    (hvalues : f.row.values ≠ []) (bucket : Bytes → Nat) (slot : Slot) (value : Bytes) :
    Added bucket f.row.key value f.layout.contents.pairs
      { f with row := f.row.addValue slot value }.layout.contents.pairs := by
  rcases List.exists_cons_of_ne_nil hvalues with ⟨newest, older, hrow⟩
  have hbinding : f.row.binding = (f.row.key, newest.2 :: older.map Prod.snd) := by
    rw [Row.binding, hrow]
    rfl
  have hbinding' : (f.row.addValue slot value).binding =
      (f.row.key, value :: newest.2 :: older.map Prod.snd) := by
    rw [Row.binding, Row.addValue, hrow]
    rfl
  rw [Layout.contents_layout, Layout.contents_layout, hbinding, hbinding',
    Contents.pairs_append_cons, Contents.pairs_append_cons]
  exact .stored (Contents.key_notMem_pairs (f.key_notMem_left hnodup))

namespace Table

variable {t : Table} {memory : Memory} {key value : Bytes}

/-- The bucket of a key. -/
def bucketOf (t : Table) (key : Bytes) : Nat :=
  indexOf t.capacity (digest key)

/-! ## Adding -/

/-- Without more buckets there is no other room than the table itself. -/
theorem WellFormed.makeRoom_eq_self (h : t.WellFormed)
    (hsame : (t.makeRoom memory).2.capacity = t.capacity) : (t.makeRoom memory).2 = t := by
  rw [Table.makeRoom] at hsame ⊢
  split
  · next hcapacity =>
      rw [if_pos hcapacity] at hsame
      dsimp only at hsame ⊢
      split
      · next hgranted =>
          -- There are first buckets, so there are more than before.
          rw [if_pos hgranted, hcapacity] at hsame
          exact absurd (Array.size_replicate.symm.trans hsame) t.initialCapacity_ne_zero
      · rfl
  · next hcapacity =>
      rw [if_neg hcapacity] at hsame
      rcases doubleWhileCrowded_eq_iterate memory t.doublingLimit t with ⟨n, hroom, -, -⟩
      rw [hroom, (h.capacity_iterate_double hcapacity n).2] at hsame
      -- Each doubling gives more buckets, so there was none.
      have hn : n = 0 := by
        have hpow := Nat.eq_of_mul_eq_mul_left (Nat.pos_of_ne_zero hcapacity)
          (hsame.trans (Nat.mul_one _).symm)
        exact (Nat.pow_eq_one.1 hpow).resolve_left (by decide)
      rw [hroom, hn]
      rfl

theorem WellFormed.added (h : t.WellFormed) (hcapacity : t.capacity ≠ 0) (key value : Bytes) :
    Added t.bucketOf key value t.contents.pairs (t.add key value).contents.pairs := by
  rcases h.holds.add_cases hcapacity key value with
    ⟨f, hlayout, rfl, hholds⟩ | ⟨hnotMem, before, behind, rows, hlayout, hbefore, hholds⟩
  · -- The row of a stored key stays where it is in its bucket.
    have hcontents : t.contents = f.layout.contents := congrArg Layout.contents hlayout.symm
    have hvalues := (h.holds.wellFormed.row f.row (hlayout ▸ f.row_mem)).values_ne_nil
    rw [hholds.contents_eq, hcontents]
    exact Focus.added_addValue (hcontents ▸ h.keys_nodup) hvalues _ _ _
  · have hwf := h.holds.wellFormed
    have hbucket : t.bucketOf = fun key =>
        indexOf (before ++ rows :: behind).length (digest key) := by
      rw [← hlayout, ← h.holds.hangs.capacity_eq]
      rfl
    rw [h.holds.hangs.capacity_eq] at hbefore
    rw [hlayout] at hwf hbefore hnotMem
    rw [hholds.contents_eq, contents, hlayout, hbucket]
    exact hwf.added_push rfl hbefore hnotMem

/-- Where a pair is put by a table that gets no more buckets. A table that fails is left. -/
theorem WellFormed.added_putIn (h : t.WellFormed)
    (hsame : (t.putIn memory key value).2.capacity = t.capacity) :
    ((t.putIn memory key value).1 = .ok () →
      Added t.bucketOf key value t.contents.pairs (t.putIn memory key value).2.contents.pairs) ∧
    ∀ error, (t.putIn memory key value).1 = .error error →
      (t.putIn memory key value).2 = t := by
  rw [capacity_putIn] at hsame
  have hroom := h.makeRoom_eq_self hsame
  have hok := h.makeRoom_ok memory
  cases hmake : t.makeRoom memory with
  | mk answer room =>
      rw [hmake] at hroom hok
      obtain rfl : t = room := hroom.symm
      rw [Table.putIn, hmake]
      cases answer with
      | error error =>
          refine ⟨?_, fun _ _ => rfl⟩
          rintro ⟨⟩
      | ok _ =>
          dsimp only
          cases memory.refusal? (t.copies key value) with
          | some error =>
              refine ⟨?_, fun _ _ => rfl⟩
              rintro ⟨⟩
          | none =>
              refine ⟨fun _ => h.added (hok rfl).1 key value, ?_⟩
              rintro _ ⟨⟩

/-! ## Removing -/

/-- Without the pairs of a key, all others are left. -/
theorem WellFormed.pairs_erase (h : t.WellFormed) (key : Bytes) :
    (t.erase key).2.contents.pairs = t.contents.pairs.filter (·.1 ≠ key) := by
  rcases h.holds.erase_cases key with ⟨f, hlayout, rfl, -, hholds⟩ | ⟨hnotMem, herase⟩
  · have hcontents : t.contents = f.layout.contents := congrArg Layout.contents hlayout.symm
    have hnodup := h.keys_nodup
    rw [hcontents] at hnodup ⊢
    have hnotMem := f.key_notMem hnodup
    rw [Layout.contents_drop] at hnotMem
    rw [hholds.contents_eq, Layout.contents_drop, Layout.contents_layout]
    exact (Contents.filter_pairs_append_cons hnotMem).symm
  · rw [herase]
    exact (Contents.filter_pairs hnotMem).symm

/-- Without the first occurrence of a pair, all others are left. -/
theorem WellFormed.pairs_erasePair (h : t.WellFormed) (key value : Bytes) :
    (t.erasePair key value).2.contents.pairs = t.contents.pairs.erase (key, value) := by
  rcases h.holds.erasePair_cases key value with
    ⟨f, newer, older, slot, hlayout, rfl, hvalues, hnewer, -, hholds⟩ | ⟨hnotMem, herase⟩
  · have hcontents : t.contents = f.layout.contents := congrArg Layout.contents hlayout.symm
    have hnodup := h.keys_nodup
    rw [hcontents] at hnodup ⊢
    have hbinding : f.row.binding =
        (f.row.key, newer.map Prod.snd ++ value :: older.map Prod.snd) := by
      rw [Row.binding, hvalues, List.map_append, List.map_cons]
    have hleft : (t.erasePair f.row.key value).2.contents.pairs = Contents.pairs
        (f.left.map Row.binding ++ (f.row.key, newer.map Prod.snd ++ older.map Prod.snd) ::
          f.right.map Row.binding) := by
      rw [hholds.contents_eq]
      split
      · next hrest =>
          -- The last value takes the row with it, and a row without values shows no pair.
          have hnil : newer.map Prod.snd ++ older.map Prod.snd = [] := by
            rw [← List.map_append, hrest, List.map_nil]
          rw [Layout.contents_drop, hnil, Contents.pairs_append_cons_nil]
      · rw [Layout.contents_layout, ← List.map_append]
        rfl
    rw [hleft, Layout.contents_layout, hbinding]
    exact (Contents.erase_pairs_append_cons (f.key_notMem_left hnodup) hnewer).symm
  · have hnotMem' : (key, value) ∉ t.contents.pairs := by
      intro hmem
      apply hnotMem
      rw [← contents, ← Contents.listed_pairs h.keys_nodup]
      exact List.mem_map_of_mem (List.mem_filter.2 ⟨hmem, beq_self_eq_true key⟩)
    rw [herase, List.erase_of_not_mem hnotMem']

/-! ## The other pairs -/

/-- The pairs of other keys than that of an operation stay as they are, if there are no more
buckets. -/
theorem WellFormed.others_performIn (h : t.WellFormed) {op : Operation} (hop : op ≠ .close)
    (hsame : (t.performIn memory op).2.capacity = t.capacity) {others : Bytes → Bool}
    (hothers : ∀ key ∈ op.key?, others key = false) :
    (t.performIn memory op).2.contents.pairs.filter (others ·.1) =
      t.contents.pairs.filter (others ·.1) := by
  cases op with
  | put key value =>
      have hput := h.added_putIn hsame
      rw [Table.performIn]
      cases hanswer : (t.putIn memory key value).1 with
      | ok _ => exact (hput.1 hanswer).filter_eq (hothers key rfl)
      | error error => rw [hput.2 error hanswer]
  | erase key =>
      have hkey : others key = false := hothers key rfl
      rw [Table.performIn, h.pairs_erase, List.filter_filter]
      refine List.filter_congr ?_
      intro pair _
      by_cases heq : pair.1 = key
      · simp [heq, hkey]
      · simp [heq]
  | erasePair key value =>
      have hkey : others key = false := hothers key rfl
      rw [Table.performIn, h.pairs_erasePair]
      by_cases hmem : (key, value) ∈ t.contents.pairs
      · rcases List.exists_erase_eq hmem with ⟨front, back, -, hpairs, herased⟩
        rw [herased, hpairs]
        simp [hkey]
      · rw [List.erase_of_not_mem hmem]
  | contains key value => rfl
  | close => exact absurd rfl hop

/-- Performs operations one after the other, each in a memory of its own. -/
def performAllIn (t : Table) (ops : List (Memory × Operation)) : Table :=
  ops.foldl (fun t op => (t.performIn op.1 op.2).2) t

theorem WellFormed.capacity_le_performAllIn (h : t.WellFormed) {ops : List (Memory × Operation)}
    (hops : ∀ op ∈ ops, op.2 ≠ .close) : t.capacity ≤ (t.performAllIn ops).capacity := by
  induction ops generalizing t with
  | nil => exact Nat.le_refl _
  | cons op ops ih =>
      rcases List.forall_mem_cons.1 hops with ⟨hop, hrest⟩
      exact Nat.le_trans (h.capacity_performIn op.1 hop).1 (ih (h.performIn op.1 op.2) hrest)

/-- A run that leaves a table its buckets leaves the pairs of all keys that it is not about in
their order. -/
theorem WellFormed.others_performAllIn (h : t.WellFormed) {ops : List (Memory × Operation)}
    (hops : ∀ op ∈ ops, op.2 ≠ .close) (hsame : (t.performAllIn ops).capacity = t.capacity)
    {others : Bytes → Bool} (hothers : ∀ op ∈ ops, ∀ key ∈ op.2.key?, others key = false) :
    (t.performAllIn ops).contents.pairs.filter (others ·.1) =
      t.contents.pairs.filter (others ·.1) := by
  induction ops generalizing t with
  | nil => rfl
  | cons op ops ih =>
      rcases List.forall_mem_cons.1 hops with ⟨hop, hrest⟩
      rcases List.forall_mem_cons.1 hothers with ⟨hkey, hkeys⟩
      have hwf := h.performIn op.1 op.2
      -- Buckets are never given up, so none are added on the way.
      have hle : (t.performIn op.1 op.2).2.capacity ≤ t.capacity :=
        hsame ▸ hwf.capacity_le_performAllIn hrest
      have hstep := Nat.le_antisymm hle (h.capacity_performIn op.1 hop).1
      calc (t.performAllIn (op :: ops)).contents.pairs.filter (others ·.1)
          = (t.performIn op.1 op.2).2.contents.pairs.filter (others ·.1) :=
            ih hwf hrest (hsame.trans hstep.symm) hkeys
        _ = t.contents.pairs.filter (others ·.1) := h.others_performIn hop hstep hkey

/-! ## All operations -/

/-- What can be said of the order in which a table shows its pairs. -/
structure Steady (t : Table) : Prop where
  /-- Walks hand the pairs out in the order of the contents. -/
  items_eq : t.items .pairs =
    t.contents.pairs.map fun (key, value) => .ok { key, value := some value }
  /-- Adding puts the pair in its place, unless it takes more buckets or fails. -/
  putIn : ∀ memory key value, (t.putIn memory key value).2.capacity = t.capacity →
    ((t.putIn memory key value).1 = .ok () → Added t.bucketOf key value t.contents.pairs
      (t.putIn memory key value).2.contents.pairs) ∧
    ∀ error, (t.putIn memory key value).1 = .error error → (t.putIn memory key value).2 = t
  erase : ∀ key,
    (t.erase key).2.contents.pairs = t.contents.pairs.filter (·.1 ≠ key) ∧
      (t.erase key).2.capacity = t.capacity ∧ ((t.erase key).1 = false → (t.erase key).2 = t)
  erasePair : ∀ key value,
    (t.erasePair key value).2.contents.pairs = t.contents.pairs.erase (key, value) ∧
      (t.erasePair key value).2.capacity = t.capacity ∧
      ((t.erasePair key value).1 = false → (t.erasePair key value).2 = t)
  /-- A run without more buckets leaves the pairs of all other keys in their order. -/
  run : ∀ ops : List (Memory × Operation), (∀ op ∈ ops, op.2 ≠ .close) →
    (t.performAllIn ops).capacity = t.capacity →
      ∀ others : Bytes → Bool, (∀ op ∈ ops, ∀ key ∈ op.2.key?, others key = false) →
        (t.performAllIn ops).contents.pairs.filter (others ·.1) =
          t.contents.pairs.filter (others ·.1)
  /-- Asking whether something is there changes nothing at all, -/
  contains : ∀ memory key value,
    t.performIn memory (.contains key value) = (.ok (some (t.contains key value)), t)
  /-- nor does a cursor, -/
  cursor : ∀ uses, (Traversal.Cursor.Use.performAll (m := Id) uses
    (.ofState (Cursor.ofTable t))).run.2.state.table = t
  /-- nor does a walk. -/
  walk : ∀ scope wantValues asks, (Walk.replies (m := Id) asks
    (.ofState scope wantValues (Cursor.ofTable t))).run.2.cursor.state.table = t

theorem WellFormed.steady (h : t.WellFormed) : t.Steady where
  items_eq := by
    have hitems := ensures_id_iff.1 (h.drain (m := Id) .pairs true)
    rw [items, hitems, Contents.entries, List.map_map]
    rfl
  putIn memory key value := h.added_putIn
  erase key := by
    refine ⟨h.pairs_erase key, sameShape_erase.capacity_eq, ?_⟩
    rcases h.holds.erase_cases key with ⟨f, -, -, htrue, -⟩ | ⟨-, herase⟩
    · intro hfalse
      cases htrue.symm.trans hfalse
    · intro _
      rw [herase]
  erasePair key value := by
    refine ⟨h.pairs_erasePair key value, sameShape_erasePair.capacity_eq, ?_⟩
    rcases h.holds.erasePair_cases key value with
      ⟨f, newer, older, slot, -, -, -, -, htrue, -⟩ | ⟨-, herase⟩
    · intro hfalse
      cases htrue.symm.trans hfalse
    · intro _
      rw [herase]
  run ops hops hsame others hothers := h.others_performAllIn hops hsame hothers
  contains memory key value := rfl
  cursor uses :=
    (ensures_id_iff.1 ((Cursor.stable_table (m := Id) t).performAll
      (c := .ofState (Cursor.ofTable t)) rfl uses) :)
  walk scope wantValues asks :=
    (ensures_id_iff.1 ((Cursor.stable_table (m := Id) t).replies
      (w := .ofState scope wantValues (Cursor.ofTable t)) rfl asks) :)

/-- In every run, operations that leave a table its buckets change the order of its pairs only
where they add or remove one, and operations that answer or walk change nothing. -/
theorem tables_steady {tuning : Tuning} (h : t.Reachable tuning) : t.Steady :=
  h.wellFormed.2.steady

/-- Two keys in one bucket, one with two values, and one in the bucket behind it. -/
theorem steady_over_collision :
    let t := ((((Table.standard.putIn .addressable [98] [4]).2.putIn .addressable [97] [1]).2.putIn
      .addressable [105] [2]).2.putIn .addressable [97] [1]).2
    t.contents.pairs = [([105], [2]), ([97], [1]), ([97], [1]), ([98], [4])] ∧
      (t.erasePair [97] [1]).2.contents.pairs = [([105], [2]), ([97], [1]), ([98], [4])] ∧
      (t.erase [97]).2.contents.pairs = [([105], [2]), ([98], [4])] ∧
      (t.erasePair [97] [3]).2 = t ∧
      Added t.bucketOf [106] [5] t.contents.pairs
        [([105], [2]), ([97], [1]), ([97], [1]), ([106], [5]), ([98], [4])] := by
  intro t
  have hreachable : t.Reachable {} :=
    ((((Reachable.fresh rfl).putIn _ _ _).putIn _ _ _).putIn _ _ _).putIn _ _ _
  have hsteady := tables_steady hreachable
  refine ⟨by decide, ?_, ?_, ?_, ?_⟩
  · exact (hsteady.erasePair [97] [1]).1.trans (by decide)
  · exact (hsteady.erase [97]).1.trans (by decide)
  · exact (hsteady.erasePair [97] [3]).2.2 (by decide)
  · have hok : (t.putIn .addressable [106] [5]).1 = .ok () :=
      putIn_of_ample Memory.ample_addressable (.inl (by decide))
    have hadded := (hsteady.putIn .addressable [106] [5] (by decide)).1 hok
    have hpairs : (t.putIn .addressable [106] [5]).2.contents.pairs =
        [([105], [2]), ([97], [1]), ([97], [1]), ([106], [5]), ([98], [4])] := by decide
    rwa [hpairs] at hadded

end Table

end Multimap.Chained
