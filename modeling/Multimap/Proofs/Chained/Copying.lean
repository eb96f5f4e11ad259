import Multimap.Proofs.Chained.Filling
import Multimap.Proofs.Chained.Handles

/-!
# Copying — a copy has the same values under every key

A copy adds the pairs of a walk over the source in the reverse order. A table puts every
value in front of the others of its key, so each key of the copy has its values in the
order of the source, wherever they stood among the pairs of other keys and however the
copy grew meanwhile.

* `Backend.Presents` is what is asked of a source: its cursors read contents;
* a copy of such a source in a fresh table is a copy of the contents
  (`Presents.copyIn_fresh`), and fails only where the first buckets are refused and there
  is something to copy;
* a copy of a handle over a table answers as the handle does (`Handle.copy_fresh`).
-/

namespace Multimap

open Multimap.Traversal Multimap.Chained

variable {m : Type → Type} [Monad m] [LawfulMonad m] {σ κ : Type} [CursorState m κ]
  [Backend m σ κ]

/-! ## Sources -/

/-- A source whose cursors answer as readers of contents do, in which every key is there
once and none is without values. -/
structure Backend.Presents (m : Type → Type) {σ κ : Type} [Monad m] [CursorState m κ]
    [Backend m σ κ] (source : σ) (contents : Contents) (shows : κ → Option Spot → Prop) :
    Prop where
  faithful : Faithful m contents shows
  keys_nodup : contents.keys.Nodup
  values_ne_nil : ∀ b ∈ contents, b.2 ≠ []
  /-- A fresh cursor has no position yet, and its bound for walks holds. -/
  cursor : Ensures (Backend.cursor (m := m) source).run fun answer =>
    ∃ state, answer = .ok state ∧ shows state none ∧
      contents.pairs.length ≤ CursorState.extent (m := m) state

namespace Backend

variable {source : σ} {contents : Contents} {shows : κ → Option Spot → Prop}
  {t : Table} {identifier : String}

/-- Every well-formed table presents its contents. -/
theorem presents_of_wellFormed (h : t.WellFormed) :
    Presents m t t.contents fun c => Chained.Cursor.ShowsIn t c where
  faithful := Chained.Cursor.faithful t
  keys_nodup := h.keys_nodup
  values_ne_nil := h.values_ne_nil
  cursor := by
    refine Ensures.pure ⟨_, rfl, Chained.Cursor.showsIn_ofTable h, ?_⟩
    exact Nat.le_of_eq h.pairCount_eq.symm

/-- The entries that a copy starts from are those of all pairs. -/
theorem Presents.entries (h : Presents m source contents shows) :
    Ensures (Backend.entries (m := m) source .pairs true).run fun answer =>
      answer = .ok (Table.entriesOf contents.pairs) := by
  rw [Backend.entries, ExceptT.run_bind]
  apply h.cursor.bind
  rintro answer ⟨state, rfl, hshows, hextent⟩
  have hstands := stands_ofState h.values_ne_nil hshows .pairs true
  have hdrain := h.faithful.drain hstands
    ((Contents.length_entries_le h.values_ne_nil true .pairs).trans hextent)
  dsimp only
  rw [run_liftM_bind]
  apply hdrain.bind
  rintro items rfl
  refine Ensures.pure ?_
  calc (contents.entries true .pairs |>.map Except.ok).mapM id
      = (contents.entries true .pairs).mapM fun entry => (pure (id entry) : Except Error Entry) :=
        List.mapM_map
    _ = .ok (Table.entriesOf contents.pairs) := by
        rw [List.mapM_pure, List.map_id]
        rfl

/-- Copying comes down to adding the pairs of the source, the last of them first. -/
theorem Presents.copyFrom {τ ν : Type} [Backend m τ ν] {t : τ}
    (h : Presents m source contents shows) {p : Except Error Unit × τ → Prop}
    (hput : Ensures ((Backend.openAs (copyRequest (m := m) identifier)).run t) fun outcome =>
      outcome.1 = .ok () ∧
        Ensures ((putAll (m := m) (Table.entriesOf contents.pairs.reverse)).run outcome.2) p) :
    Ensures ((Backend.copyFrom (m := m) identifier source).run t) p := by
  rw [Backend.copyFrom, Op.run_bind]
  apply hput.bind
  rintro ⟨answer, t⟩ ⟨rfl, hput⟩
  dsimp only
  rw [Op.run_bind]
  have hquery :
      Ensures ((Op.ofQuery fun _ : τ => Backend.entries (m := m) source .pairs true).run t)
        fun outcome => outcome = (.ok (Table.entriesOf contents.pairs), t) := by
    apply h.entries.bind
    rintro answer rfl
    exact Ensures.pure rfl
  apply hquery.bind
  rintro outcome rfl
  dsimp only
  rw [Table.entriesOf, ← List.map_reverse]
  exact hput

end Backend

/-! ## Fresh tables -/

namespace Chained.Table

variable {tuning : Tuning} {memory : Memory} {fresh t : Table} {contents : Contents}
  {source : σ} {shows : κ → Option Spot → Prop}

/-- A table that holds the same keys as some contents, each with the same values in the
same order. -/
structure Copies (t : Table) (contents : Contents) : Prop extends t.Invariant where
  wellFormed : t.WellFormed
  perm : t.contents.Perm contents
  valuesOf_eq : t.contents.valuesOf = contents.valuesOf
  keyCount_length : t.keyCount = contents.length
  pairCount_sum : t.pairCount = (contents.map fun b => b.2.length).sum

/-- What becomes of a fresh table that contents are copied to. -/
structure Copied (memory : Memory) (fresh : Table) (contents : Contents)
    (outcome : Except Error Unit × Table) : Prop where
  ok : memory (.buckets fresh.tuning.initialCapacity) = true ∨ contents = [] →
    outcome.1 = .ok () ∧ outcome.2.tuning = fresh.tuning ∧ outcome.2.Copies contents
  /-- Where the first buckets are refused, there is nothing to be undone. -/
  refused : memory (.buckets fresh.tuning.initialCapacity) = false → contents ≠ [] →
    outcome = (.error (Allocation.buckets fresh.tuning.initialCapacity).failure, fresh)

theorem copies_of_valuesOf_eq (h : t.WellFormed) (hnodup : contents.keys.Nodup)
    (hne : ∀ b ∈ contents, b.2 ≠ []) (hvalues : t.contents.valuesOf = contents.valuesOf) :
    t.Copies contents := by
  have hperm := Contents.perm_of_valuesOf_eq h.keys_nodup h.values_ne_nil hnodup hne hvalues
  refine ⟨h.toInvariant, h, hperm, hvalues, ?_, ?_⟩
  · rw [h.keyCount_eq_length, hperm.length_eq]
  · rw [h.pairCount_eq, ← Contents.length_pairs]
    exact (hperm.flatMap_right _).length_eq

/-- Reversed and put in front of each other, the values are in their order again. -/
theorem Filled.copies {hvalid : tuning.Valid}
    (h : (empty tuning hvalid).Filled contents.pairs.reverse t) (hnodup : contents.keys.Nodup)
    (hne : ∀ b ∈ contents, b.2 ≠ []) : t.Copies contents := by
  apply copies_of_valuesOf_eq h.wellFormed hnodup hne
  funext key
  have hempty : (empty tuning hvalid).contents.valuesOf key = [] := rfl
  rw [h.valuesOf_eq, hempty, Contents.listed_reverse, List.reverse_reverse, List.append_nil,
    Contents.listed_pairs hnodup]

/-- A fresh table becomes a copy of what a source presents. -/
theorem copyIn_fresh (h : Backend.Presents m source contents shows)
    (hfresh : ofTuning tuning = .ok fresh) (hample : memory.Ample) (identifier : String) :
    Ensures ((copyIn (m := m) (fun _ => memory) identifier source).run fresh)
      (Copied memory fresh contents) := by
  obtain ⟨hvalid, rfl⟩ := eq_empty_of_ofTuning hfresh
  let _ : Backend m Table Cursor := backendIn fun _ => memory
  apply h.copyFrom
  refine Ensures.pure ⟨rfl, ?_⟩
  by_cases hnil : contents = []
  · subst hnil
    have hcopies : (empty tuning hvalid).Copies [] :=
      copies_of_valuesOf_eq (wellFormed_empty tuning hvalid) .nil (by simp) rfl
    exact Ensures.pure ⟨fun _ => ⟨rfl, rfl, hcopies⟩, fun _ hne => absurd rfl hne⟩
  · cases hbuckets : memory (.buckets tuning.initialCapacity) with
    | true =>
        have hwf := wellFormed_empty tuning hvalid
        obtain ⟨t, hrun, hfilled⟩ := hwf.putAll (m := m) hample hbuckets contents.pairs.reverse
        have hcopies := hfilled.copies h.keys_nodup h.values_ne_nil
        have hcopied : Copied memory (empty tuning hvalid) contents (.ok (), t) :=
          ⟨fun _ => ⟨rfl, hfilled.tuning_eq, hcopies⟩, fun hrefused => by
            cases hrefused.symm.trans hbuckets⟩
        exact hrun ▸ Ensures.pure hcopied
    | false =>
        have hpairs : contents.pairs.reverse ≠ [] :=
          mt List.reverse_eq_nil_iff.1 (Contents.pairs_ne_nil hnil h.values_ne_nil)
        obtain ⟨⟨key, value⟩, pairs, hcons⟩ := List.exists_cons_of_ne_nil hpairs
        have hempty : (empty tuning hvalid).capacity = 0 := rfl
        have hrun := putAll_of_refused (m := m) hempty hbuckets key value pairs
        rw [← hcons] at hrun
        have hcopied : Copied memory (empty tuning hvalid) contents
            (.error (Allocation.buckets tuning.initialCapacity).failure, empty tuning hvalid) := by
          refine ⟨?_, fun _ _ => rfl⟩
          rintro (hgranted | hcontents)
          · cases hgranted.symm.trans hbuckets
          · exact absurd hcontents hnil
        exact hrun ▸ Ensures.pure hcopied

end Chained.Table

/-! ## Handles -/

namespace Handle

variable {h : Handle m Table} {tuning : Tuning} {fresh : Table}

/-- What becomes of the copy of a handle over a table. -/
structure Copied (h : Handle m Table) (tuning : Tuning) (identifier : String)
    (answer : Except Error (Handle m Table)) : Prop where
  ok : tuning.initialCapacity < Memory.limit ∨ h.store.contents = [] →
    ∃ copy, answer = .ok copy ∧ copy.isOpen = true ∧ copy.identifier = some identifier ∧
      copy.factory = h.factory ∧ copy.Reflects h.store.contents.valuesOf
  refused : Memory.limit ≤ tuning.initialCapacity → h.store.contents ≠ [] →
    answer = .error (Allocation.buckets tuning.initialCapacity).failure

theorem copy_fresh (hwf : h.store.WellFormed) (hfresh : Table.ofTuning tuning = .ok fresh)
    (hfactory : h.factory.create = pure fresh) (identifier : String) :
    Ensures (h.copy identifier).run (h.Copied tuning identifier) := by
  have hcopy := Table.copyIn_fresh (Backend.presents_of_wellFormed (m := m) hwf) hfresh
    Memory.ample_addressable identifier
  obtain ⟨hvalid, rfl⟩ := Table.eq_empty_of_ofTuning hfresh
  rw [copy, hfactory, pure_bind, run_liftM_bind]
  apply hcopy.bind
  rintro outcome hcopied
  by_cases hgranted : tuning.initialCapacity < Memory.limit ∨ h.store.contents = []
  · obtain ⟨hok, -, hcopies⟩ := hcopied.ok (hgranted.imp_left decide_eq_true)
    obtain ⟨answer, store⟩ := outcome
    cases hok
    refine Ensures.pure ⟨fun _ => ⟨_, rfl, rfl, rfl, rfl, ?_⟩, ?_⟩
    · exact hcopies.valuesOf_eq ▸ reflects hcopies.wellFormed
    · intro hlimit hne
      exact absurd hgranted (not_or.2 ⟨Nat.not_lt.2 hlimit, hne⟩)
  · obtain ⟨hlimit, hne⟩ := not_or.1 hgranted
    have hrefused : Memory.addressable (.buckets tuning.initialCapacity) = false :=
      decide_eq_false hlimit
    cases hcopied.refused hrefused hne
    -- The fresh table holds nothing that giving it up could touch.
    have hdiscard : Backend.discard (m := m) (Table.empty tuning hvalid) = pure () := rfl
    dsimp only
    rw [run_liftM_bind, hdiscard, pure_bind]
    exact Ensures.pure ⟨fun h => absurd h hgranted, fun _ _ => rfl⟩

end Handle

omit [LawfulMonad m] in
theorem Chained.create_of_factory {name : String} {tuning : Tuning} {f : Factory m Table}
    (h : factory name tuning id = .ok f) :
    ∃ fresh, Table.ofTuning tuning = .ok fresh ∧ f.create = pure fresh := by
  rw [factory] at h
  cases hfresh : Table.ofTuning tuning with
  | error error =>
      rw [hfresh] at h
      cases h
  | ok fresh =>
      rw [hfresh] at h
      cases h
      exact ⟨fresh, rfl, rfl⟩

/-- A copy has the keys of its source, each with the same values in the same order. The
source may be any that presents contents, every reachable table among them, and the
target a fresh table of any tuning. So the copy of a handle over a reachable table is open
and answers as the handle does. -/
theorem copies_reproduce :
    (∀ {σ κ : Type} [CursorState m κ] [Backend m σ κ] {source : σ} {contents : Contents}
        {shows : κ → Option Spot → Prop}, Backend.Presents m source contents shows →
      ∀ {tuning : Tuning} {fresh : Table}, Table.ofTuning tuning = .ok fresh →
        ∀ {memory : Memory}, memory.Ample → ∀ identifier,
          Ensures ((Table.copyIn (m := m) (fun _ => memory) identifier source).run fresh)
            (Table.Copied memory fresh contents)) ∧
    (∀ {tuning : Tuning} {t : Table}, t.Reachable tuning →
      ∃ shows, Backend.Presents m t t.contents shows) ∧
    ∀ {h : Handle m Table} {tuning : Tuning}, h.store.Reachable tuning →
      h.Reflects h.store.contents.valuesOf ∧
        ∀ {name : String} {tuning : Tuning}, factory name tuning id = .ok h.factory →
          ∀ identifier, Ensures (h.copy identifier).run (h.Copied tuning identifier) := by
  refine ⟨?_, ?_, ?_⟩
  · intro σ κ _ _ source contents shows h tuning fresh hfresh memory hample identifier
    exact Table.copyIn_fresh h hfresh hample identifier
  · intro tuning t h
    exact ⟨_, Backend.presents_of_wellFormed h.wellFormed.2⟩
  · intro h tuning hreachable
    refine ⟨Handle.reflects hreachable.wellFormed.2, ?_⟩
    intro name tuning hfactory identifier
    obtain ⟨fresh, hfresh, hcreate⟩ := create_of_factory hfactory
    exact Handle.copy_fresh hreachable.wellFormed.2 hfresh hcreate identifier

/-- Three pairs of two keys in one bucket, copied to a table that begins with one bucket
and doubles at every chance, and to one that gets no buckets at all. -/
theorem copies_over_collision :
    let source := (((Table.standard.putIn .addressable [97] [1]).2.putIn
      .addressable [105] [2]).2.putIn .addressable [97] [3]).2
    let fresh :=
      Table.empty { loadFactor := 1, initialCapacity := 1 } ⟨by decide, by decide, 0, rfl⟩
    let copied := ((Table.copyIn (m := Id) (fun _ => .addressable) "copy" source).run fresh).run
    let handle : Handle Id Table :=
      { factory := ⟨"memory", tableSize, cursorSize, pure fresh⟩,
        store := source, identifier := none }
    copied.1 = .ok () ∧ copied.2.contents.valuesOf [97] = [[3], [1]] ∧ copied.2.pairCount = 3 ∧
      (∃ copy, (handle.copy "copy").run.run = .ok copy ∧ copy.isOpen = true ∧
        copy.first? [97] = pure (some [3])) ∧
      ((Table.copyIn (m := Id) (fun _ a => a != .buckets 1) "copy" source).run fresh).run =
        (.error (.allocationFailure "allocating the bucket array"), fresh) := by
  intro source fresh copied handle
  have hreachable : source.Reachable {} :=
    (((Table.Reachable.fresh rfl).putIn _ _ _).putIn _ _ _).putIn _ _ _
  obtain ⟨hcopies, hpresents, hhandles⟩ := copies_reproduce (m := Id)
  obtain ⟨shows, hsource⟩ := hpresents hreachable
  have hfresh : Table.ofTuning { loadFactor := 1, initialCapacity := 1 } = .ok fresh := rfl
  have hcopied : Table.Copied .addressable fresh source.contents copied :=
    ensures_id_iff.1 (hcopies hsource hfresh Memory.ample_addressable "copy")
  obtain ⟨hok, -, htable⟩ := hcopied.ok (.inl rfl)
  have hfactory : factory "memory" { loadFactor := 1, initialCapacity := 1 } id =
      .ok handle.factory := rfl
  have hanswer := ensures_id_iff.1 ((hhandles (h := handle) hreachable).2 hfactory "copy")
  obtain ⟨copy, hcopy, hopen, -, -, hreflects⟩ := hanswer.ok (.inl (by decide))
  have hample : Memory.Ample (fun a => a != .buckets 1) := fun a ha => ⟨1, by simpa using ha⟩
  have hrefused := ensures_id_iff.1 (hcopies hsource hfresh hample "copy")
  refine ⟨hok, ?_, ?_, ⟨copy, hcopy, hopen, ?_⟩, ?_⟩
  · exact (congrFun htable.valuesOf_eq [97]).trans rfl
  · exact htable.pairCount_sum.trans rfl
  · exact (hreflects.first?_eq [97]).trans rfl
  · exact hrefused.refused rfl (by decide)

end Multimap
