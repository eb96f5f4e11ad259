import Mathlib.Data.List.TakeWhile
import Multimap.Chained.Cursor
import Multimap.Proofs.Chained.Reachable
import Multimap.Proofs.Traversal.Reader

/-!
# Cursors — a reader of the contents

A cursor keeps a bucket, a node and a value where a reader keeps a place in a list.
`Cursor.Shows` relates the two: the row of the node has the values already used and
the ones that are left, and the rows to its right are what is behind.

* the next occupied bucket has the next row of the layout
  (`Hangs.occupiedFrom?_cases`);
* every request leads both to the same place (`Cursor.follows_move`);
* so every list of calls gets the same answers (`answers_like_reader`).
-/

namespace Multimap.Chained

open Multimap.Traversal

namespace Table

variable {t : Table} {before behind : Layout} {f : Focus}

/-! ## The next row -/

/-- From a bucket on, no row is left, or the first of them is the first of its bucket. -/
theorem Hangs.occupiedFrom?_cases (h : t.Hangs (before ++ behind)) :
    (∃ f : Focus, f.layout = before ++ behind ∧ behind.rows = f.row :: f.right ∧
        t.occupiedFrom? before.length = some (f.before.length, f.row.slot)) ∨
      (behind.rows = [] ∧ t.occupiedFrom? before.length = none) := by
  induction behind generalizing before with
  | nil =>
      right
      have hcapacity : t.capacity = before.length := by
        simpa using h.capacity_eq
      refine ⟨rfl, ?_⟩
      rw [occupiedFrom?, dif_neg]
      rw [← capacity]
      omega
  | cons rows behind ih =>
      have hlt : before.length < t.heads.size := by
        have hcapacity := h.capacity_eq
        rw [List.length_append, List.length_cons] at hcapacity
        rw [← capacity]
        omega
      have hchain := h.isChain before.length rows (by simp)
      rw [head, Array.getD_eq_getD_getElem?, Array.getElem?_eq_getElem hlt,
        Option.getD_some] at hchain
      cases rows with
      | nil =>
          have hnone : t.heads[before.length] = none := hchain.head_eq
          have hnext : before ++ [[]] ++ behind = before ++ [] :: behind := by simp
          rw [← hnext] at h ⊢
          have hlength : (before ++ [([] : List Row)]).length = before.length + 1 := by simp
          rw [occupiedFrom?, dif_pos hlt, hnone, ← hlength]
          exact ih h
      | cons r rows =>
          left
          have hsome : t.heads[before.length] = some r.slot := hchain.head_eq
          refine ⟨⟨before, [], r, rows, behind⟩, rfl, rfl, ?_⟩
          rw [occupiedFrom?, dif_pos hlt, hsome]

/-- Behind a row there is no other one, or the next of them follows it. -/
theorem Hangs.following?_cases (h : t.Hangs f.layout) :
    (∃ g : Focus, g.layout = f.layout ∧ f.right = g.row :: g.right ∧
        t.following? f.before.length f.row.slot = some (g.before.length, g.row.slot)) ∨
      (f.right = [] ∧ t.following? f.before.length f.row.slot = none) := by
  rcases h.isChain_focus.get?_eq with ⟨next, hget, hback⟩
  cases hcases : f.back with
  | nil =>
      -- The chain ends, so the next row is in a later bucket.
      rw [hcases] at hback
      have hnone : next = none := hback.head_eq
      have hlayout : f.layout = (f.before ++ [f.front ++ [f.row]]) ++ f.behind := by
        simp [Focus.layout, hcases]
      have hlength : (f.before ++ [f.front ++ [f.row]]).length = f.before.length + 1 := by simp
      have hright : f.right = Layout.rows f.behind := by
        rw [Focus.right, hcases, List.nil_append]
      rw [following?, hget, hright, ← hlength]
      simp only [Option.bind_some, hnone]
      rw [hlayout] at h ⊢
      exact h.occupiedFrom?_cases
  | cons r back =>
      left
      rw [hcases] at hback
      have hsome : next = some r.slot := hback.head_eq
      refine ⟨⟨f.before, f.front ++ [f.row], r, back, f.behind⟩, ?_, ?_, ?_⟩
      · simp [Focus.layout, hcases]
      · simp [Focus.right, hcases]
      · rw [following?, hget]
        simp only [Option.bind_some, hsome]

end Table

namespace Cursor

variable {c : Cursor} {f : Focus} {s : Spot} {spot : Option Spot}

/-! ## Places that correspond -/

/-- A cursor is at a row, and at the spot in the contents that belongs to it. -/
structure AtRow (c : Cursor) (f : Focus) (s : Spot) : Prop where
  layout_eq : f.layout = c.table.layout
  node_eq : c.node = some f.row.slot
  bucket_eq : c.bucket = f.before.length
  key_eq : s.key = f.row.key
  behind_eq : s.behind = f.right.map Row.binding
  values_eq : ∃ used left, f.row.values = used ++ left ∧ s.remaining = left.map Prod.snd ∧
    c.value = (left.map Prod.fst).head?

/-- A cursor is where a reader is. -/
def Shows (c : Cursor) : Option Spot → Prop
  | none => c.node = none
  | some s => ∃ f, c.AtRow f s

theorem shows_ofTable (t : Table) : (ofTable t).Shows none :=
  rfl

theorem shows_exhaust : c.exhaust.Shows none :=
  rfl

/-- At the first value of a row. -/
theorem shows_position (h : c.table.WellFormed) (hlayout : f.layout = c.table.layout) :
    (c.position f.before.length f.row.slot).Shows
      (Contents.start? (f.row.binding :: f.right.map Row.binding)) := by
  have hmem : f.row ∈ c.table.layout.rows := hlayout ▸ f.row_mem
  refine ⟨f, hlayout, rfl, rfl, rfl, rfl, [], f.row.values, rfl, rfl, ?_⟩
  rw [position, h.holds.node?_eq hmem]
  exact (h.holds.stores.isChain f.row hmem).head_eq

/-! ## Moving -/

/-- Where a request leads to, in words of the contents: the cursor keeps its table,
shows the spot, and the flag says whether a value is to be seen there. -/
structure Follows (c : Cursor) (moved : Bool × Cursor) (spot : Option Spot) : Prop where
  table_eq : moved.2.table = c.table
  finished_eq : moved.2.finished = c.finished
  shows : moved.2.Shows spot
  flag_eq : moved.1 = spot.any fun s => !s.remaining.isEmpty

theorem follows_exhaust (c : Cursor) : c.Follows (false, c.exhaust) none :=
  ⟨rfl, rfl, shows_exhaust, rfl⟩

theorem follows_position (h : c.table.WellFormed) (hlayout : f.layout = c.table.layout) :
    c.Follows (true, c.position f.before.length f.row.slot)
      (Contents.start? (f.row.binding :: f.right.map Row.binding)) where
  table_eq := rfl
  finished_eq := rfl
  shows := shows_position h hlayout
  flag_eq := by
    have hvalues := (h.holds.wellFormed.row f.row (hlayout ▸ f.row_mem)).values_ne_nil
    simpa [Contents.start?, Row.binding] using hvalues

theorem dropWhile_contents (h : f.layout.contents.keys.Nodup) :
    f.layout.contents.dropWhile (·.1 != f.row.key) =
      f.row.binding :: f.right.map Row.binding := by
  have hleft : ∀ b ∈ f.left.map Row.binding, (b.1 != f.row.key) = true := by
    intro b hb
    have hne : b.1 ≠ f.row.key := by
      rintro heq
      exact f.key_notMem_left h (heq ▸ List.mem_map_of_mem hb)
    simpa using hne
  rw [Layout.contents_layout, List.dropWhile_append_of_pos hleft, List.dropWhile_cons]
  simp [Row.binding]

theorem follows_seek (h : c.table.WellFormed) (key : Bytes) :
    c.Follows (c.move (.seek key)) (c.table.contents.move spot (.seek key)) := by
  have hnodup := h.keys_nodup
  rw [move, Contents.move]
  rcases h.find?_cases key with ⟨f, hlayout, hcontents, rfl, hfind⟩ | ⟨hnotMem, hfind⟩
  · rw [hcontents] at hnodup ⊢
    rw [hfind, dropWhile_contents hnodup]
    exact follows_position h hlayout
  · have hnil : c.table.contents.dropWhile (·.1 != key) = [] := by
      rw [List.dropWhile_eq_nil_iff]
      intro b hb
      have hne : b.1 ≠ key := by
        rintro rfl
        exact hnotMem (List.mem_map_of_mem hb)
      simpa using hne
    rw [hfind, hnil]
    exact c.follows_exhaust

theorem follows_first (h : c.table.WellFormed) :
    c.Follows (c.move .first) (c.table.contents.move spot .first) := by
  have hhangs : c.table.Hangs ([] ++ c.table.layout) := h.holds.hangs
  rw [move, Contents.move, Table.contents, Layout.contents]
  rcases hhangs.occupiedFrom?_cases with ⟨f, hlayout, hrows, hfrom⟩ | ⟨hrows, hfrom⟩
  · rw [List.length_nil] at hfrom
    rw [hfrom, hrows]
    exact follows_position h hlayout
  · rw [List.length_nil] at hfrom
    rw [hfrom, hrows]
    exact c.follows_exhaust

theorem follows_nextKey (h : c.table.WellFormed) (hshows : c.Shows spot) :
    c.Follows (c.move .nextKey) (c.table.contents.move spot .nextKey) := by
  rw [move, Contents.move]
  cases spot with
  | none =>
      have hnode : c.node = none := hshows
      rw [hnode]
      exact ⟨rfl, rfl, hnode, rfl⟩
  | some s =>
      rcases hshows with ⟨f, hrow⟩
      have hhangs : c.table.Hangs f.layout := hrow.layout_eq ▸ h.holds.hangs
      rw [hrow.node_eq]
      simp only [hrow.bucket_eq, Option.bind_some, hrow.behind_eq]
      rcases hhangs.following?_cases with ⟨g, hlayout, hright, hfollowing⟩ | ⟨hright, hfollowing⟩
      · rw [hfollowing, hright]
        exact follows_position h (hlayout.trans hrow.layout_eq)
      · rw [hfollowing, hright]
        exact c.follows_exhaust

theorem follows_nextValue (h : c.table.WellFormed) (hshows : c.Shows spot) :
    c.Follows (c.move .nextValue) (c.table.contents.move spot .nextValue) := by
  rw [move, Contents.move]
  cases spot with
  | none =>
      have hnode : c.node = none := hshows
      rw [hnode]
      exact ⟨rfl, rfl, hnode, rfl⟩
  | some s =>
      rcases hshows with ⟨f, hrow⟩
      rcases hrow.values_eq with ⟨used, left, hvalues, hremaining, hvalue⟩
      rw [hrow.node_eq, hvalue, Option.map_some]
      cases left with
      | nil =>
          -- The values have run out already, and the key stays current.
          refine ⟨rfl, rfl, ⟨f, hrow.layout_eq, hrow.node_eq, hrow.bucket_eq, hrow.key_eq,
            hrow.behind_eq, used, [], hvalues, ?_, hvalue⟩, ?_⟩
          · simp [hremaining]
          · simp [hremaining]
      | cons v left =>
          have hchain := h.holds.stores.isChain f.row (hrow.layout_eq ▸ f.row_mem)
          rw [hvalues] at hchain
          rcases hchain.get?_eq with ⟨next, hget, hrest⟩
          have hnext : next = (left.map Prod.fst).head? := hrest.head_eq
          simp only [List.map_cons, List.head?_cons, hget, Option.bind_some, hnext]
          refine ⟨rfl, rfl, ⟨f, hrow.layout_eq, rfl, hrow.bucket_eq, hrow.key_eq, hrow.behind_eq,
            used ++ [v], left, ?_, ?_, rfl⟩, ?_⟩
          · rw [hvalues, List.append_cons]
          · simp [hremaining]
          · cases left with
            | nil => simp [hremaining]
            | cons w left => simp [hremaining]

/-- Every request leads to where it leads a reader. -/
theorem follows_move (h : c.table.WellFormed) (hshows : c.Shows spot) (request : Request) :
    c.Follows (c.move request) (c.table.contents.move spot request) := by
  cases request with
  | seek key => exact follows_seek h key
  | first => exact follows_first h
  | nextKey => exact follows_nextKey h hshows
  | nextValue => exact follows_nextValue h hshows

/-! ## Answers -/

theorem current?_eq (h : c.table.WellFormed) (hshows : c.Shows (some s)) (hne : s.remaining ≠ [])
    (wantValue : Bool) : c.current? wantValue = s.current? wantValue := by
  rcases hshows with ⟨f, hrow⟩
  rcases hrow.values_eq with ⟨used, left, hvalues, hremaining, hvalue⟩
  have hmem : f.row ∈ c.table.layout.rows := hrow.layout_eq ▸ f.row_mem
  cases left with
  | nil => exact absurd hremaining hne
  | cons v left =>
      have hchain := h.holds.stores.isChain f.row hmem
      rw [hvalues] at hchain
      rcases hchain.get?_eq with ⟨next, hget, -⟩
      have hnode := h.holds.node?_eq hmem
      rw [current?, Spot.current?, hrow.node_eq, hvalue, hremaining, hrow.key_eq]
      cases wantValue with
      | false => simp [hnode, Row.key]
      | true => simp [hnode, hget, Row.key]

/-- A cursor and a reader that are at the same place of the same contents. -/
structure Mirrors (c : Cursor) (r : Reader) : Prop where
  wellFormed : c.table.WellFormed
  contents_eq : r.contents = c.table.contents
  finished_eq : r.finished = c.finished
  shows : c.Shows r.spot

theorem Mirrors.get {r : Reader} (h : c.Mirrors r) (request : Request) (wantValue : Bool) :
    (c.get request wantValue).1 = (r.get request wantValue).1 ∧
      (c.get request wantValue).2.Mirrors (r.get request wantValue).2 := by
  rw [Cursor.get, Reader.get, h.finished_eq]
  cases hfinished : c.finished with
  | true => exact ⟨rfl, h⟩
  | false =>
      simp only [Bool.false_eq_true, if_false, h.contents_eq]
      have hfollows := follows_move h.wellFormed h.shows request
      have hwf : (c.move request).2.table.WellFormed := hfollows.table_eq ▸ h.wellFormed
      refine ⟨?_, hwf, ?_, ?_, hfollows.shows⟩
      · rw [hfollows.flag_eq]
        cases hspot : c.table.contents.move r.spot request with
        | none => rfl
        | some s =>
            have hshows := hfollows.shows
            rw [hspot] at hshows
            by_cases hnil : s.remaining = []
            · simp [hnil, Spot.current?]
            · simp [hnil, current?_eq hwf hshows hnil wantValue]
      · rw [hfollows.table_eq]
      · rw [hfollows.finished_eq, hfinished]

theorem Mirrors.finish {r : Reader} (h : c.Mirrors r) : c.finish.Mirrors r.finish :=
  ⟨h.wellFormed, h.contents_eq, rfl, rfl⟩

theorem mirrors_ofTable {t : Table} (h : t.WellFormed) :
    (ofTable t).Mirrors (.ofContents t.contents) :=
  ⟨h, rfl, rfl, shows_ofTable t⟩

/-- Over every reachable table a cursor answers every list of calls as a reader of its
contents does. -/
theorem answers_like_reader {tuning : Tuning} {t : Table} (h : t.Reachable tuning)
    (calls : List Call) :
    answers get finish calls (ofTable t) =
      answers Reader.get Reader.finish calls (.ofContents t.contents) :=
  answers_eq (R := Mirrors) (fun _ _ request wantValue h => h.get request wantValue)
    (fun _ _ h => h.finish) (mirrors_ofTable h.wellFormed.2) calls

/-- The key that came last is the first of its bucket. -/
theorem answers_over_collision :
    answers get finish
        [.get .first true, .get .nextValue true, .get .nextKey true, .finish, .get .first true]
        (ofTable ((Table.standard.putIn .addressable [97] [1]).2.putIn .addressable [105] [2]).2) =
      [.ok (some { key := [105], value := some [2] }), .ok none,
        .ok (some { key := [97], value := some [1] }), .error .cursorFinished] := by
  have hfresh : Table.Reachable {} Table.standard := .fresh rfl
  have hreachable := (hfresh.putIn .addressable [97] [1]).putIn .addressable [105] [2]
  exact (answers_like_reader hreachable _).trans rfl

end Cursor

end Multimap.Chained
