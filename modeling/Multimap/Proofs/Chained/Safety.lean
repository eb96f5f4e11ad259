import Multimap.Proofs.Chained.Growth
import Multimap.Proofs.Chained.Guarded

/-!
# Safety — runs that never fault

A run takes actions on a table: operations, each in a memory of its own that may refuse anything,
and between them walks of cursors, with any requests. It is taken once as it is and once with a
guard before every step that could go wrong; the two have the same outcomes, so no guard stops
anything.

* A cursor that shows a spot of the contents is at a node and a value that are there, so its
  requests pass their guards (`Guarded.get_eq`), and so does every walk (`Guarded.answers_eq`).
* An action on a well-formed table passes its guards (`Guarded.act_eq`) and leaves the table well
  formed (`WellFormed.act`), and so does a run (`WellFormed.guarded_actAll`).
* A fresh table is well formed, whatever its tuning (`runs_without_fault`).
-/

namespace Multimap.Chained

open Multimap.Traversal

/-- The value that a cursor is at is one of its row, so it is there. -/
theorem Cursor.AtRow.exists_value {c : Cursor} {f : Focus} {s : Spot} {slot : Slot}
    (hrow : c.AtRow f s) (h : c.table.WellFormed) (hvalue : c.value = some slot) :
    ∃ cell, c.table.values.get? slot = some cell := by
  obtain ⟨used, left, hvalues, -, hleft⟩ := hrow.values_eq
  have hchain := h.holds.stores.isChain f.row (hrow.layout_eq ▸ f.row_mem)
  rw [hleft] at hvalue
  have hmem : slot ∈ f.row.values.map Prod.fst := by
    rw [hvalues, List.map_append]
    exact List.mem_append_right _ (List.mem_of_head? hvalue)
  exact Option.isSome_iff_exists.1 (hchain.isSome_get? slot hmem)

namespace Guarded

variable {c : Cursor} {f : Focus} {spot : Option Spot}

/-! ## Cursors -/

theorem goTo_eq (h : c.table.WellFormed) (hlayout : f.layout = c.table.layout) :
    goTo c (some (f.before.length, f.row.slot)) =
      .ok (c.goTo (some (f.before.length, f.row.slot))) := by
  have hmem : f.row ∈ c.table.layout.rows := hlayout ▸ f.row_mem
  obtain ⟨next, hget⟩ := h.holds.hangs.get?_eq hmem
  rw [goTo, follow_eq hget, ok_bind, Cursor.goTo, Cursor.position, h.holds.node?_eq hmem]
  rfl

theorem following?_eq (h : c.table.WellFormed) (hlayout : f.layout = c.table.layout)
    (bucket : Nat) :
    following? c.table bucket f.row.slot = .ok (c.table.following? bucket f.row.slot) := by
  have hmem : f.row ∈ c.table.layout.rows := hlayout ▸ f.row_mem
  obtain ⟨next, hget⟩ := h.holds.hangs.get?_eq hmem
  rw [following?, follow_eq hget, ok_bind, Table.following?, hget]
  cases next with
  | none => rfl
  | some next => rfl

theorem move_eq (h : c.table.WellFormed) (hshows : c.Shows spot) (request : Request) :
    move c request = .ok (c.move request) := by
  cases request with
  | seek key =>
      rw [move, find?_eq h, ok_bind, Cursor.move]
      rcases h.find?_cases key with ⟨f, hlayout, -, -, hfind⟩ | ⟨-, hfind⟩
      · rw [hfind]
        exact goTo_eq h hlayout
      · rw [hfind]
        rfl
  | first =>
      have hhangs : c.table.Hangs ([] ++ c.table.layout) := h.holds.hangs
      rw [move, Cursor.move]
      rcases hhangs.occupiedFrom?_cases with ⟨f, hlayout, -, hfrom⟩ | ⟨-, hfrom⟩
      · rw [List.length_nil] at hfrom
        rw [hfrom]
        exact goTo_eq h hlayout
      · rw [List.length_nil] at hfrom
        rw [hfrom]
        rfl
  | nextKey =>
      rw [move, Cursor.move]
      cases spot with
      | none =>
          have hnode : c.node = none := hshows
          rw [hnode]
      | some s =>
          obtain ⟨f, hrow⟩ := hshows
          have hhangs : c.table.Hangs f.layout := hrow.layout_eq ▸ h.holds.hangs
          rw [hrow.node_eq]
          simp only [hrow.bucket_eq, following?_eq h hrow.layout_eq, ok_bind]
          rcases hhangs.following?_cases with ⟨g, hlayout, -, hfollowing⟩ | ⟨-, hfollowing⟩
          · rw [hfollowing]
            exact goTo_eq h (hlayout.trans hrow.layout_eq)
          · rw [hfollowing]
            rfl
  | nextValue =>
      rw [move, Cursor.move]
      cases spot with
      | none =>
          have hnode : c.node = none := hshows
          rw [hnode]
      | some s =>
          obtain ⟨f, hrow⟩ := hshows
          cases hvalue : c.value with
          | none => rw [hrow.node_eq]
          | some slot =>
              obtain ⟨cell, hget⟩ := hrow.exists_value h hvalue
              rw [hrow.node_eq]
              simp only [follow_eq hget, ok_bind, hget, Option.bind_some]
              rfl

theorem current?_eq (h : c.table.WellFormed) (hshows : c.Shows spot) (wantValue : Bool) :
    current? c wantValue = .ok (c.current? wantValue) := by
  cases spot with
  | none =>
      have hnode : c.node = none := hshows
      rw [current?, Cursor.current?, hnode]
      rfl
  | some s =>
      obtain ⟨f, hrow⟩ := hshows
      have hmem : f.row ∈ c.table.layout.rows := hrow.layout_eq ▸ f.row_mem
      obtain ⟨next, hget⟩ := h.holds.hangs.get?_eq hmem
      have hnode := h.holds.node?_eq hmem
      simp only [current?, Cursor.current?, hrow.node_eq, follow_eq hget, ok_bind,
        Option.bind_eq_bind, Option.bind_some, hnode]
      cases hvalue : c.value with
      | none => cases wantValue <;> rfl
      | some slot =>
          obtain ⟨cell, hcell⟩ := hrow.exists_value h hvalue
          cases wantValue with
          | false => rfl
          | true =>
              simp only [follow_eq hcell, ok_bind, if_true, Option.bind_some, hcell]
              rfl

theorem get_eq {r : Reader} (h : c.Mirrors r) (request : Request) (wantValue : Bool) :
    get c request wantValue = .ok (c.get request wantValue) := by
  rw [get, Cursor.get]
  split
  · rfl
  · have hfollows := Cursor.follows_move h.wellFormed h.shows request
    have hwf : (c.move request).2.table.WellFormed := hfollows.table_eq ▸ h.wellFormed
    rw [move_eq h.wellFormed h.shows request, ok_bind]
    dsimp only
    split
    · rw [current?_eq hwf hfollows.shows, ok_bind]
      rfl
    · rfl

/-- The answers of a cursor to some calls. -/
def answers : List Call → Cursor → Except Fault (List Answer)
  | [], _ => .ok []
  | .get request wantValue :: calls, c => do
      let (answer, c) ← get c request wantValue
      let rest ← answers calls c
      return answer :: rest
  | .finish :: calls, c => answers calls c.finish

theorem answers_eq {r : Reader} (h : c.Mirrors r) (calls : List Call) :
    answers calls c = .ok (Traversal.answers Cursor.get Cursor.finish calls c) := by
  induction calls generalizing c r with
  | nil => rfl
  | cons call calls ih =>
      cases call with
      | get request wantValue =>
          rw [answers, get_eq h, ok_bind]
          dsimp only
          rw [ih (h.get request wantValue).2, ok_bind, Traversal.answers]
          rfl
      | finish => exact ih h.finish

end Guarded

/-! ## Runs -/

/-- What is done with a table: an operation in some memory, or a walk of a new cursor. -/
inductive Action where
  | perform (memory : Memory) (op : Operation)
  | walk (calls : List Call)

/-- What is answered to an action. -/
inductive Outcome where
  | performed (answer : Except Error (Option Bool))
  | walked (answers : List Answer)
  deriving DecidableEq, Repr

namespace Table

/-- Takes an action. -/
def act (t : Table) : Action → Outcome × Table
  | .perform memory op =>
      let (answer, t) := t.performIn memory op
      (.performed answer, t)
  | .walk calls => (.walked (answers Cursor.get Cursor.finish calls (.ofTable t)), t)

/-- Takes actions one after the other. -/
def actAll (t : Table) : List Action → List Outcome × Table
  | [] => ([], t)
  | action :: actions =>
      let (outcome, t) := t.act action
      let (outcomes, t) := t.actAll actions
      (outcome :: outcomes, t)

end Table

namespace Guarded

/-- Performs an operation. -/
def performIn (t : Table) (memory : Memory) :
    Operation → Except Fault (Except Error (Option Bool) × Table)
  | .put key value => do
      let (answer, t) ← putIn memory t key value
      return (answer.map fun _ => none, t)
  | .erase key => do
      let (found, t) ← erase t key
      return (.ok (some found), t)
  | .erasePair key value => do
      let (found, t) ← erasePair t key value
      return (.ok (some found), t)
  | .contains key value => do
      let found ← contains t key value
      return (.ok (some found), t)
  | .close => .ok (.ok none, t.clear)

/-- Takes an action. -/
def act (t : Table) : Action → Except Fault (Outcome × Table)
  | .perform memory op => do
      let (answer, t) ← performIn t memory op
      return (.performed answer, t)
  | .walk calls => do
      let answers ← answers calls (.ofTable t)
      return (.walked answers, t)

/-- Takes actions one after the other. -/
def actAll (t : Table) : List Action → Except Fault (List Outcome × Table)
  | [] => .ok ([], t)
  | action :: actions => do
      let (outcome, t) ← act t action
      let (outcomes, t) ← actAll t actions
      return (outcome :: outcomes, t)

variable {t : Table}

theorem performIn_eq (h : t.WellFormed) (memory : Memory) (op : Operation) :
    performIn t memory op = .ok (t.performIn memory op) := by
  cases op with
  | put key value =>
      rw [performIn, putIn_eq memory h, ok_bind]
      rfl
  | erase key =>
      rw [performIn, erase_eq h, ok_bind]
      rfl
  | erasePair key value =>
      rw [performIn, erasePair_eq h, ok_bind]
      rfl
  | contains key value =>
      rw [performIn, contains_eq h, ok_bind]
      rfl
  | close => rfl

theorem act_eq (h : t.WellFormed) (action : Action) : act t action = .ok (t.act action) := by
  cases action with
  | perform memory op =>
      rw [act, performIn_eq h, ok_bind]
      rfl
  | walk calls =>
      rw [act, answers_eq (Cursor.mirrors_ofTable h), ok_bind]
      rfl

end Guarded

namespace Table

variable {t : Table}

theorem WellFormed.act (h : t.WellFormed) (action : Action) : (t.act action).2.WellFormed := by
  cases action with
  | perform memory op => exact h.performIn memory op
  | walk calls => exact h

/-- A run passes its guards from every well-formed table on. -/
theorem WellFormed.guarded_actAll (h : t.WellFormed) (actions : List Action) :
    Guarded.actAll t actions = .ok (t.actAll actions) := by
  induction actions generalizing t with
  | nil => rfl
  | cons action actions ih =>
      rw [Guarded.actAll, Guarded.act_eq h, Guarded.ok_bind]
      dsimp only
      rw [ih (h.act action), Guarded.ok_bind, actAll]
      rfl

/-- In every run on a fresh table of a valid tuning, and in whatever memory, no guard stops
anything. The bucket of a digest is computed only where there are buckets and is one of them,
every link that is followed leads to a cell that is there, a node is taken out only where it is,
no count is lowered below zero, and no walk along a chain takes more steps than there are nodes or
values when it begins. -/
theorem runs_without_fault {tuning : Tuning} (hvalid : tuning.Valid) (actions : List Action) :
    Guarded.actAll (empty tuning hvalid) actions = .ok ((empty tuning hvalid).actAll actions) :=
  (wellFormed_empty tuning hvalid).guarded_actAll actions

/-- Memory refuses the first pair. Two keys then share one of two buckets. A value goes from
behind another one, a node with its last value from behind another node, and a node that leaves
its bucket empty. -/
theorem no_fault_over_collision :
    let tuning : Tuning := { loadFactor := 999, initialCapacity := 1 }
    let add (key value : Bytes) : Action := .perform .addressable (.put key value)
    let drop (key value : Bytes) : Action := .perform .addressable (.erasePair key value)
    (Guarded.actAll (empty tuning ⟨by decide, by decide, 0, rfl⟩)
      [.perform (fun _ => false) (.put [97] [1]), add [97] [1], add [99] [2], add [97] [3],
        .walk [.get .first true, .get .nextKey true, .get .nextValue true, .get .nextValue true],
        drop [97] [1], drop [97] [3], .perform .addressable (.erase [99])]).map Prod.fst =
      .ok [.performed (.error (.allocationFailure "allocating the bucket array")),
        .performed (.ok none), .performed (.ok none), .performed (.ok none),
        .walked [.ok (some { key := [99], value := some [2] }),
          .ok (some { key := [97], value := some [3] }),
          .ok (some { key := [97], value := some [1] }), .ok none],
        .performed (.ok (some true)), .performed (.ok (some true)),
        .performed (.ok (some true))] := by
  intro tuning add drop
  rw [runs_without_fault]
  decide +kernel

end Table

end Multimap.Chained
