import Multimap.Proofs.Effects
import Multimap.Proofs.Traversal.Release

/-!
# Stability — what no traversal changes

A property of a backend's cursor is stable when neither a request nor a release takes it
away. Cursors and walks do nothing to a backend's cursor but to pass requests on and to
release it, so a stable property holds behind all calls of them:

* `Stable.performAll`, for the calls of the holder of a cursor;
* `Stable.replies`, for the calls of a walk.

What a cursor reads from is stable over a table (`stable_table`): its answers depend on
where it is, and the table that it is over is the same all the time.
-/

namespace Multimap.Traversal

variable {m : Type → Type} {κ : Type} [Monad m] [CursorState m κ] {p : κ → Prop}

/-- A property that requests and releases keep. -/
structure Stable (m : Type → Type) {κ : Type} [Monad m] [CursorState m κ] (p : κ → Prop) :
    Prop where
  get : ∀ request wantValue, Op.Keeps p (CursorState.get (m := m) request wantValue)
  finish : ∀ state, p state → Ensures (CursorState.finish (m := m) state) p

namespace Stable

variable [LawfulMonad m]

/-! ## Cursors -/

theorem run_get (h : Stable m p) {c : Cursor κ} (hp : p c.state) (request : Request)
    (wantValue : Bool) :
    Ensures ((Cursor.get (m := m) request wantValue).run c) fun outcome => p outcome.2.state := by
  apply (h.get request wantValue c.state hp).bind
  intro outcome hstate
  exact Ensures.pure hstate

theorem release (h : Stable m p) {c : Cursor κ} (hp : p c.state) :
    Ensures (c.finish (m := m)) fun c' => p c'.state := by
  rw [Cursor.finish]
  cases c.finished with
  | true => exact Ensures.pure hp
  | false =>
      apply (h.finish c.state hp).bind
      intro state hstate
      exact Ensures.pure hstate

theorem perform (h : Stable m p) {c : Cursor κ} (hp : p c.state) (use : Cursor.Use) :
    Ensures (use.perform (m := m) c) fun outcome => p outcome.2.state := by
  cases hrequest : use.request? with
  | some asked =>
      rw [Cursor.Use.perform_of_request hrequest]
      apply (h.run_get hp asked.1 asked.2).bind
      intro outcome hstate
      exact Ensures.pure hstate
  | none =>
      cases Cursor.Use.eq_finish_of_request?_eq_none hrequest
      apply (h.release hp).bind
      intro c' hstate
      exact Ensures.pure hstate

theorem performAll (h : Stable m p) {c : Cursor κ} (hp : p c.state) (uses : List Cursor.Use) :
    Ensures (Cursor.Use.performAll (m := m) uses c) fun outcome => p outcome.2.state := by
  induction uses generalizing c with
  | nil => exact Ensures.pure hp
  | cons use uses ih =>
      apply (h.perform hp use).bind
      intro outcome hstate
      apply (ih hstate).bind
      intro rest hstate'
      exact Ensures.pure hstate'

/-! ## Walks -/

theorem request (h : Stable m p) (r : Request) :
    Op.Keeps (fun w : Walk κ => p w.cursor.state) (Walk.request (m := m) r) := by
  intro w hp
  apply (h.run_get hp r w.wantValues).bind
  intro outcome hstate
  exact Ensures.pure hstate

theorem following (h : Stable m p) (scope : Scope) :
    Op.Keeps (fun w : Walk κ => p w.cursor.state) (Walk.following (m := m) scope) := by
  cases scope with
  | keys => exact h.request .nextKey
  | valuesOf key => exact h.request .nextValue
  | pairs =>
      refine (h.request .nextValue).bind ?_
      intro found
      cases found with
      | some entry => exact .pure (some entry)
      | none => exact h.request .nextKey

theorem readOn (h : Stable m p) :
    Op.Keeps (fun w : Walk κ => p w.cursor.state) (Walk.readOn (m := m)) := by
  intro w hp
  rw [run_readOn]
  cases w.opened with
  | true => exact h.following w.scope w hp
  | false => exact h.request w.scope.opening _ hp

theorem settle (h : Stable m p) {w : Walk κ} (hp : p w.cursor.state) (ahead : Ahead) :
    Ensures (w.settle (m := m) ahead) fun w' => p w'.cursor.state := by
  cases ahead with
  | entry found => exact Ensures.pure hp
  | _ =>
      -- Anything else releases the cursor.
      apply (h.release hp).bind
      intro c hstate
      exact Ensures.pure hstate

theorem peek (h : Stable m p) {w : Walk κ} (hp : p w.cursor.state) :
    Ensures (w.peek (m := m)) fun w' => p w'.cursor.state := by
  by_cases hread : w.ahead = .unread
  · rw [Walk.peek_of_unread hread]
    apply (h.readOn w hp).bind
    intro outcome hstate
    exact h.settle hstate _
  · rw [Walk.peek_of_read hread]
    exact Ensures.pure hp

theorem atEnd (h : Stable m p) {w : Walk κ} (hp : p w.cursor.state) :
    Ensures (w.atEnd (m := m)) fun outcome => p outcome.2.cursor.state := by
  apply (h.peek hp).bind
  intro w' hstate
  exact Ensures.pure hstate

theorem next (h : Stable m p) {w : Walk κ} (hp : p w.cursor.state) :
    Ensures (w.next (m := m)) fun outcome => p outcome.2.cursor.state := by
  apply (h.peek hp).bind
  intro w' hstate
  cases w'.ahead with
  | _ => exact Ensures.pure hstate

theorem reply (h : Stable m p) {w : Walk κ} (hp : p w.cursor.state) (ask : Ask) :
    Ensures (w.reply (m := m) ask) fun outcome => p outcome.2.cursor.state := by
  cases ask with
  | atEnd =>
      apply (h.atEnd hp).bind
      intro outcome hstate
      exact Ensures.pure hstate
  | next =>
      apply (h.next hp).bind
      intro outcome hstate
      exact Ensures.pure hstate

theorem replies (h : Stable m p) {w : Walk κ} (hp : p w.cursor.state) (asks : List Ask) :
    Ensures (Walk.replies (m := m) asks w) fun outcome => p outcome.2.cursor.state := by
  induction asks generalizing w with
  | nil => exact Ensures.pure hp
  | cons ask asks ih =>
      apply (h.reply hp ask).bind
      intro outcome hstate
      apply (ih hstate).bind
      intro rest hstate'
      exact Ensures.pure hstate'

end Stable

end Multimap.Traversal

namespace Multimap.Chained.Cursor

open Multimap.Traversal

/-! ## Cursors over tables -/

theorem table_goTo (c : Cursor) (place : Option (Nat × Slot)) :
    (c.goTo place).2.table = c.table := by
  cases place <;> rfl

theorem table_move (c : Cursor) (request : Request) : (c.move request).2.table = c.table := by
  cases request with
  | seek key => exact c.table_goTo _
  | first => exact c.table_goTo _
  | nextKey =>
      rw [move]
      cases c.node with
      | none => rfl
      | some slot => exact c.table_goTo _
  | nextValue =>
      rw [move]
      split <;> rfl

/-- A cursor stays over its table. -/
theorem stable_table {m : Type → Type} [Monad m] [LawfulMonad m] (t : Table) :
    Stable m fun c : Cursor => c.table = t where
  get request wantValue := by
    refine .ofStep ?_
    intro c htable
    rw [get]
    cases c.finished with
    | true => exact htable
    | false => exact (c.table_move request).trans htable
  finish state htable := Ensures.pure htable

end Multimap.Chained.Cursor
