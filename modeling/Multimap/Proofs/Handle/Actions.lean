import Multimap.Handle.Listing
import Multimap.Proofs.Handle.Watched
import Multimap.Proofs.Traversal.Release

/-!
# Actions — what an operation does to a handle

A handle sets its identifier and whether it is open around calls that may fail. Opening an
open handle and closing a closed one have no effects at all; in all other cases opening and
closing are one call of the backend, and what the handle is then depends on the answer
alone. Other operations leave the handle as open as it was, and its backend too.

* `Action` is an operation on a handle, and `live` what comes of a list of them;
* `Moves` says what an action may do, one case for each way in which it can end;
* every action keeps to it (`moves_perform`), and what can be told from it depends on the
  action and on whether the handle was open (`Moves.of_answered` and its siblings).
-/

namespace Multimap.Handle

open Multimap.Traversal

/-! ## Actions -/

/-- How an operation ends. -/
inductive Outcome where
  | done
  | failed (error : Error)
  | misused (misuse : Misuse)
  deriving DecidableEq, Repr

/-- How an operation with an answer ends. -/
def Outcome.ofAnswer {α : Type} : Except Error α → Outcome
  | .ok _ => .done
  | .error error => .failed error

/-- An operation on a handle. Cursors and walks are used, and given up, in one action; a copy
has a life of its own. Operations without effects are left out. -/
inductive Action (m : Type → Type) where
  | openAs (request : OpenRequest m)
  | close
  | put (key value : Bytes)
  | erase (key : Bytes)
  | erasePair (key value : Bytes)
  | sync
  | takeText? (key : String)
  | putText (key value : String)
  | putSettings (text : String)
  | putTexts (texts : List String)
  | contains (key : Bytes) (value : Option Bytes)
  | cursor (uses : List Cursor.Use)
  | walk (scope : Scope) (wantValues : Bool) (asks : List Ask)
  | first? (key : Bytes)
  | getText? (key : String)
  | getBool? (key : String)
  | getInt? (key : String)
  | listing
  | copy (identifier : String)

section Perform

variable {m : Type → Type} {σ κ α : Type} [Monad m]

/-- Lets an operation change the handle. -/
def change (op : Op m (Handle m σ) α) (h : Handle m σ) : m (Outcome × Handle m σ) := do
  let (answer, h) ← op.run h
  return (.ofAnswer answer, h)

/-- Lets an operation look at the handle. -/
def look (query : Handle m σ → Query m α) (h : Handle m σ) : m (Outcome × Handle m σ) := do
  let answer ← (query h).run
  return (.ofAnswer answer, h)

variable [CursorState m κ] [Backend m σ κ]

/-- Performs an action. -/
def perform (h : Handle m σ) : Action m → m (Outcome × Handle m σ)
  | .openAs request => change (Handle.openAs request) h
  | .close => change Handle.close h
  | .put key value => change (Handle.put key value) h
  | .erase key => change (Handle.erase key) h
  | .erasePair key value => change (Handle.erasePair key value) h
  | .sync => change Handle.sync h
  | .takeText? key => change (Handle.takeText? key) h
  | .putText key value => change (Handle.putText key value) h
  | .putSettings text => change (Handle.putSettings text) h
  | .putTexts texts =>
      match Handle.putTexts texts with
      | .ok op => change op h
      | .error misuse => return (.misused misuse, h)
  | .contains key value => look (·.contains key value) h
  | .cursor uses => h.look fun h => do
      let cursor ← h.cursor
      let (_, cursor) ← Cursor.Use.performAll (m := m) uses cursor
      cursor.discard (m := m)
  | .walk scope wantValues asks => h.look fun h => do
      let walk ← h.walk scope wantValues
      let (_, walk) ← Walk.replies (m := m) asks walk
      walk.discard (m := m)
  | .first? key => look (·.first? key) h
  | .getText? key => look (·.getText? key) h
  | .getBool? key => look (·.getBool? key) h
  | .getInt? key => look (·.getInt? key) h
  | .listing => h.look fun h => (h.listing : m Listing)
  | .copy identifier => look (·.copy identifier) h

/-- An action that was performed, and the handle before and after it. -/
structure Step (m : Type → Type) (σ : Type) where
  action : Action m
  before : Handle m σ
  outcome : Outcome
  after : Handle m σ

/-- Performs actions, one behind the other. -/
def live : List (Action m) → Handle m σ → m (List (Step m σ) × Handle m σ)
  | [], h => return ([], h)
  | action :: actions, h => do
      let (outcome, after) ← h.perform action
      let (steps, last) ← live actions after
      return ({ action, before := h, outcome, after } :: steps, last)

end Perform

/-- Whether an action neither opens nor closes. -/
def Action.IsUse {m : Type → Type} : Action m → Prop
  | .openAs _ | .close => False
  | _ => True

/-! ## Opening and closing -/

section Effects

variable {m : Type → Type} {σ κ : Type} [Monad m] [Backend m σ κ] {h : Handle m σ}

/-- An open handle is not opened again, and there are no effects at all. -/
theorem run_openAs_of_open (hopen : h.isOpen = true) (request : OpenRequest m) :
    (Handle.openAs request).run h =
      pure (.error (.alreadyOpen (h.identifier.getD "")), h) := by
  have hrun : (Handle.openAs request).run h =
      if h.isOpen then pure (.error (.alreadyOpen (h.identifier.getD "")), h) else _ := rfl
  rw [hrun, if_pos hopen]

/-- What becomes of a closed handle once its backend has answered. -/
def answered (h : Handle m σ) (identifier : String) (store : σ) : Except Error Unit → Handle m σ
  | .ok _ => { h with store, identifier := some identifier, isOpen := true }
  | .error _ => { h with store, identifier := none }

/-- A closed handle opens its backend by one call. -/
theorem run_openAs_of_closed [LawfulMonad m] (hclosed : h.isOpen = false)
    (request : OpenRequest m) :
    (Handle.openAs request).run h = (Backend.openAs request).run h.store >>= fun (answer, store) =>
      pure (answer, h.answered request.identifier store answer) := by
  -- Both sides ask the backend first, and then go by its answer.
  have hrun : (Handle.openAs request).run h = if h.isOpen then _ else
      (Backend.openAs request).run h.store >>= fun outcome => _ := rfl
  rw [hrun, if_neg (hclosed ▸ Bool.false_ne_true)]
  refine bind_congr ?_
  rintro ⟨answer, store⟩
  cases answer <;> rfl

/-- Closing a closed handle has no effects at all. -/
theorem run_close_of_closed (hclosed : h.isOpen = false) :
    Handle.close.run h = pure (.ok (), h) := by
  have hrun : Handle.close.run h = if h.isOpen then _ else pure (.ok (), h) := rfl
  rw [hrun, if_neg (hclosed ▸ Bool.false_ne_true)]

/-- An open handle closes its backend by one call. -/
theorem run_close_of_open (hopen : h.isOpen = true) :
    Handle.close.run h = Backend.close.run h.store >>= fun (answer, store) =>
      pure (answer, { h with store, identifier := none, isOpen := false }) := by
  have hrun : Handle.close.run h = if h.isOpen then
      Backend.close.run h.store >>= fun (answer, store) =>
        pure (answer, { h with store, identifier := none, isOpen := false }) else _ := rfl
  rw [hrun, if_pos hopen]

/-- Giving up an open handle closes its backend, and discards it as it is then. -/
theorem discard_of_open [LawfulMonad m] (hopen : h.isOpen = true) :
    h.discard = Backend.close.run h.store >>= fun outcome => Backend.discard outcome.2 := by
  have hrun : h.discard = Handle.close.run h >>= fun outcome => Backend.discard outcome.2.store :=
    rfl
  rw [hrun, run_close_of_open hopen, bind_assoc]
  exact bind_congr fun _ => pure_bind _ _

/-- Giving up a closed handle discards its backend, and does nothing else. -/
theorem discard_of_closed [LawfulMonad m] (hclosed : h.isOpen = false) :
    h.discard = Backend.discard h.store := by
  have hrun : h.discard = Handle.close.run h >>= fun outcome => Backend.discard outcome.2.store :=
    rfl
  rw [hrun, run_close_of_closed hclosed]
  exact pure_bind _ _

end Effects

/-! ## What an action does -/

section Moves

variable {m : Type → Type} {σ κ : Type}

/-- What an action may do to a handle, and how it ends then. -/
inductive Moves (h : Handle m (Watched σ)) : Action m → Outcome → Handle m (Watched σ) → Prop where
  /-- The handle is open: nothing changes. -/
  | alreadyOpen {request : OpenRequest m} : h.isOpen = true →
      Moves h (.openAs request) (.failed (.alreadyOpen (h.identifier.getD ""))) h
  /-- The backend agrees or refuses; its error is passed on. -/
  | answered {request : OpenRequest m} {store : Watched σ} (answer : Except Error Unit) :
      h.isOpen = false → store.calls = h.store.calls ++ [.openAs request.identifier answer] →
      Moves h (.openAs request) (.ofAnswer answer) (h.answered request.identifier store answer)
  /-- The handle is closed: nothing changes. -/
  | alreadyClosed : h.isOpen = false → Moves h .close .done h
  /-- The backend is closed, whatever it answers. -/
  | closed {store : Watched σ} (answer : Except Error Unit) : h.isOpen = true →
      store.calls = h.store.calls ++ [.close answer] →
      Moves h .close (.ofAnswer answer) { h with store, identifier := none, isOpen := false }
  | used {action : Action m} {outcome : Outcome} {after : Handle m (Watched σ)} :
      action.IsUse → h.Used after → Moves h action outcome after

variable [Monad m] [LawfulMonad m] {h : Handle m (Watched σ)} {action : Action m}

theorem moves_change {α : Type} {op : Op m (Handle m (Watched σ)) α} (hop : Op.Keeps h.Used op)
    (huse : action.IsUse) :
    Ensures (change op h) fun outcome => Moves h action outcome.1 outcome.2 :=
  (hop h (.refl h)).bind fun _ hused => Ensures.pure (.used huse hused)

theorem moves_look {α : Type} (query : Handle m (Watched σ) → Query m α) (huse : action.IsUse) :
    Ensures (look query h) fun outcome => Moves h action outcome.1 outcome.2 :=
  (ensures_true _).bind fun _ _ => Ensures.pure (.used huse (.refl h))

variable [Backend m σ κ]

theorem moves_openAs (h : Handle m (Watched σ)) (request : OpenRequest m) :
    Ensures (change (Handle.openAs request) h) fun outcome =>
      Moves h (.openAs request) outcome.1 outcome.2 := by
  rw [change]
  cases hisOpen : h.isOpen with
  | true =>
      rw [run_openAs_of_open hisOpen, pure_bind]
      exact Ensures.pure (.alreadyOpen hisOpen)
  | false =>
      rw [run_openAs_of_closed hisOpen, bind_assoc]
      apply (Watched.ensures_watch _ _ h.store).bind
      rintro ⟨answer, store⟩ hcalls
      rw [pure_bind]
      exact Ensures.pure (.answered answer hisOpen hcalls)

theorem moves_close (h : Handle m (Watched σ)) :
    Ensures (change (Handle.close (m := m)) h) fun outcome =>
      Moves h .close outcome.1 outcome.2 := by
  rw [change]
  cases hisOpen : h.isOpen with
  | true =>
      rw [run_close_of_open hisOpen, bind_assoc]
      apply (Watched.ensures_watch _ _ h.store).bind
      rintro ⟨answer, store⟩ hcalls
      rw [pure_bind]
      exact Ensures.pure (.closed answer hisOpen hcalls)
  | false =>
      rw [run_close_of_closed hisOpen, pure_bind]
      exact Ensures.pure (.alreadyClosed hisOpen)

/-- Every action does what `Moves` says, and nothing else. -/
theorem moves_perform [CursorState m κ] (h : Handle m (Watched σ)) (action : Action m) :
    Ensures (h.perform action) fun outcome => Moves h action outcome.1 outcome.2 := by
  cases action with
  | openAs request => exact h.moves_openAs request
  | close => exact h.moves_close
  | put key value => exact moves_change (h.keeps_put key value) trivial
  | erase key => exact moves_change (h.keeps_erase key) trivial
  | erasePair key value => exact moves_change (h.keeps_erasePair key value) trivial
  | sync => exact moves_change h.keeps_sync trivial
  | takeText? key => exact moves_change (h.keeps_takeText? key) trivial
  | putText key value => exact moves_change (h.keeps_put _ _) trivial
  | putSettings text => exact moves_change (h.keeps_putItems _) trivial
  | putTexts texts =>
      rw [perform, Handle.putTexts]
      -- A key left over is noticed before anything is added.
      by_cases hpaired : texts.length % 2 = 0
      · rw [if_pos hpaired]
        exact moves_change (h.keeps_putAlternating texts) trivial
      · rw [if_neg hpaired]
        exact Ensures.pure (.used trivial (.refl h))
  | _ =>
      -- All others only look at the handle.
      rw [perform]
      exact moves_look _ trivial

end Moves

/-! ## What a move tells -/

section Told

variable {m : Type → Type} {σ : Type} {before after : Handle m (Watched σ)} {action : Action m}
  {outcome : Outcome}

theorem Moves.of_alreadyOpen {request : OpenRequest m}
    (hmoves : Moves before (.openAs request) outcome after) (hopen : before.isOpen = true) :
    outcome = .failed (.alreadyOpen (before.identifier.getD "")) ∧ after = before := by
  cases hmoves with
  | alreadyOpen _ => exact ⟨rfl, rfl⟩
  | answered answer hclosed _ => exact nomatch hclosed.symm.trans hopen
  | used huse _ => exact huse.elim

theorem Moves.of_answered {request : OpenRequest m}
    (hmoves : Moves before (.openAs request) outcome after) (hclosed : before.isOpen = false) :
    ∃ answer, outcome = .ofAnswer answer ∧
      after.store.calls = before.store.calls ++ [.openAs request.identifier answer] ∧
      (answer = .ok () → after.isOpen = true ∧ after.identifier = some request.identifier) ∧
      ∀ error, answer = .error error → after.isOpen = false ∧ after.identifier = none := by
  cases hmoves with
  | alreadyOpen hopen => exact nomatch hclosed.symm.trans hopen
  | answered answer _ hcalls =>
      cases answer with
      | ok _ => exact ⟨.ok (), rfl, hcalls, fun _ => ⟨rfl, rfl⟩, nofun⟩
      | error error => exact ⟨.error error, rfl, hcalls, nofun, fun _ _ => ⟨hclosed, rfl⟩⟩
  | used huse _ => exact huse.elim

theorem Moves.of_alreadyClosed (hmoves : Moves before .close outcome after)
    (hclosed : before.isOpen = false) : outcome = .done ∧ after = before := by
  cases hmoves with
  | alreadyClosed _ => exact ⟨rfl, rfl⟩
  | closed answer hopen _ => exact nomatch hclosed.symm.trans hopen
  | used huse _ => exact huse.elim

theorem Moves.of_closed (hmoves : Moves before .close outcome after)
    (hopen : before.isOpen = true) :
    ∃ answer, outcome = .ofAnswer answer ∧
      after.store.calls = before.store.calls ++ [.close answer] ∧
      after.isOpen = false ∧ after.identifier = none := by
  cases hmoves with
  | alreadyClosed hclosed => exact nomatch hclosed.symm.trans hopen
  | closed answer _ hcalls => exact ⟨answer, rfl, hcalls, rfl, rfl⟩
  | used huse _ => exact huse.elim

theorem Moves.of_used (hmoves : Moves before action outcome after) (huse : action.IsUse) :
    before.Used after := by
  cases hmoves with
  | used _ hused => exact hused
  | alreadyOpen _ => exact huse.elim
  | answered _ _ _ => exact huse.elim
  | alreadyClosed _ => exact huse.elim
  | closed _ _ _ => exact huse.elim

end Told

end Multimap.Handle
