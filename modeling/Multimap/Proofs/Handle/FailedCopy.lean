import Multimap.Proofs.Handle.Life

/-!
# Copies that fail — what becomes of the fresh backend

No handle owns the backend of a copy until all of the copy has succeeded. So a copy that fails on
the way gives an open backend up without closing it, unlike every handle that is given up
(`Sound.ensures_settled`).

* `Leaves` says what an attempt leaves behind: a backend that was opened is open still;
* `copies_leave_open` puts together what this means for the backend.
-/

namespace Multimap.Handle

open Multimap.Traversal

section Watching

variable {m : Type → Type} {σ κ : Type} [Monad m] [LawfulMonad m] [Backend m σ κ]
  [CursorState m κ]

/-! ## Copies -/

/-- What becomes of the fresh backend of a copy, by the answer and the calls of an attempt. -/
structure Leaves (identifier : String) (answer : Except Error Unit) (calls : List StoreCall) :
    Prop where
  attempted : Attempted identifier answer calls
  /-- A backend that was opened was opened once and is not closed, -/
  open_of_opened : .openAs identifier (.ok ()) ∈ calls →
    Leads false calls true ∧ ∀ closing, .close closing ∉ calls
  /-- so it is not settled when it is discarded. -/
  not_settled : .openAs identifier (.ok ()) ∈ calls → ¬ Settled calls

/-- A copy is an attempt and its conclusion. If the attempt fails, then the conclusion discards
the backend as the attempt leaves it, and a backend that was opened is left open. -/
theorem copies_leave_open (factory : Factory m σ) (source : Handle m (Watched σ))
    (identifier : String) :
    let h : Handle m (Watched σ) := { source with factory := factory.watched }
    h.copy identifier = h.attempt identifier >>= conclude factory.watched identifier ∧
      Yields (h.attempt identifier) fun outcome =>
        Leaves identifier outcome.1 outcome.2.calls := by
  intro h
  constructor
  · exact copy_eq h identifier
  · refine (yields_attempted factory source identifier).mono ?_
    intro answer hyields outcome houtcome
    have hattempted := hyields outcome houtcome
    refine ⟨hattempted, ?_, ?_⟩
    · intro hopened
      exact ⟨hattempted.leads hopened, hattempted.close_notMem⟩
    · -- A settled backend would have been closed behind its opening.
      intro hopened hsettled
      rcases List.append_of_mem hopened with ⟨front, rest, hcalls⟩
      rcases hsettled.closed_once front identifier rest hcalls with ⟨count, closing, later, rfl⟩
      exact hattempted.close_notMem closing (hcalls ▸ by simp)

/-- A source of two pairs, of which the second one is not added to the copy. -/
theorem left_open_by_second_put :
    let _ : Probe.Journal Id := ⟨fun _ => ()⟩
    let factory : Factory Id Probe.Store := Probe.factory "p" { putAt := some 2 } 1 1 id
    let full : Probe.Store :=
      { name := "p", faults := {}, inner := (Ordered.Store.empty.put [97] [1]).put [98] [2],
        puts := 0 }
    let source : Handle Id (Watched Probe.Store) :=
      { factory := factory.watched, store := { store := full, calls := [] }, identifier := none }
    ∃ left, (source.attempt "copy").run.run = .ok (.error (.backend "p" "put failed"), left) ∧
      left.calls = [.openAs "copy" (.ok ()), .use, .use] ∧ ¬ Settled left.calls := by
  intro journal factory full source
  have hleaves := (copies_leave_open factory source "copy").2
  have hrun : ∃ left, (source.attempt "copy").run.run =
      .ok (.error (.backend "p" "put failed"), left) ∧
        left.calls = [.openAs "copy" (.ok ()), .use, .use] := ⟨_, rfl, rfl⟩
  rcases hrun with ⟨left, hattempt, hcalls⟩
  refine ⟨left, hattempt, hcalls, ?_⟩
  exact (ensures_id_iff.1 hleaves _ hattempt).not_settled (by simp [hcalls])

end Watching

/-- A copy of a source without a cursor: the backend that was opened for it is discarded, and
was never closed. -/
theorem failed_copy_not_closed :
    let copied : StateM (Array Probe.Event) (Option Error) := do
      match ← (Handle.create (Probe.factory "p" { cursor := true } 1 1 id)).run with
      | .error error => return some error
      | .ok source =>
          match ← (source.copy "copy").run with
          | .error error => return some error
          | .ok _ => return none
    let outcome := (copied.run #[]).run
    outcome.1 = some (.backend "p" "cursor failed") ∧
      outcome.2.toList.map (·.call.name) = ["create", "create", "open", "cursor", "destroy"] ∧
      outcome.2.toList.count { probe := "p", call := .close } = 0 := by
  intro copied outcome
  exact ⟨rfl, rfl, rfl⟩

end Multimap.Handle
