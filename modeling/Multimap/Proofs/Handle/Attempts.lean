import Multimap.Proofs.Handle.Watched

/-!
# Attempts — copies up to their first failure

A copy takes a fresh backend, opens it and adds the pairs of the source to it. Only then a handle
owns the backend; where one of these calls fails there is none.

* `attempt` is a copy up to its first failure, and `conclude` is what follows (`copy_eq`);
* `Attempted` lists the ways in which an attempt may go, with the calls that the backend got,
  and there is no other way (`yields_attempted`).
-/

namespace Multimap.Handle

open Multimap.Traversal

section Attempts

variable {m : Type → Type} {σ κ : Type} [Monad m] [CursorState m κ] [Backend m σ κ]

/-- A copy up to its first failure: the answer, and the backend as it is then. -/
def attempt (h : Handle m σ) (identifier : String) : Query m (Except Error Unit × σ) := do
  let fresh ← h.factory.create
  (Backend.copyFrom (m := m) identifier h.store).run fresh

/-- What follows an attempt: a handle over the backend, or the end of the backend. -/
def conclude (factory : Factory m σ) (identifier : String) :
    Except Error Unit × σ → Query m (Handle m σ)
  | (.ok _, store) => return { factory, store, identifier := some identifier, isOpen := true }
  | (.error error, store) => do
      Backend.discard (m := m) store
      throw error

theorem copy_eq [LawfulMonad m] (h : Handle m σ) (identifier : String) :
    h.copy identifier = h.attempt identifier >>= conclude h.factory identifier := by
  rw [attempt, bind_assoc]
  refine bind_congr ?_
  intro fresh
  refine bind_congr ?_
  rintro ⟨answer, store⟩
  cases answer <;> rfl

end Attempts

/-! ## The calls of an attempt -/

/-- The ways in which an attempt may go, with its answer and the calls of the backend. -/
inductive Attempted (identifier : String) : Except Error Unit → List StoreCall → Prop where
  /-- The backend refuses to be opened. -/
  | refused (error : Error) :
      Attempted identifier (.error error) [.openAs identifier (.error error)]
  /-- There is no cursor over the source, or it fails before the last pair. -/
  | unread (error : Error) : Attempted identifier (.error error) [.openAs identifier (.ok ())]
  /-- Behind so many pairs one is not added. -/
  | stopped (error : Error) (added : Nat) :
      Attempted identifier (.error error)
        (.openAs identifier (.ok ()) :: List.replicate (added + 1) .use)
  | completed (added : Nat) :
      Attempted identifier (.ok ()) (.openAs identifier (.ok ()) :: List.replicate added .use)

namespace Attempted

variable {identifier : String} {answer : Except Error Unit} {calls : List StoreCall}

/-- Nothing is closed, whichever way it goes. -/
theorem close_notMem (h : Attempted identifier answer calls) (closing : Except Error Unit) :
    .close closing ∉ calls := by
  cases h <;> simp

/-- The backend is open behind the attempt, unless it refused. -/
theorem leads (h : Attempted identifier answer calls)
    (hopened : .openAs identifier (.ok ()) ∈ calls) : Leads false calls true := by
  cases h with
  | refused error => simp at hopened
  | unread error => exact .opened _ (.nil true)
  | stopped error added => exact .opened _ (.replicate_use true _)
  | completed added => exact .opened _ (.replicate_use true _)

theorem onlyUsed (h : Attempted identifier (.ok ()) calls) :
    OnlyUsed [.openAs identifier (.ok ())] calls := by
  cases h with
  | completed added => exact ⟨added, rfl⟩

end Attempted

section Watching

variable {m : Type → Type} {σ κ : Type} [Monad m] [LawfulMonad m] [Backend m σ κ]

/-- Adding pairs goes on up to the first one that is not added. -/
theorem ensures_putAll (entries : List Entry) (w : Watched σ) :
    Ensures ((Backend.putAll (m := m) entries).run w) fun outcome =>
      ∃ added, outcome.2.calls = w.calls ++ List.replicate added .use ∧
        (outcome.1 ≠ .ok () → added ≠ 0) := by
  induction entries generalizing w with
  | nil => exact Ensures.pure ⟨0, (List.append_nil _).symm, fun hne => absurd rfl hne⟩
  | cons entry rest ih =>
      rw [Backend.putAll]
      cases entry.value with
      | none => exact ih w
      | some value =>
          rw [Op.run_bind]
          apply (Watched.ensures_watch _ _ w).bind
          rintro ⟨answer, w'⟩ hcalls
          cases answer with
          | error error =>
              -- The call that fails is a use as well.
              exact Ensures.pure ⟨1, hcalls, fun _ => Nat.one_ne_zero⟩
          | ok _ =>
              refine (ih w').mono ?_
              rintro ⟨answer, w''⟩ ⟨added, hadded, -⟩
              refine ⟨added + 1, ?_, fun _ => Nat.succ_ne_zero added⟩
              rw [hadded, hcalls, List.append_assoc]
              rfl

variable [CursorState m κ]

theorem attempted_copyFrom (identifier : String) (source fresh : Watched σ)
    (hfresh : fresh.calls = []) :
    Ensures ((Backend.copyFrom (m := m) identifier source).run fresh) fun outcome =>
      Attempted identifier outcome.1 outcome.2.calls := by
  rw [Backend.copyFrom, Op.run_bind]
  apply (Watched.ensures_watch _ _ fresh).bind
  rintro ⟨answer, opened⟩ hcalls
  rw [hfresh] at hcalls
  cases answer with
  | error error => exact Ensures.pure (hcalls ▸ .refused error)
  | ok _ =>
      have hopened : opened.calls = [.openAs identifier (.ok ())] := hcalls
      dsimp only
      rw [Op.run_bind]
      -- Reading the source is no call of the fresh backend.
      have hread : Ensures ((Op.ofQuery fun _ : Watched σ =>
          Backend.entries (m := m) source .pairs true).run opened) fun outcome =>
            outcome.2 = opened :=
        (ensures_true _).bind fun _ _ => Ensures.pure rfl
      apply hread.bind
      rintro ⟨pairs, _⟩ rfl
      cases pairs with
      | error error => exact Ensures.pure (hopened ▸ .unread error)
      | ok pairs =>
          refine (ensures_putAll pairs.reverse _).mono ?_
          rintro ⟨answer, w⟩ ⟨added, hadded, hfailed⟩
          rw [hopened] at hadded
          cases answer with
          | error error =>
              have hne : added ≠ 0 := by
                apply hfailed
                rintro ⟨⟩
              rcases Nat.exists_eq_succ_of_ne_zero hne with ⟨before, rfl⟩
              exact hadded ▸ .stopped error before
          | ok _ => exact hadded ▸ .completed added

theorem yields_attempted (factory : Factory m σ) (source : Handle m (Watched σ))
    (identifier : String) :
    Yields (Handle.attempt { source with factory := factory.watched } identifier) fun outcome =>
      Attempted identifier outcome.1 outcome.2.calls := by
  refine factory.yields_watched.bind ?_
  intro fresh hfresh
  have hcopied := attempted_copyFrom (m := m) identifier source.store fresh hfresh
  rw [← bind_pure (liftM _)]
  exact .of_liftM hcopied fun _ hattempted => .pure hattempted

end Watching

end Multimap.Handle
