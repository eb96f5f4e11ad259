import Multimap.Probe.Store
import Multimap.Proofs.Handle.Forgetting

/-!
# The life of a handle — from its making to its being given up

A handle keeps what it is open as next to whether it is open. Whatever its backend answers,
and whatever is done with the handle, the two stay in step with each other and with the
backend, which is closed once for each time that it was opened.

* `Sound` is what is known of a handle at any time, by the openings that succeeded; actions
  keep it (`Moves.sound`), and so do all lists of actions (`Linked.sound`);
* `Birth` is how a handle comes to be: a fresh one has a backend that was never called, and a
  copy one that was opened first (`Birth.yields_begins`);
* `Birth.life` is a whole life up to the discarding of the handle, which closes what is open
  (`Sound.ensures_settled`); watching the backend changes nothing about it (`forget_life`);
* `Lived` puts together what is known of a life and of its end, and holds of all lives over
  all backends (`lives_lawful`).
-/

namespace Multimap.Handle

open Multimap.Traversal

/-! ## What is known at any time -/

section Times

variable {m : Type → Type} {σ κ : Type} {h before after : Handle m (Watched σ)}
  {action : Action m} {outcome : Outcome} {openings : List String}

/-- The identifier under which an action opened the handle, if it did. -/
def Action.opening? : Action m → Outcome → Option String
  | .openAs request, .done => some request.identifier
  | _, _ => none

theorem Action.opening?_of_isUse (huse : action.IsUse) (outcome : Outcome) :
    action.opening? outcome = none := by
  cases action with
  | openAs request => exact huse.elim
  | _ => rfl

/-- What is known of a handle at any time, by the openings that succeeded until then. -/
structure Sound (openings : List String) (h : Handle m (Watched σ)) : Prop where
  isOpen_iff : h.isOpen = true ↔ h.identifier.isSome = true
  /-- The identifier is the one of the last opening. -/
  identifier_eq : h.isOpen = true → h.identifier = openings.getLast?
  /-- The backend is open where the handle is. -/
  leads : Leads false h.store.calls h.isOpen

theorem sound_of_closed {openings : List String} (hclosed : h.isOpen = false)
    (hidentifier : h.identifier = none) (hleads : Leads false h.store.calls false) :
    Sound openings h where
  isOpen_iff := by simp [hclosed, hidentifier]
  identifier_eq hopen := nomatch hclosed.symm.trans hopen
  leads := hclosed ▸ hleads

theorem sound_of_open {identifier : String} (openings : List String) (hopen : h.isOpen = true)
    (hidentifier : h.identifier = some identifier) (hleads : Leads false h.store.calls true) :
    Sound (openings ++ [identifier]) h where
  isOpen_iff := by simp [hopen, hidentifier]
  identifier_eq _ := by rw [hidentifier, List.getLast?_concat]
  leads := hopen ▸ hleads

/-- Every action keeps what is known. -/
theorem Moves.sound (hmoves : Moves before action outcome after) (h : Sound openings before) :
    Sound (openings ++ (action.opening? outcome).toList) after := by
  have hleads := h.leads
  cases hmoves with
  | alreadyOpen hopen => exact (List.append_nil openings).symm ▸ h
  | @answered request store answer hclosed hcalls =>
      -- The identifier is set before the backend is asked, and counts only if it agrees.
      rw [hclosed] at hleads
      cases answer with
      | ok _ =>
          refine sound_of_open openings rfl rfl ?_
          exact hcalls ▸ hleads.append (.opened _ (.nil true))
      | error error =>
          refine sound_of_closed hclosed rfl ?_
          exact hcalls ▸ hleads.append (.refused _ error (.nil false))
  | alreadyClosed hclosed => exact (List.append_nil openings).symm ▸ h
  | closed answer hopen hcalls =>
      -- The answer does not matter: a backend that fails to close is not closed again.
      rw [hopen] at hleads
      refine sound_of_closed rfl rfl ?_
      exact hcalls ▸ hleads.append (.closed answer (.nil false))
  | used huse hused =>
      rw [Action.opening?_of_isUse huse, Option.toList_none, List.append_nil]
      refine ⟨?_, ?_, ?_⟩
      · rw [hused.isOpen_eq, hused.identifier_eq]
        exact h.isOpen_iff
      · rw [hused.isOpen_eq, hused.identifier_eq]
        exact h.identifier_eq
      · rw [hused.isOpen_eq]
        exact hused.calls.leads hleads

/-! ## Lives -/

/-- The identifiers under which some steps opened the handle. -/
def openingsOf (steps : List (Step m (Watched σ))) : List String :=
  steps.filterMap fun step => step.action.opening? step.outcome

/-- The handle behind some steps. -/
def behind (first : Handle m (Watched σ)) (steps : List (Step m (Watched σ))) :
    Handle m (Watched σ) :=
  (steps.getLast?.map Step.after).getD first

/-- Steps that lead from one handle to another, each as its action may. -/
inductive Linked : Handle m (Watched σ) → List (Step m (Watched σ)) → Handle m (Watched σ) → Prop
    where
  | nil (h : Handle m (Watched σ)) : Linked h [] h
  | cons {step : Step m (Watched σ)} {steps : List (Step m (Watched σ))}
      {last : Handle m (Watched σ)} :
      Moves step.before step.action step.outcome step.after → Linked step.after steps last →
      Linked step.before (step :: steps) last

variable {first last : Handle m (Watched σ)} {steps front back : List (Step m (Watched σ))}

theorem Linked.split (h : Linked first (front ++ back) last) :
    ∃ between, Linked first front between ∧ Linked between back last := by
  induction front generalizing first with
  | nil => exact ⟨first, .nil first, h⟩
  | cons step front ih =>
      cases h with
      | cons hmoves hrest =>
          rcases ih hrest with ⟨between, hfront, hback⟩
          exact ⟨between, .cons hmoves hfront, hback⟩

theorem Linked.eq_behind (h : Linked first steps last) : last = behind first steps := by
  induction h with
  | nil h => rfl
  | @cons step steps last _ _ ih =>
      rw [ih, behind, behind, List.getLast?_cons]
      cases steps.getLast? <;> rfl

theorem Linked.sound (h : Linked first steps last) (hsound : Sound openings first) :
    Sound (openings ++ openingsOf steps) last := by
  -- The openings before the steps are those of the birth and of the steps already taken.
  induction h generalizing openings with
  | nil h => exact (List.append_nil openings).symm ▸ hsound
  | @cons step steps last hmoves _ ih =>
      have hrest := ih (hmoves.sound hsound)
      rw [List.append_assoc] at hrest
      have hopenings : openingsOf (step :: steps) =
          (step.action.opening? step.outcome).toList ++ openingsOf steps := by
        rw [openingsOf, List.filterMap_cons]
        cases step.action.opening? step.outcome <;> rfl
      rwa [hopenings]

/-- Behind any of the steps the handle is known, and the other steps lead on from there. -/
theorem Linked.behind (h : Linked first steps last) (hsound : Sound openings first)
    (hsteps : steps = front ++ back) :
    Sound (openings ++ openingsOf front) (first.behind front) ∧
      Linked (first.behind front) back last := by
  subst hsteps
  rcases h.split with ⟨between, hfront, hback⟩
  have hbetween := hfront.eq_behind
  subst hbetween
  exact ⟨hfront.sound hsound, hback⟩

theorem Linked.before_eq {step : Step m (Watched σ)} (h : Linked first (step :: back) last) :
    step.before = first := by
  cases h with
  | cons _ _ => rfl

theorem Linked.moves (h : Linked first steps last) {step : Step m (Watched σ)}
    (hmem : step ∈ steps) : Moves step.before step.action step.outcome step.after := by
  rcases List.append_of_mem hmem with ⟨front, back, rfl⟩
  rcases h.split with ⟨between, -, hback⟩
  cases hback with
  | cons hmoves _ => exact hmoves

variable [Monad m] [LawfulMonad m] [CursorState m κ] [Backend m σ κ]

/-- Actions that are performed one behind the other are linked. -/
theorem linked_live (actions : List (Action m)) (h : Handle m (Watched σ)) :
    Ensures (live actions h) fun (steps, last) =>
      Linked h steps last ∧ steps.map Step.action = actions := by
  induction actions generalizing h with
  | nil => exact Ensures.pure ⟨.nil h, rfl⟩
  | cons action actions ih =>
      apply (h.moves_perform action).bind
      rintro ⟨outcome, after⟩ hmoves
      apply (ih after).bind
      rintro ⟨steps, last⟩ ⟨hlinked, hactions⟩
      let step : Step m (Watched σ) := { action, before := h, outcome, after }
      have hcons : Linked step.before (step :: steps) last := .cons hmoves hlinked
      exact Ensures.pure ⟨hcons, congrArg (action :: ·) hactions⟩

end Times

/-! ## Beginning and end -/

/-- How a handle comes to be: fresh from a factory, or as a copy of another one. -/
inductive Birth (m : Type → Type) (σ : Type) where
  | created (factory : Factory m σ)
  | copied (source : Handle m σ) (identifier : String)

/-- A handle as it came to be, what was done with it, and the handle that was given up then. -/
structure Life (m : Type → Type) (σ : Type) where
  first : Handle m σ
  steps : List (Step m σ)
  last : Handle m σ

namespace Birth

variable {m : Type → Type} {σ κ : Type}

/-- The openings that a handle owes to its birth. -/
def openings : Birth m σ → List String
  | .created _ => []
  | .copied _ identifier => [identifier]

/-- What is known of a handle that was just made: nothing was ever asked of the backend of a
fresh one, and that of a copy was opened first, and only used since. -/
def Begins : Birth m σ → Handle m (Watched σ) → Prop
  | .created _, h => h.isOpen = false ∧ h.identifier = none ∧ h.store.calls = []
  | .copied _ identifier, h => h.isOpen = true ∧ h.identifier = some identifier ∧
      OnlyUsed [.openAs identifier (.ok ())] h.store.calls

theorem Begins.sound {birth : Birth m σ} {h : Handle m (Watched σ)} (hbegins : birth.Begins h) :
    Sound birth.openings h := by
  cases birth with
  | created factory =>
      rcases hbegins with ⟨hclosed, hidentifier, hcalls⟩
      exact sound_of_closed hclosed hidentifier (hcalls ▸ .nil false)
  | copied source identifier =>
      rcases hbegins with ⟨hopen, hidentifier, hcalls⟩
      exact sound_of_open [] hopen hidentifier (hcalls.leads (.opened _ (.nil true)))

variable [Monad m]

/-- The same birth where the backend is watched. -/
def watched : Birth m σ → Birth m (Watched σ)
  | .created factory => .created factory.watched
  | .copied source identifier => .copied source.watched identifier

variable [CursorState m κ] [Backend m σ κ]

/-- The handle, if its birth succeeds. -/
def handle : Birth m σ → Query m (Handle m σ)
  | .created factory => Handle.create factory
  | .copied source identifier => source.copy identifier

/-- A whole life: a handle comes to be, actions are performed, and it is given up. -/
def life (birth : Birth m σ) (actions : List (Action m)) : Query m (Life m σ) := do
  let first ← birth.handle
  let (steps, last) ← (live actions first : m _)
  last.discard (m := m)
  return { first, steps, last }

variable [LawfulMonad m]

theorem yields_begins (birth : Birth m σ) : Yields birth.watched.handle birth.Begins := by
  cases birth with
  | created factory => exact factory.yields_watched.bind fun _ hcalls => .pure ⟨rfl, rfl, hcalls⟩
  | copied source identifier =>
      have hattempted := yields_attempted source.factory source.watched identifier
      rw [watched, handle, copy_eq]
      refine hattempted.bind ?_
      rintro ⟨answer, store⟩ hattempted
      cases answer with
      | ok _ => exact .pure ⟨rfl, rfl, hattempted.onlyUsed⟩
      | error error =>
          -- The fresh backend is discarded, and there is no handle.
          exact .of_liftM (ensures_true _) fun _ _ => .throw error

/-! ### Forgetting the calls -/

theorem forget_handle (birth : Birth m σ) :
    Handle.forget <$> birth.watched.handle = birth.handle := by
  cases birth with
  | created factory => rw [watched, handle, forget_create, Factory.forget_watched, handle]
  | copied source identifier =>
      rw [watched, handle, forget_copy, Handle.forget_watched]
      rfl

end Birth

section Ends

variable {m : Type → Type} {σ κ : Type} [Monad m]

/-- The life of the handle over the backend itself. -/
def Life.forget (life : Life m (Watched σ)) : Life m σ :=
  { first := life.first.forget
    steps := life.steps.map Step.forget
    last := life.last.forget }

variable [LawfulMonad m] [Backend m σ κ]

/-- A life over a watched backend is a life over the backend, with the calls in addition. -/
theorem forget_life [CursorState m κ] (birth : Birth m σ) (actions : List (Action m)) :
    Life.forget <$> birth.watched.life actions = birth.life actions := by
  rw [Birth.life, Birth.life, ← birth.forget_handle, map_bind, bind_map_left]
  refine bind_congr (m := Query m) fun first => ?_
  rw [← forget_live, liftM_map, bind_map_left]
  refine (map_bind _ _ _).trans (bind_congr (m := Query m) ?_)
  rintro ⟨steps, last⟩
  refine (map_bind _ _ _).trans ?_
  dsimp only [Prod.map_apply]
  rw [discard_forget]
  exact bind_congr (m := Query m) fun _ => map_pure _ _

/-- The calls of a backend that is closed when its handle is given up. -/
theorem Sound.ensures_settled {openings : List String} {h : Handle m (Watched σ)}
    (hsound : Sound openings h) (hopen : h.isOpen = true) :
    Ensures ((Backend.close (m := m)).run h.store) fun outcome =>
      outcome.2.calls = h.store.calls ++ [.close outcome.1] ∧ Settled outcome.2.calls := by
  have hleads := hsound.leads
  rw [hopen] at hleads
  refine (Watched.ensures_watch _ _ h.store).mono ?_
  rintro ⟨answer, store⟩ hcalls
  have hclosed : Leads false (h.store.calls ++ [.close answer]) false :=
    hleads.append (.closed answer (.nil false))
  rw [← hcalls] at hclosed
  exact ⟨hcalls, hclosed.settled⟩

/-- What can be said of a life over any backend. -/
structure Lived [CursorState m κ] (birth : Birth m σ) (actions : List (Action m))
    (life : Life m (Watched σ)) : Prop where
  /-- A fresh handle is closed, and a copy comes with its backend opened. -/
  begins : birth.Begins life.first
  actions_eq : life.steps.map Step.action = actions
  before_eq : ∀ front step back, life.steps = front ++ step :: back →
    step.before = behind life.first front
  last_eq : life.last = behind life.first life.steps
  /-- At any time a handle is open where it has an identifier. -/
  isOpen_iff : ∀ front back, life.steps = front ++ back →
    ((behind life.first front).isOpen = true ↔
      (behind life.first front).identifier.isSome = true)
  /-- The identifier is the one of the last opening that succeeded. -/
  identifier_eq : ∀ front back, life.steps = front ++ back →
    (behind life.first front).isOpen = true →
      (behind life.first front).identifier = (birth.openings ++ openingsOf front).getLast?
  /-- Up to any time the backend was opened and closed by turns, and it is open where the
  handle is. -/
  leads : ∀ front back, life.steps = front ++ back →
    Leads false (behind life.first front).store.calls (behind life.first front).isOpen
  /-- Opening an open handle changes nothing and has no effects. -/
  alreadyOpen : ∀ step ∈ life.steps, ∀ request, step.action = .openAs request →
    step.before.isOpen = true → ∃ identifier, step.before.identifier = some identifier ∧
      step.outcome = .failed (.alreadyOpen identifier) ∧ step.after = step.before ∧
      step.before.perform step.action = pure (step.outcome, step.after)
  /-- Opening a closed handle is up to the backend, whose error is passed on. -/
  answered : ∀ step ∈ life.steps, ∀ request, step.action = .openAs request →
    step.before.isOpen = false → ∃ answer, step.outcome = .ofAnswer answer ∧
      step.after.store.calls = step.before.store.calls ++ [.openAs request.identifier answer] ∧
      (answer = .ok () →
        step.after.isOpen = true ∧ step.after.identifier = some request.identifier) ∧
      ∀ error, answer = .error error →
        step.after.isOpen = false ∧ step.after.identifier = none
  /-- Closing a closed handle changes nothing and has no effects. -/
  alreadyClosed : ∀ step ∈ life.steps, step.action = .close → step.before.isOpen = false →
    step.outcome = .done ∧ step.after = step.before ∧
      step.before.perform step.action = pure (step.outcome, step.after)
  /-- Closing an open handle closes it, whatever the backend answers. -/
  closed : ∀ step ∈ life.steps, step.action = .close → step.before.isOpen = true →
    ∃ answer, step.outcome = .ofAnswer answer ∧
      step.after.store.calls = step.before.store.calls ++ [.close answer] ∧
      step.after.isOpen = false ∧ step.after.identifier = none
  /-- All other actions leave it as open as it is, and its backend too. -/
  used : ∀ step ∈ life.steps, step.action.IsUse → step.before.Used step.after
  /-- A handle that is given up while it is open closes its backend by one call, and discards
  it as it is then: it was closed once for each opening. -/
  discarded_open : life.last.isOpen = true →
    life.last.discard = (Backend.close (m := m)).run life.last.store >>=
      (fun outcome => Backend.discard outcome.2) ∧
    Ensures ((Backend.close (m := m)).run life.last.store) fun outcome =>
      outcome.2.calls = life.last.store.calls ++ [.close outcome.1] ∧ Settled outcome.2.calls
  /-- One that is closed discards its backend as it is, and that was closed once for each
  opening already. -/
  discarded_closed : life.last.isOpen = false →
    life.last.discard = Backend.discard (m := m) life.last.store ∧
      Settled life.last.store.calls

variable {birth : Birth m σ} {first last : Handle m (Watched σ)} {steps : List (Step m (Watched σ))}

theorem Linked.lived [CursorState m κ] (h : Linked first steps last)
    (hbegins : birth.Begins first) :
    Lived birth (steps.map Step.action) { first, steps, last } where
  begins := hbegins
  actions_eq := rfl
  before_eq _ _ _ hsteps := (h.behind hbegins.sound hsteps).2.before_eq
  last_eq := h.eq_behind
  isOpen_iff _ _ hsteps := (h.behind hbegins.sound hsteps).1.isOpen_iff
  identifier_eq _ _ hsteps := (h.behind hbegins.sound hsteps).1.identifier_eq
  leads _ _ hsteps := (h.behind hbegins.sound hsteps).1.leads
  alreadyOpen step hmem request haction hopen := by
    have hmoves := h.moves hmem
    rw [haction] at hmoves ⊢
    rcases hmoves.of_alreadyOpen hopen with ⟨houtcome, hafter⟩
    -- What is known before the step tells that there is an identifier to be reported.
    rcases List.append_of_mem hmem with ⟨front, back, hsteps⟩
    rcases h.behind hbegins.sound hsteps with ⟨hsound, hback⟩
    rw [← hback.before_eq] at hsound
    rcases Option.isSome_iff_exists.1 (hsound.isOpen_iff.1 hopen) with ⟨identifier, hidentifier⟩
    rw [hidentifier, Option.getD_some] at houtcome
    refine ⟨identifier, hidentifier, houtcome, hafter, ?_⟩
    rw [perform, change, run_openAs_of_open hopen, pure_bind, houtcome, hafter, hidentifier]
    rfl
  answered step hmem request haction hclosed := by
    have hmoves := h.moves hmem
    rw [haction] at hmoves
    exact hmoves.of_answered hclosed
  alreadyClosed step hmem haction hclosed := by
    have hmoves := h.moves hmem
    rw [haction] at hmoves ⊢
    rcases hmoves.of_alreadyClosed hclosed with ⟨houtcome, hafter⟩
    refine ⟨houtcome, hafter, ?_⟩
    rw [perform, change, run_close_of_closed hclosed, pure_bind, houtcome, hafter]
    rfl
  closed step hmem haction hopen := by
    have hmoves := h.moves hmem
    rw [haction] at hmoves
    exact hmoves.of_closed hopen
  used step hmem huse := (h.moves hmem).of_used huse
  discarded_open hopen := ⟨discard_of_open hopen, (h.sound hbegins.sound).ensures_settled hopen⟩
  discarded_closed hclosed := by
    have hleads := (h.sound hbegins.sound).leads
    rw [hclosed] at hleads
    exact ⟨discard_of_closed hclosed, hleads.settled⟩

/-- However a handle comes to be, whatever is done with it until it is given up, and
whatever its backend answers to each call: the handle, its identifier and the backend stay
in step. Watching the backend for this changes nothing about the life. -/
theorem lives_lawful [CursorState m κ] (birth : Birth m σ) (actions : List (Action m)) :
    Life.forget <$> birth.watched.life actions = birth.life actions ∧
      Yields (birth.watched.life actions) (Lived birth actions) := by
  refine ⟨forget_life birth actions, birth.yields_begins.bind fun first hbegins => ?_⟩
  refine .of_liftM (linked_live actions first) ?_
  rintro ⟨steps, last⟩ ⟨hlinked, rfl⟩
  exact .of_liftM (ensures_true _) fun _ _ => .pure (hlinked.lived hbegins)

end Ends

/-- A copy of two pairs over a backend that cannot be closed: the handle counts as closed all the
same, and is opened again under another identifier. Its backend is closed once more in the end. -/
theorem lived_with_failing_close :
    let _ : Probe.Journal Id := ⟨fun _ => ()⟩
    let factory : Factory Id Probe.Store := Probe.factory "p" { close := true } 1 1 id
    let full : Probe.Store :=
      { name := "p", faults := {}, inner := (Ordered.Store.empty.put [97] [1]).put [98] [2],
        puts := 0 }
    let birth : Birth Id Probe.Store :=
      .copied { factory, store := full, identifier := none } "copy"
    let actions : List (Action Id) := [.openAs (Backend.copyRequest "a"), .put [99] [3], .close,
      .close, .openAs (Backend.copyRequest "b")]
    let failure : Error := .backend "p" "close failed"
    ∃ life, (birth.watched.life actions).run.run = .ok life ∧ Lived birth actions life ∧
      life.steps.map Step.outcome =
        [.failed (.alreadyOpen "copy"), .done, .failed failure, .done, .done] ∧
      life.last.identifier = some "b" ∧
      ((Backend.close (m := Id)).run life.last.store).run.2.calls =
        [.openAs "copy" (.ok ()), .use, .use, .use, .close (.error failure),
          .openAs "b" (.ok ()), .close (.error failure)] := by
  intro journal factory full birth actions failure
  have hlived := ensures_id_iff.1 (lives_lawful birth actions).2
  have hseen : ((birth.watched.life actions).run.run.map fun life =>
      (life.steps.map Step.outcome, life.last.identifier,
        ((Backend.close (m := Id)).run life.last.store).run.2.calls)) =
      .ok ([.failed (.alreadyOpen "copy"), .done, .failed failure, .done, .done], some "b",
        [.openAs "copy" (.ok ()), .use, .use, .use, .close (.error failure),
          .openAs "b" (.ok ()), .close (.error failure)]) := by
    decide +kernel
  cases hlife : (birth.watched.life actions).run.run with
  | error error =>
      rw [hlife] at hseen
      cases hseen
  | ok life =>
      rw [hlife] at hseen
      have hparts := Except.ok.inj hseen
      simp only [Prod.mk.injEq] at hparts
      exact ⟨life, rfl, hlived life hlife, hparts⟩

/-- A fresh handle over a backend that fails to close: it is closed once for each opening, the
last time in the end. -/
example :
    let life : StateM (Array Probe.Event) Unit := do
      match ← (Handle.create (Probe.factory "p" { close := true } 1 1 id)).run with
      | .error _ => return ()
      | .ok h =>
          let (_, h) ← h.live [.openAs (Backend.copyRequest "a"), .openAs (Backend.copyRequest "b"),
            .close, .close, .openAs (Backend.copyRequest "c")]
          h.discard
    (life.run #[]).run.2.map (·.call.name) =
      #["create", "open", "close", "open", "close", "destroy"] := by
  cbv

end Multimap.Handle
