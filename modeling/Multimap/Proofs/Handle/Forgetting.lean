import Multimap.Proofs.Handle.Actions
import Multimap.Proofs.Handle.Attempts

/-!
# Forgetting — a watched handle does what the handle does

Nothing that a handle does depends on the calls that its backend remembers. So a run of a handle
over a watched backend is the run over the backend itself, once the calls are forgotten.

* `Handle.watched` lets the backend of a handle be watched from now on, and `Handle.forget`
  forgets what was watched (`forget_watched`);
* opening, closing and all other operations forget (`maps_openAs` and its siblings), and copies
  too (`forget_copy`);
* hence so does every action (`forget_perform`) and every list of them (`forget_live`), and
  giving the handle up has the same effects (`discard_forget`).
-/

namespace Multimap

variable {m : Type → Type} {σ κ : Type} [Monad m]

namespace Factory

/-- The factory of the backends themselves. -/
def forget (factory : Factory m (Watched σ)) : Factory m σ :=
  { factory with create := Watched.store <$> factory.create }

theorem forget_watched [LawfulMonad m] (factory : Factory m σ) :
    factory.watched.forget = factory := by
  have hcreate : Watched.store <$> factory.watched.create = factory.create := by
    have hwatched : factory.watched.create =
        factory.create >>= fun store => pure { store, calls := [] } := rfl
    rw [hwatched, map_bind]
    simp only [map_pure]
    exact bind_pure _
  rw [forget, hcreate]
  rfl

end Factory

namespace Handle

/-- A handle whose backend is watched from now on. -/
def watched (h : Handle m σ) : Handle m (Watched σ) :=
  { factory := h.factory.watched
    store := { store := h.store, calls := [] }
    identifier := h.identifier
    isOpen := h.isOpen }

/-- The handle over the backend itself. -/
def forget (h : Handle m (Watched σ)) : Handle m σ :=
  { factory := h.factory.forget
    store := h.store.store
    identifier := h.identifier
    isOpen := h.isOpen }

variable [LawfulMonad m]

theorem forget_watched (h : Handle m σ) : h.watched.forget = h := by
  rw [watched, forget, Factory.forget_watched]

theorem forget_create (factory : Factory m (Watched σ)) :
    forget <$> create factory = create factory.forget := by
  have hcreate : create factory.forget = Watched.store <$> factory.create >>= fun store =>
    pure { factory := factory.forget, store, identifier := none } := rfl
  rw [hcreate, bind_map_left]
  refine (map_bind _ _ _).trans (bind_congr fun store => ?_)
  exact map_pure _ _

/-! ## Operations -/

section Operations

variable {α : Type} {op : Op m (Watched σ) α} {op' : Op m σ α}

theorem maps_onStore (hop : Op.Maps Watched.store op op') :
    Op.Maps forget (onStore op) (onStore op') := by
  intro h
  have hrun : (onStore op').run h.forget = op'.run h.store.store >>= fun outcome =>
    pure (outcome.1, { h.forget with store := outcome.2 }) := rfl
  rw [hrun, ← hop h.store, bind_map_left]
  refine (map_bind _ _ _).trans (bind_congr fun outcome => ?_)
  exact map_pure _ _

variable [Backend m σ κ]

theorem maps_openAs (request : OpenRequest m) :
    Op.Maps (forget (σ := σ)) (Handle.openAs request) (Handle.openAs request) := by
  intro h
  cases hisOpen : h.isOpen with
  | true =>
      have hforget : h.forget.isOpen = true := hisOpen
      rw [run_openAs_of_open hisOpen, run_openAs_of_open hforget]
      exact map_pure _ _
  | false =>
      have hforget : h.forget.isOpen = false := hisOpen
      have hbackend : Prod.map id Watched.store <$> (Backend.openAs request).run h.store =
          (Backend.openAs request).run h.forget.store := Watched.maps_watch _ _ h.store
      rw [run_openAs_of_closed hisOpen, run_openAs_of_closed hforget, ← hbackend, bind_map_left]
      refine (map_bind _ _ _).trans (bind_congr ?_)
      rintro ⟨answer, store⟩
      cases answer <;> exact map_pure _ _

theorem maps_close : Op.Maps (forget (m := m) (σ := σ)) Handle.close Handle.close := by
  intro h
  cases hisOpen : h.isOpen with
  | true =>
      have hforget : h.forget.isOpen = true := hisOpen
      have hbackend : Prod.map id Watched.store <$> (Backend.close (m := m)).run h.store =
          (Backend.close (m := m)).run h.forget.store := Watched.maps_watch _ _ h.store
      rw [run_close_of_open hisOpen, run_close_of_open hforget, ← hbackend, bind_map_left]
      refine (map_bind _ _ _).trans (bind_congr fun outcome => ?_)
      exact map_pure _ _
  | false =>
      have hforget : h.forget.isOpen = false := hisOpen
      rw [run_close_of_closed hisOpen, run_close_of_closed hforget]
      exact map_pure _ _

theorem maps_put (key value : Bytes) :
    Op.Maps (forget (σ := σ)) (put (m := m) key value) (put key value) :=
  maps_onStore (Watched.maps_watch _ _)

theorem maps_erase (key : Bytes) :
    Op.Maps (forget (σ := σ)) (erase (m := m) key) (erase key) :=
  maps_onStore (Watched.maps_watch _ _)

theorem maps_takeText? [CursorState m κ] (key : String) :
    Op.Maps (forget (σ := σ)) (takeText? (m := m) key) (takeText? key) := by
  have hread : Op.Maps (forget (σ := σ)) (Op.ofQuery fun h => h.getText? (m := m) key)
      (Op.ofQuery fun h => h.getText? key) := .ofQuery fun _ => rfl
  refine hread.bind fun value => ?_
  cases value with
  | none => exact .pure none
  | some text => exact (maps_erase _).bind fun _ => .pure (some text)

theorem maps_putItems (items : List Settings.Item) :
    Op.Maps (forget (σ := σ)) (putItems (m := m) items) (putItems items) := by
  induction items with
  | nil => exact .pure ()
  | cons item rest ih =>
      cases item with
      | error error => exact .throw error
      | ok setting => exact (maps_put setting.key setting.value).bind fun _ => ih

theorem maps_putAlternating (texts : List String) :
    Op.Maps (forget (σ := σ)) (putAlternating (m := m) texts) (putAlternating texts) := by
  induction texts using putAlternating.induct with
  | case1 key value rest ih => exact (maps_put _ _).bind fun _ => ih
  | case2 texts hshort =>
      rw [putAlternating, putAlternating]
      · exact .pure ()
      · exact hshort
      · exact hshort

/-- A copy opens the fresh backend and adds to it, watched or not. -/
theorem maps_copyFrom [CursorState m κ] (identifier : String) (source : Watched σ) :
    Op.Maps (Watched.store (σ := σ)) (Backend.copyFrom (m := m) identifier source)
      (Backend.copyFrom identifier source.store) := by
  have hread : Op.Maps (Watched.store (σ := σ))
      (Op.ofQuery fun _ => Backend.entries (m := m) source .pairs true)
      (Op.ofQuery fun _ => Backend.entries source.store .pairs true) := .ofQuery fun _ => rfl
  refine (Watched.maps_watch _ _).bind fun _ => hread.bind fun pairs => ?_
  exact Backend.maps_putAll (fun _ _ => Watched.maps_watch _ _) pairs.reverse

theorem forget_attempt [CursorState m κ] (h : Handle m (Watched σ)) (identifier : String) :
    Prod.map id Watched.store <$> h.attempt identifier = h.forget.attempt identifier := by
  have hcreate : h.forget.factory.create = Watched.store <$> h.factory.create := rfl
  rw [attempt, attempt, hcreate, map_bind, bind_map_left]
  refine bind_congr fun fresh => ?_
  have hcopied : Prod.map id Watched.store <$>
      (Backend.copyFrom (m := m) identifier h.store).run fresh =
        (Backend.copyFrom identifier h.forget.store).run fresh.store :=
    maps_copyFrom identifier h.store fresh
  rw [← hcopied]
  exact (liftM_map _ _).symm

theorem forget_copy [CursorState m κ] (h : Handle m (Watched σ)) (identifier : String) :
    forget <$> h.copy identifier = h.forget.copy identifier := by
  rw [copy_eq, copy_eq, ← forget_attempt, map_bind, bind_map_left]
  refine bind_congr ?_
  rintro ⟨answer, store⟩
  cases answer with
  | ok _ => exact map_pure _ _
  | error error =>
      refine (map_bind _ _ _).trans (bind_congr (m := Query m) fun _ => ?_)
      exact ExceptT.ext ((ExceptT.run_map _ _).trans (map_pure _ _))

end Operations

/-! ## Actions -/

section Actions

variable {α β : Type}

theorem forget_change {op : Op m (Handle m (Watched σ)) α} {op' : Op m (Handle m σ) α}
    (hop : Op.Maps forget op op') (h : Handle m (Watched σ)) :
    Prod.map id forget <$> change op h = change op' h.forget := by
  have hrun : change op' h.forget = op'.run h.forget >>= fun outcome =>
    pure (.ofAnswer outcome.1, outcome.2) := rfl
  rw [hrun, ← hop h, bind_map_left]
  refine (map_bind _ _ _).trans (bind_congr fun outcome => ?_)
  exact map_pure _ _

/-- What is seen of an answer is whether it is an error, and which. -/
theorem forget_look {answered : Query m α} {answered' : Query m β} {image : α → β}
    (hanswered : image <$> answered = answered') (h : Handle m (Watched σ)) :
    Prod.map id forget <$> look (fun _ => answered) h = look (fun _ => answered') h.forget := by
  have hrun : look (fun _ => answered') h.forget = answered'.run >>= fun answer =>
    pure (.ofAnswer answer, h.forget) := rfl
  rw [hrun, ← hanswered, ExceptT.run_map, bind_map_left]
  refine (map_bind _ _ _).trans (bind_congr fun answer => ?_)
  cases answer <;> exact map_pure _ _

variable [CursorState m κ] [Backend m σ κ]

theorem forget_perform (h : Handle m (Watched σ)) (action : Action m) :
    Prod.map id forget <$> h.perform action = h.forget.perform action := by
  cases action with
  | openAs request => exact forget_change (maps_openAs request) h
  | close => exact forget_change maps_close h
  | put key value => exact forget_change (maps_put key value) h
  | erase key => exact forget_change (maps_erase key) h
  | erasePair key value => exact forget_change (maps_onStore (Watched.maps_watch _ _)) h
  | sync => exact forget_change (maps_onStore (Watched.maps_watch _ _)) h
  | takeText? key => exact forget_change (maps_takeText? key) h
  | putText key value => exact forget_change (maps_put _ _) h
  | putSettings text => exact forget_change (maps_putItems _) h
  | putTexts texts =>
      rw [perform, perform, Handle.putTexts, Handle.putTexts]
      by_cases hpaired : texts.length % 2 = 0
      · rw [if_pos hpaired, if_pos hpaired]
        exact forget_change (maps_putAlternating texts) h
      · rw [if_neg hpaired, if_neg hpaired]
        exact map_pure _ _
  | copy identifier => exact forget_look (forget_copy h identifier) h
  | _ =>
      -- All others only look at the handle, and not at its calls.
      exact forget_look (id_map _) h

/-- A step of the handle over the backend itself. -/
def Step.forget (step : Step m (Watched σ)) : Step m σ :=
  { action := step.action
    before := step.before.forget
    outcome := step.outcome
    after := step.after.forget }

theorem forget_live (actions : List (Action m)) (h : Handle m (Watched σ)) :
    Prod.map (List.map Step.forget) forget <$> live actions h = live actions h.forget := by
  induction actions generalizing h with
  | nil => exact map_pure _ _
  | cons action actions ih =>
      rw [live, live, map_bind, ← forget_perform h action, bind_map_left]
      refine bind_congr ?_
      rintro ⟨outcome, after⟩
      rw [map_bind]
      dsimp only [Prod.map_apply]
      rw [← ih after, bind_map_left]
      refine bind_congr fun rest => ?_
      exact map_pure _ _

omit [CursorState m κ] in
theorem discard_forget (h : Handle m (Watched σ)) : h.forget.discard = h.discard := by
  have hrun : h.forget.discard = Handle.close.run h.forget >>= fun outcome =>
    Backend.discard outcome.2.store := rfl
  rw [hrun, ← maps_close h, bind_map_left]
  rfl

end Actions

end Handle

end Multimap
