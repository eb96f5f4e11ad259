import Mathlib.Control.Monad.Basic
import Multimap.Handle.Texts
import Multimap.Proofs.Effects

/-!
# Watched backends — which calls a handle makes

A watched backend is a backend that remembers the calls it got. It does nothing else by
itself, so what holds of the calls of every watched backend holds of the calls that any
backend gets. Calls that only look at a backend cannot change what it is, and are not
remembered.

* `Watched` is a backend with its calls, and watching changes nothing about it
  (`maps_watch`);
* `Leads` says how opening and closing take turns among calls, from closed or open to
  closed or open: every backend that was opened is closed by one call before it is opened
  again (`Leads.closed_once`), and none is closed that was not opened
  (`Leads.opened_before`);
* `Handle.Used` is what a handle is after any operation but opening and closing: it stays
  as open as it was, and its backend is neither opened nor closed.
-/

namespace Multimap

/-! ## Calls -/

/-- A call that a backend may be changed by. Opening and closing come with the answer. -/
inductive StoreCall where
  | openAs (identifier : String) (answer : Except Error Unit)
  | close (answer : Except Error Unit)
  /-- Any other call. -/
  | use
  deriving DecidableEq, Repr

/-- A backend and the calls it got until now. -/
structure Watched (σ : Type) where
  store : σ
  calls : List StoreCall

namespace Watched

variable {m : Type → Type} {σ κ α : Type} [Monad m]

/-- An operation that is remembered as a call. -/
def watch (call : Except Error α → StoreCall) (op : Op m σ α) : Op m (Watched σ) α :=
  ExceptT.mk fun w => do
    let (answer, store) ← op.run w.store
    return (answer, { store, calls := w.calls ++ [call answer] })

instance [Backend m σ κ] : Backend m (Watched σ) κ where
  openAs request := watch (.openAs request.identifier) (Backend.openAs request)
  close := watch .close Backend.close
  put key value := watch (fun _ => .use) (Backend.put key value)
  contains w := Backend.contains w.store
  erase key := watch (fun _ => .use) (Backend.erase key)
  erasePair key value := watch (fun _ => .use) (Backend.erasePair key value)
  sync := watch (fun _ => .use) Backend.sync
  fileDescriptor? w := Backend.fileDescriptor? m w.store
  pairCount? w := Backend.pairCount? m w.store
  cursor w := Backend.cursor w.store
  discard w := Backend.discard w.store

variable [LawfulMonad m]

/-- A call does to a watched backend what it does to the backend. -/
theorem maps_watch (call : Except Error α → StoreCall) (op : Op m σ α) :
    Op.Maps Watched.store (watch call op) op := by
  intro w
  have hrun : (watch call op).run w = op.run w.store >>= fun (answer, store) =>
    pure (answer, { store, calls := w.calls ++ [call answer] }) := rfl
  rw [hrun, map_bind]
  simp only [map_pure]
  exact bind_pure _

theorem ensures_watch (call : Except Error α → StoreCall) (op : Op m σ α) (w : Watched σ) :
    Ensures ((watch call op).run w) fun outcome =>
      outcome.2.calls = w.calls ++ [call outcome.1] :=
  (ensures_true _).bind fun _ _ => Ensures.pure rfl

end Watched

/-- The factory that makes watched backends, which have not been called yet. -/
def Factory.watched {m : Type → Type} {σ : Type} [Monad m] (factory : Factory m σ) :
    Factory m (Watched σ) :=
  { factory with
    create := do
      let store ← factory.create
      return { store, calls := [] } }

theorem Factory.yields_watched {m : Type → Type} {σ : Type} [Monad m] [LawfulMonad m]
    (factory : Factory m σ) : Yields factory.watched.create fun w => w.calls = [] :=
  (yields_true factory.create).bind fun _ _ => .pure rfl

/-! ## Opening and closing take turns -/

/-- Calls that take a backend from closed (`false`) or open to closed or open. It is opened
only while it is closed, and closed only while it is open. -/
inductive Leads : Bool → List StoreCall → Bool → Prop where
  | nil (isOpen : Bool) : Leads isOpen [] isOpen
  | use {isOpen isOpen' : Bool} {calls : List StoreCall} :
      Leads isOpen calls isOpen' → Leads isOpen (.use :: calls) isOpen'
  | refused {isOpen : Bool} {calls : List StoreCall} (identifier : String) (error : Error) :
      Leads false calls isOpen → Leads false (.openAs identifier (.error error) :: calls) isOpen
  | opened {isOpen : Bool} {calls : List StoreCall} (identifier : String) :
      Leads true calls isOpen → Leads false (.openAs identifier (.ok ()) :: calls) isOpen
  | closed {isOpen : Bool} {calls : List StoreCall} (answer : Except Error Unit) :
      Leads false calls isOpen → Leads true (.close answer :: calls) isOpen

namespace Leads

variable {isOpen isOpen' isOpen'' : Bool} {calls calls' : List StoreCall}

theorem append (h : Leads isOpen calls isOpen') (h' : Leads isOpen' calls' isOpen'') :
    Leads isOpen (calls ++ calls') isOpen'' := by
  induction h with
  | nil isOpen => exact h'
  | use _ ih => exact .use (ih h')
  | refused identifier error _ ih => exact .refused identifier error (ih h')
  | opened identifier _ ih => exact .opened identifier (ih h')
  | closed answer _ ih => exact .closed answer (ih h')

theorem replicate_use (isOpen : Bool) (count : Nat) :
    Leads isOpen (List.replicate count .use) isOpen := by
  induction count with
  | zero => exact .nil isOpen
  | succ count ih => exact .use ih

theorem split (h : Leads isOpen (calls ++ calls') isOpen'') :
    ∃ isOpen', Leads isOpen calls isOpen' ∧ Leads isOpen' calls' isOpen'' := by
  induction calls generalizing isOpen with
  | nil => exact ⟨isOpen, .nil isOpen, h⟩
  | cons call calls ih =>
      cases h with
      | use h =>
          rcases ih h with ⟨between, hfirst, hrest⟩
          exact ⟨between, .use hfirst, hrest⟩
      | refused identifier error h =>
          rcases ih h with ⟨between, hfirst, hrest⟩
          exact ⟨between, .refused identifier error hfirst, hrest⟩
      | opened identifier h =>
          rcases ih h with ⟨between, hfirst, hrest⟩
          exact ⟨between, .opened identifier hfirst, hrest⟩
      | closed answer h =>
          rcases ih h with ⟨between, hfirst, hrest⟩
          exact ⟨between, .closed answer hfirst, hrest⟩

/-- A backend that is open, and closed in the end, is closed before anything but uses. -/
theorem until_close (h : Leads isOpen calls isOpen') (hopen : isOpen = true)
    (hclosed : isOpen' = false) :
    ∃ count answer later, calls = List.replicate count .use ++ .close answer :: later := by
  induction h with
  | nil isOpen => cases hopen.symm.trans hclosed
  | use _ ih =>
      rcases ih hopen hclosed with ⟨count, answer, later, rfl⟩
      exact ⟨count + 1, answer, later, rfl⟩
  | refused identifier error _ ih => cases hopen
  | opened identifier _ ih => cases hopen
  | closed answer _ ih => exact ⟨0, answer, _, rfl⟩

/-- A backend that is open in the end was so already, or nothing but uses came behind its
last opening. -/
theorem since_open (h : Leads isOpen calls isOpen') (hopen : isOpen' = true) :
    (isOpen = true ∧ ∃ count, calls = List.replicate count .use) ∨
      ∃ earlier identifier count,
        calls = earlier ++ .openAs identifier (.ok ()) :: List.replicate count .use := by
  -- The first alternative lasts only as long as there are uses; whatever else comes first is
  -- earlier than the last opening.
  induction h with
  | nil isOpen => exact .inl ⟨hopen, 0, rfl⟩
  | use _ ih =>
      rcases ih hopen with ⟨hisOpen, count, rfl⟩ | ⟨earlier, identifier, count, rfl⟩
      · exact .inl ⟨hisOpen, count + 1, rfl⟩
      · exact .inr ⟨.use :: earlier, identifier, count, rfl⟩
  | opened identifier _ ih =>
      rcases ih hopen with ⟨-, count, rfl⟩ | ⟨earlier, identifier', count, rfl⟩
      · exact .inr ⟨[], identifier, count, rfl⟩
      · exact .inr ⟨.openAs identifier (.ok ()) :: earlier, identifier', count, rfl⟩
  | refused identifier error _ ih =>
      rcases ih hopen with ⟨hisOpen, -⟩ | ⟨earlier, identifier', count, rfl⟩
      · cases hisOpen
      · exact .inr ⟨.openAs identifier (.error error) :: earlier, identifier', count, rfl⟩
  | closed answer _ ih =>
      rcases ih hopen with ⟨hisOpen, -⟩ | ⟨earlier, identifier, count, rfl⟩
      · cases hisOpen
      · exact .inr ⟨.close answer :: earlier, identifier, count, rfl⟩

/-- What was opened is closed by one call, before it is opened again. -/
theorem closed_once (h : Leads isOpen calls false) {front rest : List StoreCall}
    {identifier : String} (hcalls : calls = front ++ .openAs identifier (.ok ()) :: rest) :
    ∃ count answer later, rest = List.replicate count .use ++ .close answer :: later := by
  subst hcalls
  rcases h.split with ⟨between, -, hrest⟩
  cases hrest with
  | opened identifier hrest => exact hrest.until_close rfl rfl

/-- What is closed was opened, and only used since then. -/
theorem opened_before (h : Leads false calls isOpen) {front rest : List StoreCall}
    {answer : Except Error Unit} (hcalls : calls = front ++ .close answer :: rest) :
    ∃ earlier identifier count,
      front = earlier ++ .openAs identifier (.ok ()) :: List.replicate count .use := by
  subst hcalls
  rcases h.split with ⟨between, hfront, hrest⟩
  cases hrest with
  | closed answer hrest =>
      rcases hfront.since_open rfl with ⟨hisOpen, -⟩ | hopened
      · cases hisOpen
      · exact hopened

end Leads

/-- The calls of a backend that is given up: each opening that succeeded was followed by
one closing before anything but uses, and there was no other closing. -/
structure Settled (calls : List StoreCall) : Prop where
  leads : Leads false calls false
  closed_once : ∀ front identifier rest, calls = front ++ .openAs identifier (.ok ()) :: rest →
    ∃ count answer later, rest = List.replicate count .use ++ .close answer :: later
  opened_before : ∀ front answer rest, calls = front ++ .close answer :: rest →
    ∃ earlier identifier count,
      front = earlier ++ .openAs identifier (.ok ()) :: List.replicate count .use

theorem Leads.settled {calls : List StoreCall} (h : Leads false calls false) : Settled calls where
  leads := h
  closed_once _ _ _ := h.closed_once
  opened_before _ _ _ := h.opened_before

/-! ## Uses -/

/-- Calls that came to nothing but uses. -/
def OnlyUsed (calls calls' : List StoreCall) : Prop :=
  ∃ count, calls' = calls ++ List.replicate count .use

namespace OnlyUsed

variable {calls calls' calls'' : List StoreCall}

theorem refl (calls : List StoreCall) : OnlyUsed calls calls :=
  ⟨0, (List.append_nil calls).symm⟩

theorem trans (h : OnlyUsed calls calls') (h' : OnlyUsed calls' calls'') :
    OnlyUsed calls calls'' := by
  rcases h with ⟨count, rfl⟩
  rcases h' with ⟨count', rfl⟩
  exact ⟨count + count', by rw [List.append_assoc, List.replicate_append_replicate]⟩

theorem leads {isOpen isOpen' : Bool} (h : OnlyUsed calls calls')
    (hleads : Leads isOpen calls isOpen') :
    Leads isOpen calls' isOpen' := by
  rcases h with ⟨count, rfl⟩
  exact hleads.append (.replicate_use isOpen' count)

end OnlyUsed

/-- An operation that is remembered as a use adds nothing but a use. -/
theorem Watched.keeps_use {m : Type → Type} {σ α : Type} [Monad m] [LawfulMonad m]
    (calls : List StoreCall) (op : Op m σ α) :
    Op.Keeps (fun w => OnlyUsed calls w.calls) (watch (fun _ => .use) op) := by
  intro w hused
  exact (ensures_watch _ op w).mono fun _ hcalls => hused.trans ⟨1, hcalls⟩

namespace Handle

section Operations

variable {m : Type → Type} {σ κ : Type} {h h' h'' : Handle m (Watched σ)}

/-- What a handle is after operations other than opening and closing. -/
structure Used (h h' : Handle m (Watched σ)) : Prop where
  isOpen_eq : h'.isOpen = h.isOpen
  identifier_eq : h'.identifier = h.identifier
  calls : OnlyUsed h.store.calls h'.store.calls

theorem Used.refl (h : Handle m (Watched σ)) : h.Used h :=
  ⟨rfl, rfl, .refl _⟩

variable [Monad m] [LawfulMonad m] [Backend m σ κ]

/-- An operation of the backend that is remembered as a use. -/
theorem keeps_watch {α : Type} (h : Handle m (Watched σ)) (op : Op m σ α) :
    Op.Keeps h.Used (onStore (Watched.watch (fun _ => .use) op)) := by
  intro h' hused
  apply (Watched.keeps_use _ op h'.store hused.calls).bind
  rintro ⟨answer, store⟩ hcalls
  exact Ensures.pure ⟨hused.isOpen_eq, hused.identifier_eq, hcalls⟩

theorem keeps_put (h : Handle m (Watched σ)) (key value : Bytes) :
    Op.Keeps h.Used (put (m := m) key value) :=
  h.keeps_watch (Backend.put key value)

theorem keeps_erase (h : Handle m (Watched σ)) (key : Bytes) :
    Op.Keeps h.Used (erase (m := m) key) :=
  h.keeps_watch (Backend.erase key)

theorem keeps_erasePair (h : Handle m (Watched σ)) (key value : Bytes) :
    Op.Keeps h.Used (erasePair (m := m) key value) :=
  h.keeps_watch (Backend.erasePair key value)

theorem keeps_sync (h : Handle m (Watched σ)) : Op.Keeps h.Used (sync (m := m)) :=
  h.keeps_watch Backend.sync

theorem keeps_takeText? [CursorState m κ] (h : Handle m (Watched σ)) (key : String) :
    Op.Keeps h.Used (takeText? (m := m) key) := by
  refine (Op.Keeps.ofQuery _).bind fun value => ?_
  cases value with
  | none => exact .pure none
  | some text => exact (h.keeps_erase _).bind fun _ => .pure (some text)

theorem keeps_putItems (h : Handle m (Watched σ)) (items : List Settings.Item) :
    Op.Keeps h.Used (putItems (m := m) items) := by
  induction items with
  | nil => exact .pure ()
  | cons item rest ih =>
      cases item with
      | error error => exact fun _ hused => Ensures.pure hused
      | ok setting => exact (h.keeps_put setting.key setting.value).bind fun _ => ih

theorem keeps_putAlternating (h : Handle m (Watched σ)) (texts : List String) :
    Op.Keeps h.Used (putAlternating (m := m) texts) := by
  induction texts using putAlternating.induct with
  | case1 key value rest ih => exact (h.keeps_put _ _).bind fun _ => ih
  | case2 texts hshort =>
      rw [putAlternating]
      · exact .pure ()
      · exact hshort

end Operations

end Handle

end Multimap
