import Mathlib.Tactic.Choose
import Multimap.Backend.Copy

/-!
# Effects — what holds whatever happens

Backends are written for any monad, so an operation has no single outcome that a
theorem could be about. `Ensures x p` says that `p` holds of everything that `x` may
give: `x` is a computation of values with `p`, of which the proofs are forgotten.

* it goes through `pure`, `bind` and `map`, and is the plain `p` where there are no
  effects (`ensures_id_iff`);
* `Yields`, a query whose answers have a property, and `Op.Keeps`, an operation that keeps
  a property of the state, are closed under sequencing (`Yields.bind`, `Op.Keeps.bind`);
* and so are operations that do to the image of a state what others do (`Op.Maps.bind`).
-/

namespace Multimap

variable {m : Type → Type} {α β : Type}

/-- Everything that a computation gives has a property. -/
def Ensures [Monad m] (x : m α) (p : α → Prop) : Prop :=
  ∃ y : m { a // p a }, Subtype.val <$> y = x

namespace Ensures

variable [Monad m] [LawfulMonad m] {x : m α} {f : α → m β} {p q : α → Prop} {r : β → Prop}

theorem pure {a : α} (h : p a) : Ensures (Pure.pure a : m α) p :=
  ⟨Pure.pure ⟨a, h⟩, map_pure _ _⟩

theorem bind (hx : Ensures x p) (hf : ∀ a, p a → Ensures (f a) r) : Ensures (x >>= f) r := by
  rcases hx with ⟨y, rfl⟩
  choose g hg using hf
  refine ⟨y >>= fun a => g a.1 a.2, ?_⟩
  rw [map_bind, bind_map_left]
  exact bind_congr fun a => hg a.1 a.2

theorem mono (hx : Ensures x p) (h : ∀ a, p a → q a) : Ensures x q := by
  rcases hx with ⟨y, rfl⟩
  refine ⟨(fun a => ⟨a.1, h a.1 a.2⟩) <$> y, ?_⟩
  rw [Functor.map_map]

/-- What follows a computation matters only where its property holds. -/
theorem bind_congr {f g : α → m β} (hx : Ensures x p) (h : ∀ a, p a → f a = g a) :
    x >>= f = x >>= g := by
  rcases hx with ⟨y, rfl⟩
  rw [bind_map_left, bind_map_left]
  exact congrArg (y >>= ·) (funext fun a => h a.1 a.2)

end Ensures

theorem ensures_true [Monad m] [LawfulMonad m] (x : m α) : Ensures x fun _ => True := by
  refine ⟨(fun a => ⟨a, trivial⟩) <$> x, ?_⟩
  rw [Functor.map_map]
  exact id_map x

/-- Without effects there is one outcome. -/
theorem ensures_id_iff {x : Id α} {p : α → Prop} : Ensures x p ↔ p x.run := by
  constructor
  · rintro ⟨y, rfl⟩
    exact y.2
  · intro h
    exact ⟨⟨x, h⟩, rfl⟩

/-- A query that begins with effects begins with them. -/
theorem run_liftM_bind [Monad m] [LawfulMonad m] (x : m α) (f : α → Query m β) :
    ((liftM x : Query m α) >>= f).run = x >>= fun a => (f a).run :=
  ExceptT.run_bind_lift x f

/-! ## Queries -/

/-- Every answer of a query has a property, if it does not fail. -/
def Yields [Monad m] (x : Query m α) (p : α → Prop) : Prop :=
  Ensures x.run fun answer => ∀ a, answer = .ok a → p a

namespace Yields

variable [Monad m] [LawfulMonad m] {x : Query m α} {f : α → Query m β} {p : α → Prop}
  {r : β → Prop}

theorem pure {a : α} (h : p a) : Yields (Pure.pure a : Query m α) p :=
  Ensures.pure fun _ heq => Except.ok.inj heq ▸ h

theorem throw (error : Error) : Yields (MonadExcept.throw error : Query m α) p :=
  Ensures.pure fun _ heq => nomatch heq

theorem bind (hx : Yields x p) (hf : ∀ a, p a → Yields (f a) r) : Yields (x >>= f) r := by
  rw [Yields, ExceptT.run_bind]
  apply Ensures.bind hx
  intro answer hanswer
  cases answer with
  | error error => exact Ensures.pure fun _ heq => nomatch heq
  | ok a => exact hf a (hanswer a rfl)

/-- A query that begins with effects yields what it yields behind them. -/
theorem of_liftM {x : m α} {f : α → Query m β} (hx : Ensures x p)
    (hf : ∀ a, p a → Yields (f a) r) : Yields ((liftM x : Query m α) >>= f) r := by
  rw [Yields, run_liftM_bind]
  exact hx.bind hf

end Yields

theorem yields_true [Monad m] [LawfulMonad m] (x : Query m α) : Yields x fun _ => True :=
  (ensures_true x.run).mono fun _ _ _ _ => trivial

/-! ## Operations on a state -/

namespace Op

variable [Monad m] {σ : Type}

theorem run_bind (op : Op m σ α) (f : α → Op m σ β) (s : σ) :
    (op >>= f).run s = op.run s >>= fun (answer, s) =>
      match answer with
      | .ok a => (f a).run s
      | .error error => Pure.pure (.error error, s) := by
  refine congrArg (op.run s >>= ·) (funext ?_)
  rintro ⟨answer, s'⟩
  cases answer <;> rfl

variable [LawfulMonad m]

theorem run_get (s : σ) : (get : Op m σ σ).run s = Pure.pure (.ok s, s) :=
  pure_bind _ _

theorem run_set (s s' : σ) : (set s' : Op m σ PUnit).run s = Pure.pure (.ok ⟨⟩, s') :=
  pure_bind _ _

end Op

/-- An operation that keeps a property of the state, also when it fails. -/
def Op.Keeps [Monad m] {σ : Type} (p : σ → Prop) (op : Op m σ α) : Prop :=
  ∀ s, p s → Ensures (op.run s) fun outcome => p outcome.2

namespace Op.Keeps

variable [Monad m] [LawfulMonad m] {σ : Type} {p : σ → Prop} {op : Op m σ α} {f : α → Op m σ β}

theorem pure (a : α) : Op.Keeps p (Pure.pure a : Op m σ α) :=
  fun _ hs => Ensures.pure hs

theorem bind (hop : Op.Keeps p op) (hf : ∀ a, Op.Keeps p (f a)) : Op.Keeps p (op >>= f) := by
  intro s hs
  rw [Op.run_bind]
  apply (hop s hs).bind
  rintro ⟨answer, s'⟩ hs'
  cases answer with
  | error error => exact Ensures.pure hs'
  | ok a => exact hf a s' hs'

theorem ofStep {step : σ → Except Error α × σ} (h : ∀ s, p s → p (step s).2) :
    Op.Keeps p (Op.ofStep step : Op m σ α) :=
  fun s hs => Ensures.pure (h s hs)

theorem ofQuery (query : σ → Query m α) : Op.Keeps p (Op.ofQuery query) := by
  intro s hs
  exact (ensures_true _).bind fun _ _ => Ensures.pure hs

end Op.Keeps

/-- An operation that is another one for the images of the states. -/
def Op.Maps [Monad m] {σ τ : Type} (image : σ → τ) (op : Op m σ α) (op' : Op m τ α) : Prop :=
  ∀ s, Prod.map id image <$> op.run s = op'.run (image s)

namespace Op.Maps

variable [Monad m] [LawfulMonad m] {σ τ : Type} {image : σ → τ} {op : Op m σ α} {op' : Op m τ α}
  {f : α → Op m σ β} {f' : α → Op m τ β}

theorem pure (a : α) : Op.Maps image (Pure.pure a : Op m σ α) (Pure.pure a) :=
  fun _ => map_pure _ _

theorem throw (error : Error) :
    Op.Maps image (MonadExcept.throw error : Op m σ α) (MonadExcept.throw error) :=
  fun _ => map_pure _ _

theorem bind (hop : Op.Maps image op op') (hf : ∀ a, Op.Maps image (f a) (f' a)) :
    Op.Maps image (op >>= f) (op' >>= f') := by
  intro s
  rw [Op.run_bind, Op.run_bind, ← hop s, map_bind, bind_map_left]
  refine bind_congr ?_
  rintro ⟨answer, s'⟩
  cases answer with
  | error error => exact map_pure _ _
  | ok a => exact hf a s'

theorem ofQuery {query : σ → Query m α} {query' : τ → Query m α}
    (h : ∀ s, query s = query' (image s)) :
    Op.Maps image (Op.ofQuery query) (Op.ofQuery query') := by
  intro s
  have hrun : (Op.ofQuery query).run s = (query s).run >>= fun answer => Pure.pure (answer, s) :=
    rfl
  rw [hrun, map_bind, h s]
  simp only [map_pure]
  rfl

end Op.Maps

/-! ## Copies -/

namespace Backend

open Multimap.Traversal

variable [Monad m] [LawfulMonad m] {σ τ κ ν : Type} [Backend m τ ν] {p : τ → Prop}

theorem keeps_putAll (hput : ∀ key value, Op.Keeps p (Backend.put (m := m) key value))
    (entries : List Entry) : Op.Keeps p (putAll (m := m) entries) := by
  induction entries with
  | nil => exact .pure ()
  | cons entry rest ih =>
      rw [putAll]
      cases entry.value with
      | none => exact ih
      | some value => exact (hput entry.key value).bind fun _ => ih

/-- A copy keeps what opening the target and adding to it keep, whatever the source
does. -/
theorem keeps_copyFrom [CursorState m κ] [Backend m σ κ]
    (hopen : ∀ request, Op.Keeps p (Backend.openAs (m := m) request))
    (hput : ∀ key value, Op.Keeps p (Backend.put (m := m) key value))
    (identifier : String) (source : σ) :
    Op.Keeps p (copyFrom (m := m) identifier source : Op m τ Unit) := by
  rw [copyFrom]
  refine (hopen _).bind fun _ => ?_
  exact (Op.Keeps.ofQuery _).bind fun pairs => keeps_putAll hput pairs.reverse

theorem maps_putAll {τ' ν' : Type} [Backend m τ' ν'] {image : τ → τ'}
    (hput : ∀ key value, Op.Maps image (Backend.put (m := m) key value) (Backend.put key value))
    (entries : List Entry) : Op.Maps image (putAll (m := m) entries) (putAll entries) := by
  induction entries with
  | nil => exact .pure ()
  | cons entry rest ih =>
      rw [putAll, putAll]
      cases entry.value with
      | none => exact ih
      | some value => exact (hput entry.key value).bind fun _ => ih

end Backend

end Multimap
