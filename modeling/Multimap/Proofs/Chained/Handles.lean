import Multimap.Handle.Basic
import Multimap.Proofs.Chained.Refinement

/-!
# Handles over tables — what callers get to see

A handle over a well-formed table answers as a multimap does: whether a key or a pair is
there, what the newest value of a key is, and what all its values are.

* `Handle.Reflects` says which multimap a handle answers for;
* every handle over a well-formed table answers for the contents of the table
  (`Handle.reflects`).
-/

namespace Multimap

open Multimap.Traversal Multimap.Chained

namespace Handle

variable {m : Type → Type} [Monad m] [LawfulMonad m] {h : Handle m Table}

/-- What a handle answers about the keys of a multimap. -/
structure Reflects (h : Handle m Table) (model : Model) : Prop where
  contains_none : ∀ key, h.contains key none = pure (decide (model key ≠ []))
  contains_some : ∀ key value, h.contains key (some value) = pure (decide (value ∈ model key))
  first?_eq : ∀ key, h.first? key = pure (model key).head?
  walk : ∀ key wantValues, ∃ w, h.walk (.valuesOf key) wantValues = pure w ∧
    Enumerates m w ((model key).map (.ofPair wantValues key))

/-! ## The newest value -/

theorem run_seek (c : Traversal.Cursor Chained.Cursor) (key : Bytes) :
    (Traversal.Cursor.seek (m := m) key).run c =
      pure ((c.state.get (.seek key) true).1.map (·.bind Entry.value),
        { c with state := (c.state.get (.seek key) true).2 }) := by
  have hget : (Traversal.Cursor.get (m := m) (.seek key) true).run c =
      pure ((c.state.get (.seek key) true).1,
        { c with state := (c.state.get (.seek key) true).2 }) := pure_bind _ _
  rw [Traversal.Cursor.seek, Op.run_bind, hget, pure_bind]
  rcases c.state.get (.seek key) true with ⟨answer, state⟩
  cases answer <;> rfl

theorem discard_cursor (c : Traversal.Cursor Chained.Cursor) : c.discard (m := m) = pure () := by
  rw [Traversal.Cursor.discard, Traversal.Cursor.finish]
  split
  · exact pure_bind _ _
  · rw [bind_assoc]
    exact (pure_bind _ _).trans (pure_bind _ _)

theorem first?_of_wellFormed (hwf : h.store.WellFormed) (key : Bytes) :
    h.first? key = pure (h.store.contents.valuesOf key).head? := by
  have hcursor : h.cursor = pure (Traversal.Cursor.ofState (Chained.Cursor.ofTable h.store)) :=
    map_pure _ _
  have hanswer := ((Chained.Cursor.mirrors_ofTable hwf).get (.seek key) true).1
  have hvalue := h.store.contents.value_seek none key
  rw [first?, hcursor, pure_bind, run_seek, ← hvalue]
  simp only [liftM_pure, pure_bind, discard_cursor, Traversal.Cursor.ofState, hanswer]
  rfl

/-! ## All answers -/

theorem reflects (hwf : h.store.WellFormed) : h.Reflects h.store.contents.valuesOf where
  contains_none key := by
    have hflag : h.store.contains key none = decide (h.store.contents.valuesOf key ≠ []) := by
      rw [Bool.eq_iff_iff, decide_eq_true_iff]
      exact hwf.contains_none key
    exact congrArg pure hflag
  contains_some key value := by
    have hflag : h.store.contains key (some value) =
        decide (value ∈ h.store.contents.valuesOf key) := by
      rw [Bool.eq_iff_iff, decide_eq_true_iff]
      exact hwf.contains_some key value
    exact congrArg pure hflag
  first?_eq := first?_of_wellFormed hwf
  walk key wantValues := by
    refine ⟨_, map_pure _ _, ?_⟩
    exact (Chained.Cursor.faithful h.store).enumerates hwf.values_ne_nil
      (Chained.Cursor.showsIn_ofTable hwf) (.valuesOf key) wantValues

end Handle

end Multimap
