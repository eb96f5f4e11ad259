import Multimap.Proofs.Chained.Cursor
import Multimap.Proofs.Traversal.Enumeration

/-!
# Walking — what walks over a table hand out

The cursor of a well-formed table is one that walks can rely on, so they hand out the
contents of the table. The bound that a table gives for the length of its walks is
the number of its pairs, which no walk exceeds.
-/

namespace Multimap.Chained

open Multimap.Traversal

variable {m : Type → Type} [Monad m] [LawfulMonad m] {t : Table}

/-- The cursor has a reader that is at the given spot. -/
def Cursor.ShowsIn (t : Table) (c : Cursor) (spot : Option Spot) : Prop :=
  c.Mirrors { contents := t.contents, spot, finished := false }

theorem Cursor.showsIn_ofTable (h : t.WellFormed) : (Cursor.ofTable t).ShowsIn t none :=
  mirrors_ofTable h

theorem current?_wanted (s : Spot) (wantValue : Bool) :
    (s.current? wantValue).map (Entry.wanted wantValue) = s.current? wantValue := by
  cases wantValue with
  | false =>
      rw [Spot.current?, Option.map_map]
      rfl
  | true =>
      rw [Spot.current?, Option.map_map]
      rfl

theorem Cursor.faithful (t : Table) : Faithful m t.contents (fun c => Cursor.ShowsIn t c) where
  get c spot request wantValue hshows := by
    rcases hshows.get request wantValue with ⟨hanswer, hmirrors⟩
    refine Ensures.pure ⟨⟨_, hanswer, ?_⟩, hmirrors⟩
    cases t.contents.move spot request with
    | none => rfl
    | some s => exact current?_wanted s wantValue

theorem Table.WellFormed.drain (h : t.WellFormed) (scope : Scope) (wantValues : Bool) :
    Ensures (Walk.drain (m := m) (.ofState scope wantValues (Cursor.ofTable t))) fun items =>
      items = (t.contents.entries wantValues scope).map .ok := by
  have hstands := stands_ofState h.values_ne_nil (Cursor.showsIn_ofTable h) scope wantValues
  have hlength := Contents.length_entries_le h.values_ne_nil wantValues scope
  rw [← h.pairCount_eq] at hlength
  exact (Cursor.faithful t).drain hstands hlength

/-- Walks hand out exactly the entries of the contents, wherever their end is asked for.
They do so over every cursor that answers like a reader of contents in which no key is
without values, and the cursor of every reachable table is one. -/
theorem walks_enumerate :
    (∀ {κ : Type} [CursorState m κ] {contents : Contents} {shows : κ → Option Spot → Prop},
      Faithful m contents shows → (∀ b ∈ contents, b.2 ≠ []) →
        ∀ state, shows state none → ∀ scope wantValues,
          Enumerates m (.ofState scope wantValues state) (contents.entries wantValues scope)) ∧
    ∀ {tuning : Tuning} {t : Table}, t.Reachable tuning →
      t.contents.keys.Nodup ∧ (∀ b ∈ t.contents, b.2 ≠ []) ∧
        ∃ shows : Cursor → Option Spot → Prop,
          Faithful m t.contents shows ∧ shows (.ofTable t) none := by
  refine ⟨fun h hnonempty _ hshows => h.enumerates hnonempty hshows, ?_⟩
  intro tuning t h
  have hwf := h.wellFormed.2
  exact ⟨hwf.keys_nodup, hwf.values_ne_nil, _, Cursor.faithful t, Cursor.showsIn_ofTable hwf⟩

/-- All pairs, with their end asked for at the beginning, in the middle and at the end. -/
theorem walk_over_collision :
    (Walk.replies (m := Id) [.atEnd, .next, .atEnd, .next, .atEnd, .next] (.ofState .pairs true
      (Cursor.ofTable
        ((Table.standard.putIn .addressable [97] [1]).2.putIn .addressable [105] [2]).2))).run.1 =
      [.atEnd false, .next (some (.ok { key := [105], value := some [2] })), .atEnd false,
        .next (some (.ok { key := [97], value := some [1] })), .atEnd true, .next none] := by
  have hfresh : Table.Reachable {} Table.standard := .fresh rfl
  have hreachable := (hfresh.putIn .addressable [97] [1]).putIn .addressable [105] [2]
  rcases walks_enumerate (m := Id) with ⟨henumerates, htable⟩
  rcases htable hreachable with ⟨-, hnonempty, shows, hfaithful, hshows⟩
  have hreplies := (henumerates hfaithful hnonempty _ hshows .pairs true).1
    [.atEnd, .next, .atEnd, .next, .atEnd, .next]
  exact (ensures_id_iff.1 hreplies :).trans rfl

end Multimap.Chained
