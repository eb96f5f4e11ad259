import Multimap.Proofs.Chained.Settings
import Multimap.Proofs.Settings.Joining

/-!
# Reading — what any settings text does to a table

A settings text is read into a handle as far as it goes. Where a value never closes, the
settings in front of it are in the table and the error is the answer. Reading two texts one
after the other is reading them as one text with a comma between them.

* `Handle.Gained` says what a table has after settings were added to it, and that nothing
  else of the handle has changed;
* settings are added up to the first error (`Handle.run_putItems_append`,
  `Handle.run_putItems_outcome`);
* every text adds its settings and answers with its error (`Handle.putSettings_of_parsed`);
* hence what a text with a comma does is what its parts do (`Handle.settings_joined`).
-/

namespace Multimap

open Multimap.Chained Multimap.Settings

/-- What reading a text answers that has this error, or none. -/
def Settings.outcome (failure : Option Error) : Except Error Unit :=
  failure.elim (.ok ()) .error

namespace Handle

variable {m : Type → Type} [Monad m] [LawfulMonad m]

/-- The handle after settings were added: in its table each key has their values, the last of
them first, in front of those that it had before. -/
structure Gained (h : Handle m Table) (settings : List Setting) (h' : Handle m Table) : Prop where
  handle_eq : h' = { h with store := h'.store }
  filled : h.store.Filled (pairsOf settings) h'.store

section

variable {σ κ : Type} [Backend m σ κ] {h h' : Handle m σ} {settings : List Setting}

/-- Settings in front of other items are added first. -/
theorem putItems_append (settings : List Setting) (rest : List Item) :
    (putItems (settings.map .ok ++ rest) : Op m (Handle m σ) Unit) =
      putItems (settings.map .ok) >>= fun _ => putItems rest := by
  induction settings with
  | nil => exact (pure_bind (m := Op m (Handle m σ)) () fun _ => putItems rest).symm
  | cons setting settings ih =>
      calc (putItems (.ok setting :: (settings.map .ok ++ rest)) : Op m (Handle m σ) Unit)
          = put setting.key setting.value >>= fun _ =>
              putItems (settings.map .ok) >>= fun _ => putItems rest := by rw [← ih]; rfl
        _ = _ := (bind_assoc _ _ _).symm

theorem run_putItems_append (hrun : (putItems (settings.map .ok)).run h = pure (.ok (), h'))
    (rest : List Item) :
    (putItems (settings.map .ok ++ rest)).run h = (putItems rest).run h' := by
  rw [putItems_append, Op.run_bind, hrun, pure_bind]

/-- An error behind settings is the answer, and the settings are there all the same. -/
theorem run_putItems_outcome (hrun : (putItems (settings.map .ok)).run h = pure (.ok (), h'))
    (failure : Option Error) :
    (putItems (settings.map .ok ++ failure.toList.map .error)).run h =
      pure (outcome failure, h') := by
  rw [run_putItems_append hrun]
  cases failure <;> rfl

theorem run_putSettings {text : String} {failure : Option Error}
    (hparsed : Parsed (.ofText text) settings failure)
    (hrun : (putItems (settings.map .ok)).run h = pure (.ok (), h')) :
    (putSettings text).run h = pure (outcome failure, h') := by
  rw [putSettings, hparsed.items_eq, run_putItems_outcome hrun]

theorem outcome_map (f : Error → Error) (failure : Option Error) :
    outcome (failure.map f) = (outcome failure).mapError f := by
  cases failure <;> rfl

/-- Behind a text without an error and a comma, another text is read as it is by itself. -/
theorem run_putSettings_comma {front back : String} {settings' : List Setting}
    {failure : Option Error} {last : Handle m σ} (hfront : Parsed (.ofText front) settings none)
    (hback : Parsed (.ofText back) settings' failure)
    (hrun : (putItems (settings.map .ok)).run h = pure (.ok (), h'))
    (hlast : (putItems (settings'.map .ok)).run h' = pure (.ok (), last)) :
    (putSettings (front ++ "," ++ back)).run h =
      pure ((outcome failure).mapError (Error.shift (front.utf8ByteSize + 1)), last) := by
  rw [putSettings, items_ofText_comma hfront.free, hfront.items_eq, hback.map_shift,
    Option.toList_none, List.map_nil, List.append_nil, run_putItems_append hrun,
    run_putItems_outcome hlast, outcome_map]

end

variable {h : Handle m Table} {tuning : Tuning} {settings : List Setting}

/-- Settings can be added wherever there are buckets or the first ones can be had. -/
theorem exists_gained (hwf : h.store.WellFormed) (hgranted : h.store.Granted .addressable)
    (settings : List Setting) :
    ∃ h', (putItems (settings.map .ok)).run h = pure (.ok (), h') ∧ h.Gained settings h' ∧
      h'.store.Granted .addressable := by
  obtain ⟨t, hrun, hfilled, hgranted'⟩ :=
    hwf.putAll_of_granted (m := m) Memory.ample_addressable hgranted (pairsOf settings)
  refine ⟨{ h with store := t }, ?_, ⟨rfl, hfilled⟩, hgranted'⟩
  rw [run_putItems, run_onStore]
  exact hrun ▸ pure_bind (m := m) _ _

/-- Every text adds its settings, and its error is the answer. -/
theorem putSettings_of_parsed (hwf : h.store.WellFormed) (hgranted : h.store.Granted .addressable)
    {text : String} {failure : Option Error} (hparsed : Parsed (.ofText text) settings failure) :
    ∃ h', (putSettings text).run h = pure (outcome failure, h') ∧ h.Gained settings h' := by
  obtain ⟨h', hrun, hgained, -⟩ := exists_gained hwf hgranted settings
  exact ⟨h', run_putSettings hparsed hrun, hgained⟩

/-- A text without an error, a comma and another text are read as the two texts one after the
other, and leave the same handle. The error of the second text is then found further on, by
the length of the first and the comma. Whatever a text is like, the settings in front of its
error are all added and nothing else is, and the error is the answer. -/
theorem settings_joined (hreachable : h.store.Reachable tuning)
    (hbuckets : h.store.capacity ≠ 0 ∨ tuning.initialCapacity < Memory.limit) :
    (∀ {front : String} (back : String), (∀ error, .error error ∉ items (.ofText front)) →
      items (.ofText (front ++ "," ++ back)) = items (.ofText front) ++
          (items (.ofText back)).map (Except.mapError (Error.shift (front.utf8ByteSize + 1))) ∧
        ∃ behind answer last, (putSettings front).run h = pure (.ok (), behind) ∧
          (putSettings back).run behind = pure (answer, last) ∧
          (putSettings (front ++ "," ++ back)).run h =
            pure (answer.mapError (Error.shift (front.utf8ByteSize + 1)), last)) ∧
    ∀ text, ∃ settings failure h', Parsed (.ofText text) settings failure ∧
      (putSettings text).run h = pure (outcome failure, h') ∧ h.Gained settings h' := by
  have hwf := hreachable.wellFormed.2
  have hgranted := hreachable.granted hbuckets
  constructor
  · intro front back hfree
    refine ⟨items_ofText_comma hfree back, ?_⟩
    obtain ⟨settings, failure, hfront⟩ := exists_parsed (.ofText front)
    obtain ⟨settings', failure', hback⟩ := exists_parsed (.ofText back)
    obtain rfl : failure = none := hfront.failure_eq_none hfree
    -- The table behind the first text has room for the settings of the second.
    obtain ⟨behind, hrun, hgained, hgranted'⟩ := exists_gained hwf hgranted settings
    obtain ⟨last, hlast, -, -⟩ := exists_gained hgained.filled.wellFormed hgranted' settings'
    exact ⟨behind, outcome failure', last, run_putSettings hfront hrun,
      run_putSettings hback hlast, run_putSettings_comma hfront hback hrun hlast⟩
  · intro text
    obtain ⟨settings, failure, hparsed⟩ := exists_parsed (.ofText text)
    obtain ⟨h', hrun, hgained⟩ := putSettings_of_parsed hwf hgranted hparsed
    exact ⟨settings, failure, h', hparsed, hrun, hgained⟩

/-- A key without a value stands in front of the comma, and behind it a value that never
closes. -/
theorem joined_with_open_value :
    let front := "a='1' b = "
    let back := "a='2'c='x"
    let handle : Handle Id Table :=
      { factory := ⟨"memory", tableSize, cursorSize, pure .standard⟩,
        store := .standard, identifier := none }
    (∀ error, .error error ∉ items (.ofText front)) ∧
      ∃ behind answer last, ((putSettings front).run handle).run = (.ok (), behind) ∧
        ((putSettings back).run behind).run = (answer, last) ∧
        ((putSettings (front ++ "," ++ back)).run handle).run =
          (.error (.unterminatedValue "c" 18), last) ∧
        last.store.contents.valuesOf [97] = [[50], [49]] ∧
        last.store.contents.valuesOf [99] = [] := by
  intro front back handle
  have hreachable : handle.store.Reachable {} := .fresh rfl
  obtain ⟨hjoin, hread⟩ := settings_joined (m := Id) hreachable (.inr (by decide))
  have hfront : items (.ofText front) = [.ok ⟨[97], [49]⟩] := by
    rw [items_eq_run]
    decide +kernel
  have hfree : ∀ error, .error error ∉ items (.ofText front) := by
    rw [hfront]
    simp
  have hopen : Parsed (.ofText (front ++ "," ++ back)) [⟨[97], [49]⟩, ⟨[97], [50]⟩]
      (some (.unterminatedValue "c" 18)) := by
    refine ⟨?_, ?_⟩
    · rw [items_eq_run]
      decide +kernel
    · rintro error ⟨⟩
      exact ⟨_, _, rfl⟩
  obtain ⟨-, behind, answer, last, hrun, hrun', hjoined⟩ := hjoin back hfree
  obtain ⟨settings, failure, last', hparsed, hlast, hgained⟩ := hread (front ++ "," ++ back)
  obtain ⟨rfl, rfl⟩ := hparsed.unique hopen
  obtain rfl : last = last' := congrArg Prod.snd (hjoined.symm.trans hlast)
  refine ⟨hfree, behind, answer, last, hrun, hrun', hlast, ?_, ?_⟩
  · exact hgained.filled.valuesOf_eq [97]
  · exact hgained.filled.valuesOf_eq [99]

end Handle

end Multimap
