import Multimap.Handle.Texts
import Multimap.Proofs.Chained.Filling
import Multimap.Proofs.Chained.Handles
import Multimap.Proofs.Settings.Written

/-!
# Settings in a table — what a written text leaves there

Settings that were written as a text and read into a handle over a fresh table are all
there: under every key the values written for it, the last of them first.

* adding settings is adding pairs (`Handle.putItems_eq`);
* reading a written text never fails and leaves exactly its settings
  (`written_read_back`).
-/

namespace Multimap

open Multimap.Traversal Multimap.Chained Multimap.Settings

variable {m : Type → Type} [Monad m] [LawfulMonad m]

namespace Handle

variable {σ κ : Type} [Backend m σ κ]

omit [LawfulMonad m] in
theorem run_onStore {α : Type} (op : Op m σ α) (h : Handle m σ) :
    (onStore op).run h = op.run h.store >>= fun (answer, store) =>
      pure (answer, { h with store }) :=
  rfl

/-- The pairs of settings. -/
def pairsOf (settings : List Setting) : List (Bytes × Bytes) :=
  settings.map fun setting => (setting.key, setting.value)

/-- Adding settings to a handle is adding their pairs to its backend. -/
theorem run_putItems (settings : List Setting) (h : Handle m σ) :
    (putItems (settings.map .ok)).run h =
      (onStore (Backend.putAll (Table.entriesOf (pairsOf settings)))).run h := by
  induction settings generalizing h with
  | nil =>
      have hnone : (Backend.putAll (m := m) (Table.entriesOf (pairsOf []))).run h.store =
          pure (.ok (), h.store) := rfl
      rw [run_onStore, hnone, pure_bind]
      rfl
  | cons setting settings ih =>
      calc (putItems (.ok setting :: settings.map .ok)).run h
          = (onStore (Backend.put setting.key setting.value) >>= fun _ =>
              putItems (settings.map .ok)).run h := rfl
        _ = (onStore (Backend.put setting.key setting.value >>= fun _ =>
              Backend.putAll (Table.entriesOf (pairsOf settings)))).run h := by
            rw [Op.run_bind, run_onStore, run_onStore, Op.run_bind, bind_assoc, bind_assoc]
            refine bind_congr fun outcome => ?_
            obtain ⟨answer, store⟩ := outcome
            rw [pure_bind]
            cases answer with
            | error error =>
                dsimp only
                rw [pure_bind]
            | ok _ => exact ih { h with store }

end Handle

namespace Handle

variable {h : Handle m Table} {tuning : Tuning} {settings : List Setting} {text : String}

theorem listed_pairsOf (settings : List Setting) (key : Bytes) :
    Contents.listed (pairsOf settings) key =
      (settings.filter (·.key == key)).map Setting.value := by
  rw [Contents.listed, pairsOf, List.filter_map, List.map_map]
  rfl

/-- A written text is read into a fresh table without an error, and its settings are what
the table holds then. -/
theorem putSettings_written (hfresh : Table.ofTuning tuning = .ok h.store)
    (hlimit : tuning.initialCapacity < Memory.limit) (hwritten : Written settings (.ofText text)) :
    ∃ filled, (putSettings text).run h = pure (.ok (), filled) ∧
      filled.Reflects fun key => ((settings.filter (·.key == key)).map Setting.value).reverse := by
  obtain ⟨hvalid, hempty⟩ := Table.eq_empty_of_ofTuning hfresh
  have hwf : h.store.WellFormed := hempty ▸ Table.wellFormed_empty tuning hvalid
  have hgranted : Memory.addressable (.buckets h.store.tuning.initialCapacity) = true := by
    rw [hempty]
    exact decide_eq_true hlimit
  obtain ⟨t, hrun, hfilled⟩ :=
    hwf.putAll (m := m) Memory.ample_addressable hgranted (pairsOf settings)
  have hvalues : t.contents.valuesOf =
      fun key => ((settings.filter (·.key == key)).map Setting.value).reverse := by
    funext key
    have hnil : h.store.contents.valuesOf key = [] := by
      rw [hempty]
      rfl
    rw [hfilled.valuesOf_eq, hnil, List.append_nil, listed_pairsOf]
  refine ⟨{ h with store := t }, ?_, hvalues ▸ reflects hfilled.wellFormed⟩
  rw [putSettings, items_of_written hwritten, run_putItems, run_onStore]
  exact hrun ▸ pure_bind (m := m) _ _

end Handle

/-- Reading gives back what was written, and a table that was fresh holds the written
values of each key from then on, the last of them first. Escapes may stand before
characters of a value as well as before bytes. -/
theorem written_read_back :
    (∀ {settings : List Setting} {text : Bytes}, Written settings text →
      items text = settings.map .ok) ∧
    (∀ {value text : List Char}, EscapedText value text →
      WrittenValue (value.flatMap String.utf8EncodeChar) (text.flatMap String.utf8EncodeChar)) ∧
    ∀ {h : Handle m Table} {tuning : Tuning}, Table.ofTuning tuning = .ok h.store →
      tuning.initialCapacity < Memory.limit →
        ∀ {settings : List Setting} {text : String}, Written settings (.ofText text) →
          ∃ filled, (Handle.putSettings text).run h = pure (.ok (), filled) ∧
            filled.Reflects fun key =>
              ((settings.filter (·.key == key)).map Setting.value).reverse := by
  refine ⟨items_of_written, writtenValue_of_escaped, ?_⟩
  intro h tuning hfresh hlimit settings text hwritten
  exact Handle.putSettings_written hfresh hlimit hwritten

/-- Two settings of one key around one of another, with blanks before `=`, with a comma
and without anything between them, and with escapes that are needed and that are not. -/
theorem written_around_key :
    let text := "a ='1',b='\\'\\ü'a='\\\\'"
    let settings : List Setting := [⟨[97], [49]⟩, ⟨[98], [39, 0xC3, 0xBC]⟩, ⟨[97], [92]⟩]
    let handle : Handle Id Table :=
      { factory := ⟨"memory", tableSize, cursorSize, pure .standard⟩,
        store := .standard, identifier := none }
    items (.ofText text) = settings.map .ok ∧
      ∃ filled, ((Handle.putSettings text).run handle).run = (.ok (), filled) ∧
        ∃ w, filled.walk (.valuesOf [97]) true = pure w ∧
          Enumerates Id w [.ofPair true [97] [92], .ofPair true [97] [49]] := by
  intro text settings handle
  obtain ⟨hitems, hescaped, hfill⟩ := written_read_back (m := Id)
  have hvalue : WrittenValue [39, 0xC3, 0xBC] [92, 39, 92, 0xC3, 0xBC] :=
    hescaped (.escaped (c := '\'') (.escaped (c := 'ü') .nil))
  let first : Bytes := [97] ++ [32] ++ [61] ++ [] ++ [39] ++ [49] ++ [39]
  let second : Bytes := [98] ++ [] ++ [61] ++ [] ++ [39] ++ [92, 39, 92, 0xC3, 0xBC] ++ [39]
  let third : Bytes := [97] ++ [] ++ [61] ++ [] ++ [39] ++ [92, 92] ++ [39]
  have hnone : ∀ {p : UInt8 → Prop}, ∀ b ∈ ([] : Bytes), p b := List.forall_mem_nil _
  have hone : ∀ {p : UInt8 → Prop} {b : UInt8}, p b → ∀ c ∈ [b], p c := List.forall_mem_singleton.2
  have hfirst : WrittenSetting ⟨[97], [49]⟩ first :=
    .intro (by decide) (hone rfl) (hone rfl) hnone (.plain (by decide) (by decide) .nil)
  have hsecond : WrittenSetting ⟨[98], [39, 0xC3, 0xBC]⟩ second :=
    .intro (by decide) (hone rfl) hnone hnone hvalue
  have hthird : WrittenSetting ⟨[97], [92]⟩ third :=
    .intro (by decide) (hone rfl) hnone hnone (.escaped .nil)
  have hbytes : Bytes.ofText text = [] ++ first ++ ([44] ++ second ++ ([] ++ third ++ [])) := by
    decide
  have hwritten : Written settings (.ofText text) := by
    rw [hbytes]
    exact .cons hnone hfirst (.cons (hone rfl) hsecond (.cons hnone hthird (.nil hnone)))
  refine ⟨hitems hwritten, ?_⟩
  have hfresh : Table.ofTuning {} = .ok handle.store := rfl
  obtain ⟨filled, hrun, hreflects⟩ := hfill hfresh (by decide) hwritten
  exact ⟨filled, hrun, hreflects.walk [97] true⟩

end Multimap
