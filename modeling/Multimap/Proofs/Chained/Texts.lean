import Multimap.Proofs.Chained.Integers
import Multimap.Proofs.Chained.Reading
import Multimap.Proofs.Settings.Characters
import Multimap.Proofs.Settings.Placement

/-!
# Texts in tables — no character is taken apart

A settings text is read byte by byte, kept as bytes and decoded when a key is looked up. The
characters that come out are those that were written between the quotes, whatever characters
they are and wherever backslashes stand.

* `KeptWhole` says what the characters of a text have to do with its items;
* a key that settings were read for has the value of the last of them, as a text, and every
  other key has the one that it had before (`Handle.getText?_of_gained`);
* every text is kept whole, in its items and in the tables that it is read into
  (`texts_kept_whole`).
-/

namespace Multimap

open Multimap.Chained Multimap.Settings Multimap.Text

namespace Settings.Characters

/-- The items of a text are those of its characters. Its settings stand in it in order, their
keys are not empty and in ASCII, and the bytes of their values are well formed and are
characters of the text. -/
structure KeptWhole (text : String) : Prop where
  parsed : Parsed (.ofText text) ((settings text).map TextSetting.encode) (failure text)
  laid : Laid (settings text) text.toList
  unclosed : ∀ error ∈ failure text, Unclosed (settings text) text.toList error
  key_ne : ∀ s ∈ settings text, s.key ≠ ""
  key_ascii : ∀ s ∈ settings text, ∀ c ∈ s.key.toList, c.toNat < 0x80
  decode?_eq : ∀ s ∈ settings text, Utf8.decode? s.encode.value = some s.value
  sublist : ∀ s ∈ settings text, s.value.toList.Sublist text.toList

theorem toNat_lt_of_isKeyChar {c : Char} (h : isKeyChar c) : c.toNat < 0x80 := by
  by_contra hhigh
  rw [(classes_of_highChar (Nat.le_of_not_lt hhigh)).1] at h
  cases h

theorem keptWhole (text : String) : KeptWhole text where
  parsed := parsed_ofText text
  laid := laid_settings text
  unclosed _ := unclosed_failure
  key_ne s hs := by
    obtain ⟨front, written, back, -, hwritten⟩ := (laid_settings text).exists_written hs
    cases hwritten with
    | intro hne _ _ _ _ => exact hne
  key_ascii s hs c hc := by
    obtain ⟨front, written, back, -, hwritten⟩ := (laid_settings text).exists_written hs
    cases hwritten with
    | intro _ hkey _ _ _ => exact toNat_lt_of_isKeyChar (hkey c hc)
  decode?_eq s _ := Utf8.decode?_ofText s.value
  sublist s hs := by
    obtain ⟨front, written, back, htext, hwritten⟩ := (laid_settings text).exists_written hs
    rw [htext]
    exact (hwritten.sublist.trans (List.sublist_append_right _ _)).trans
      (List.sublist_append_left _ _)

/-- The value of the last setting of a key. -/
def newest? (settings : List TextSetting) (key : String) : Option String :=
  (settings.reverse.find? (·.key == key)).map TextSetting.value

/-- The values that settings have for a key, as bytes. -/
theorem listed_encode (settings : List TextSetting) (key : String) :
    Traversal.Contents.listed (Handle.pairsOf (settings.map TextSetting.encode)) (.ofText key) =
      (settings.filter (·.key == key)).map fun s => .ofText s.value := by
  -- Different texts have different bytes, so it is all the same where keys are compared.
  have hkey : ∀ s : TextSetting, (s.encode.key == Bytes.ofText key) = (s.key == key) := by
    intro s
    rw [Bool.eq_iff_iff, beq_iff_eq, beq_iff_eq]
    exact Utf8.ofText_injective.eq_iff
  rw [Handle.listed_pairsOf, List.filter_map, List.map_map]
  exact congrArg (List.map _) (List.filter_congr fun s _ => hkey s)

theorem head?_listed_encode (settings : List TextSetting) (key : String) :
    (Traversal.Contents.listed (Handle.pairsOf (settings.map TextSetting.encode))
      (.ofText key)).reverse.head? = (newest? settings key).map Bytes.ofText := by
  rw [listed_encode, ← List.map_reverse, ← List.filter_reverse, List.head?_map, List.head?_filter,
    newest?, Option.map_map]
  rfl

end Settings.Characters

open Settings.Characters

variable {m : Type → Type} [Monad m] [LawfulMonad m]

namespace Handle

variable {h h' : Handle m Table} {settings : List TextSetting}

/-- The newest value of a key is the one of the last setting of it, if there is one. -/
theorem getText?_of_gained (hwf : h.store.WellFormed)
    (hgained : h.Gained (settings.map TextSetting.encode) h') (key : String) :
    h'.getText? key =
      match newest? settings key with
      | some value => pure (some value)
      | none => h.getText? key := by
  rw [getText?_of_wellFormed hgained.filled.wellFormed, getText?_of_wellFormed hwf,
    hgained.filled.valuesOf_eq, List.head?_append, head?_listed_encode]
  cases newest? settings key with
  | none => rfl
  | some value => exact congrArg (pure <| some ·) (Utf8.lossy_ofText value)

end Handle

/-- Every text is read as its characters are, and no character of it is taken apart or
replaced. What a key of a table is read as is then exactly the value that the text has for it
last, or what it was read as before if the text has none. -/
theorem texts_kept_whole :
    (∀ text, KeptWhole text) ∧
    ∀ {h : Handle m Table} {tuning : Tuning}, h.store.Reachable tuning →
      h.store.capacity ≠ 0 ∨ tuning.initialCapacity < Memory.limit →
        ∀ text, ∃ filled,
          (Handle.putSettings text).run h = pure (outcome (failure text), filled) ∧
            ∀ key, filled.getText? key =
              match newest? (Characters.settings text) key with
              | some value => pure (some value)
              | none => h.getText? key := by
  refine ⟨keptWhole, ?_⟩
  intro h tuning hreachable hbuckets text
  have hwf := hreachable.wellFormed.2
  obtain ⟨filled, hrun, hgained⟩ :=
    Handle.putSettings_of_parsed hwf (hreachable.granted hbuckets) (parsed_ofText text)
  exact ⟨filled, hrun, Handle.getText?_of_gained hwf hgained⟩

/-- Backslashes before characters of two and of four bytes, a quote behind a backslash, and at
the end a value that does not close, with a character of three bytes in front of it. -/
theorem kept_whole_behind_backslash :
    let text := "k='\\ä\\😀' ö k ='\\'ü' € l='"
    let handle : Handle Id Table :=
      { factory := ⟨"memory", tableSize, cursorSize, pure .standard⟩,
        store := .standard, identifier := none }
    KeptWhole text ∧ Characters.settings text = [⟨"k", "ä😀"⟩, ⟨"k", "'ü"⟩] ∧
      Table.Reachable {} handle.store ∧
      ∃ filled, ((Handle.putSettings text).run handle).run =
          (.error (.unterminatedValue "l" 32), filled) ∧
        filled.getText? "k" = pure (some "'ü") ∧ filled.getText? "l" = handle.getText? "l" := by
  intro text handle
  obtain ⟨hkept, hread⟩ := texts_kept_whole (m := Id)
  have hreachable : handle.store.Reachable {} := .fresh rfl
  have hsettings : Characters.settings text = [⟨"k", "ä😀"⟩, ⟨"k", "'ü"⟩] := by decide +kernel
  have hfailure : failure text = some (.unterminatedValue "l" 32) := by decide +kernel
  obtain ⟨filled, hrun, hvalues⟩ := hread hreachable (.inr (by decide)) text
  rw [hfailure] at hrun
  rw [hsettings] at hvalues
  exact ⟨hkept text, hsettings, hreachable, filled, hrun, hvalues "k", hvalues "l"⟩

end Multimap
