import Mathlib.Tactic.SplitIfs
import Multimap.Proofs.Settings.Written
import Multimap.Settings.Characters

/-!
# Placement — where the settings of a text stand in it

Reading a text invents nothing. Its settings stand in it one behind the other, each of them
a key, `=` and a value between quotes in which the backslashes that escape are the only
characters more. An error names the key whose value is open at the end of the text, and its
offset is the number of bytes in front of the opening quote.

* `SettingText` and `Laid` say how a setting stands in a text, and how several do;
* `Reached` says what is in front of a state: every step keeps it (`Reached.step`), hence
  every pass does (`Reached.pass`);
* hence the settings of a text are laid out in it (`laid_settings`), its error is placed
  (`unclosed_failure`), and a value has no characters of its own (`SettingText.sublist`).
-/

namespace Multimap.Settings

variable {value value' text text' : List Char} {c : Char}

theorem EscapedText.append (h : EscapedText value text) (h' : EscapedText value' text') :
    EscapedText (value ++ value') (text ++ text') := by
  induction h with
  | nil => exact h'
  | plain hquote hbackslash _ ih => exact .plain hquote hbackslash ih
  | escaped _ ih => exact .escaped ih

/-- A value is what stands for it without some of the backslashes. -/
theorem EscapedText.sublist (h : EscapedText value text) : value.Sublist text := by
  induction h with
  | nil => exact .slnil
  | plain _ _ _ ih => exact ih.cons_cons _
  | escaped _ ih => exact (ih.cons_cons _).cons _

namespace Characters

/-- A setting, and characters that stand for it. -/
inductive SettingText : TextSetting → List Char → Prop where
  | intro {key value : String} {before behind written : List Char} :
      key ≠ "" → (∀ c ∈ key.toList, isKeyChar c) →
      (∀ c ∈ before, isBlankChar c) → (∀ c ∈ behind, isBlankChar c) →
      EscapedText value.toList written →
      SettingText { key, value }
        (key.toList ++ before ++ ['='] ++ behind ++ ['\''] ++ written ++ ['\''])

/-- Settings that stand among characters, one behind the other. -/
inductive Laid : List TextSetting → List Char → Prop where
  | nil {gap : List Char} : Laid [] gap
  | concat {settings : List TextSetting} {setting : TextSetting} {front written gap : List Char} :
      Laid settings front → SettingText setting written →
      Laid (settings ++ [setting]) (front ++ written ++ gap)

/-- Characters that end in a value that is still open, and the error that this is. The tail is
a backslash that has nothing to escape, or nothing. -/
inductive Unclosed (settings : List TextSetting) : List Char → Error → Prop where
  | intro {front before behind written tail : List Char} {key value : String} :
      Laid settings front → key ≠ "" → (∀ c ∈ key.toList, isKeyChar c) →
      (∀ c ∈ before, isBlankChar c) → (∀ c ∈ behind, isBlankChar c) →
      EscapedText value.toList written → tail = [] ∨ tail = ['\\'] →
      Unclosed settings
        (front ++ key.toList ++ before ++ ['='] ++ behind ++ ['\''] ++ written ++ tail)
        (.unterminatedValue key
          (String.ofList (front ++ key.toList ++ before ++ ['='] ++ behind)).utf8ByteSize)

/-- What has been read when a state is reached: the settings that were completed, and behind
them what the state says. -/
inductive Reached (settings : List TextSetting) : List Char → State → Prop where
  | searching {seen : List Char} : Laid settings seen → Reached settings seen .searching
  | inKey {seen : List Char} {key : String} : Laid settings seen → key ≠ "" →
      (∀ c ∈ key.toList, isKeyChar c) → Reached settings (seen ++ key.toList) (.inKey key)
  | behindKey {seen gap : List Char} {key : String} : Reached settings seen (.inKey key) →
      (∀ c ∈ gap, isBlankChar c) → Reached settings (seen ++ gap) (.behindKey key)
  | behindEquals {seen gap : List Char} {key : String} : Reached settings seen (.behindKey key) →
      (∀ c ∈ gap, isBlankChar c) → Reached settings (seen ++ ['='] ++ gap) (.behindEquals key)
  | inValue {seen written : List Char} {key value : String} :
      Reached settings seen (.behindEquals key) → EscapedText value.toList written →
      Reached settings (seen ++ ['\''] ++ written)
        (.inValue key value (String.ofList seen).utf8ByteSize)
  | behindBackslash {seen : List Char} {key value : String} {quote : Nat} :
      Reached settings seen (.inValue key value quote) →
      Reached settings (seen ++ ['\\']) (.behindBackslash key value quote)

variable {settings : List TextSetting} {setting : TextSetting} {seen : List Char} {state : State}
  {key : String}

theorem Laid.append (h : Laid settings seen) (more : List Char) : Laid settings (seen ++ more) := by
  cases h with
  | nil => exact .nil
  | concat hfront hsetting =>
      rw [List.append_assoc _ _ more]
      exact .concat hfront hsetting

/-- Settings that were completed stay where they are. -/
theorem Reached.laid (h : Reached settings seen state) : Laid settings seen := by
  induction h with
  | searching hlaid => exact hlaid
  | inKey hlaid _ _ => exact hlaid.append _
  | behindKey _ _ ih => exact ih.append _
  | behindEquals _ _ ih => exact (ih.append _).append _
  | inValue _ _ ih => exact (ih.append _).append _
  | behindBackslash _ ih => exact ih.append _

/-- The closing quote completes the setting. -/
theorem Reached.close {value : String} {quote : Nat}
    (h : Reached settings seen (.inValue key value quote)) :
    Laid (settings ++ [⟨key, value⟩]) (seen ++ ['\'']) := by
  cases h with
  | inValue h hwritten =>
  cases h with
  | behindEquals h hbehind =>
  cases h with
  | behindKey h hbefore =>
  cases h with
  | inKey hlaid hne hkey =>
      have hsetting := SettingText.intro hne hkey hbefore hbehind hwritten
      simpa using @Laid.concat settings _ _ _ [] hlaid hsetting

/-- A value that the end of the text leaves open is an error. -/
theorem Reached.unclosed {value : String} {quote : Nat} {tail : List Char}
    (h : Reached settings seen (.inValue key value quote)) (htail : tail = [] ∨ tail = ['\\']) :
    Unclosed settings (seen ++ tail) (.unterminatedValue key quote) := by
  cases h with
  | inValue h hwritten =>
  cases h with
  | behindEquals h hbehind =>
  cases h with
  | behindKey h hbefore =>
  cases h with
  | inKey hlaid hne hkey => exact .intro hlaid hne hkey hbefore hbehind hwritten htail

theorem Reached.unclosed_of_ending {error : Error} (h : Reached settings seen state)
    (herror : error ∈ ending state) : Unclosed settings seen error := by
  cases state with
  | searching => cases herror
  | inKey key => cases herror
  | behindKey key => cases herror
  | behindEquals key => cases herror
  | inValue key value quote =>
      cases herror
      simpa using h.unclosed (.inl rfl)
  | behindBackslash key value quote =>
      cases herror
      cases h with
      | behindBackslash h => exact h.unclosed (.inr rfl)

/-! ## One character more -/

namespace Reached

variable {gap : List Char} {value : String} {quote : Nat}

theorem startKey (h : Laid settings seen) (hc : isKeyChar c) :
    Reached settings (seen ++ [c]) (.inKey (String.singleton c)) := by
  have hkey : ∀ d ∈ (String.singleton c).toList, isKeyChar d := by simpa using hc
  simpa using Reached.inKey h (by simp [← String.toList_eq_nil_iff]) hkey

theorem pushKey (h : Reached settings seen (.inKey key)) (hc : isKeyChar c) :
    Reached settings (seen ++ [c]) (.inKey (key.push c)) := by
  cases h with
  | inKey hlaid _ hkey =>
      have hpush : ∀ d ∈ (key.push c).toList, isKeyChar d := by
        simpa [or_imp, forall_and] using ⟨hkey, hc⟩
      simpa using Reached.inKey hlaid (by simp [← String.toList_eq_nil_iff]) hpush

theorem blankBehindKey (h : Reached settings seen (.behindKey key)) (hc : isBlankChar c) :
    Reached settings (seen ++ [c]) (.behindKey key) := by
  cases h with
  | behindKey h hgap =>
      have hmore : ∀ d ∈ _ ++ [c], isBlankChar d := List.forall_mem_append.2 ⟨hgap, by simpa⟩
      simpa using h.behindKey hmore

theorem equals (h : Reached settings seen (.behindKey key)) :
    Reached settings (seen ++ ['=']) (.behindEquals key) := by
  simpa using h.behindEquals (List.forall_mem_nil _)

theorem blankBehindEquals (h : Reached settings seen (.behindEquals key)) (hc : isBlankChar c) :
    Reached settings (seen ++ [c]) (.behindEquals key) := by
  cases h with
  | behindEquals h hgap =>
      have hmore : ∀ d ∈ _ ++ [c], isBlankChar d := List.forall_mem_append.2 ⟨hgap, by simpa⟩
      simpa using h.behindEquals hmore

theorem openValue (h : Reached settings seen (.behindEquals key)) :
    Reached settings (seen ++ ['\''])
      (.inValue key "" (String.ofList seen).utf8ByteSize) := by
  have hnone : EscapedText "".toList [] := .nil
  simpa using h.inValue hnone

/-- A value takes in a character, plain or behind a backslash. -/
theorem pushValue (h : Reached settings seen (.inValue key value quote)) {more : List Char}
    (hmore : EscapedText [c] more) :
    Reached settings (seen ++ more) (.inValue key (value.push c) quote) := by
  cases h with
  | inValue h hwritten =>
      have hpush : EscapedText (value.push c).toList (_ ++ more) :=
        String.toList_push c ▸ hwritten.append hmore
      simpa using Reached.inValue h hpush

/-- A character that does not fit takes the search back to its beginning. -/
theorem restart (h : Reached settings seen state) (c : Char) :
    Reached settings (seen ++ [c]) .searching :=
  .searching (h.laid.append [c])

/-- A step adds its character to what has been read, and the setting that it completes. -/
theorem step (h : Reached settings seen state) (c : Char) :
    Reached (settings ++ (step (String.ofList seen).utf8ByteSize c state).2.toList) (seen ++ [c])
      (step (String.ofList seen).utf8ByteSize c state).1 := by
  cases state with
  | searching =>
      rw [Characters.step]
      split_ifs with hkey
      · simpa using startKey h.laid hkey
      · simpa using h.restart c
  | inKey key =>
      -- A key may end without a blank behind it.
      have hend : Reached settings (seen ++ []) (.behindKey key) :=
        .behindKey h (List.forall_mem_nil _)
      rw [Characters.step]
      split_ifs with hkey hequals hblank
      · simpa using h.pushKey hkey
      · simpa [hequals] using hend.equals
      · simpa using hend.blankBehindKey hblank
      · simpa using h.restart c
  | behindKey key =>
      rw [Characters.step]
      split_ifs with hequals hblank
      · simpa [hequals] using h.equals
      · simpa using h.blankBehindKey hblank
      · simpa using h.restart c
  | behindEquals key =>
      rw [Characters.step]
      split_ifs with hquote hblank
      · simpa [hquote] using h.openValue
      · simpa using h.blankBehindEquals hblank
      · simpa using h.restart c
  | inValue key value quote =>
      rw [Characters.step]
      split_ifs with hbackslash hquote
      · simpa [hbackslash] using h.behindBackslash
      · simpa [hquote] using Reached.searching h.close
      · simpa using h.pushValue (.plain hquote hbackslash .nil)
  | behindBackslash key value quote =>
      cases h with
      | behindBackslash h => simpa [Characters.step] using h.pushValue (c := c) (.escaped .nil)

/-- A pass adds its characters to what has been read, and the settings that it completes. -/
theorem pass (h : Reached settings seen state) (chars : List Char) :
    Reached (settings ++ (pass state (String.ofList seen).utf8ByteSize chars).1) (seen ++ chars)
      (pass state (String.ofList seen).utf8ByteSize chars).2 := by
  induction chars generalizing settings seen state with
  | nil => simpa [Characters.pass] using h
  | cons c chars ih =>
      -- The offset of the next character is the size of what has been read by then.
      have hsize : (String.ofList seen).utf8ByteSize + c.utf8Size =
          (String.ofList (seen ++ [c])).utf8ByteSize := by
        rw [String.ofList_append, String.utf8ByteSize_append, String.ofList_cons, String.ofList_nil,
          String.append_empty, String.utf8ByteSize_singleton]
      rw [Characters.pass, hsize]
      simpa using ih (h.step c)

end Reached

/-! ## Whole texts -/

theorem reached_text (text : String) :
    Reached (Characters.settings text) text.toList
      (Characters.pass .searching 0 text.toList).2 := by
  have hempty : Reached [] [] .searching := .searching .nil
  exact hempty.pass text.toList

/-- The settings of a text stand in it, one behind the other. -/
theorem laid_settings (text : String) : Laid (Characters.settings text) text.toList :=
  (reached_text text).laid

/-- The error of a text is a value that stands open at its end. -/
theorem unclosed_failure {text : String} {error : Error} (h : error ∈ failure text) :
    Unclosed (Characters.settings text) text.toList error :=
  (reached_text text).unclosed_of_ending h

/-- Each of the settings stands somewhere. -/
theorem Laid.exists_written (h : Laid settings seen) (hsetting : setting ∈ settings) :
    ∃ front written back, seen = front ++ written ++ back ∧ SettingText setting written := by
  induction h with
  | nil => cases hsetting
  | @concat settings last front written gap _ hlast ih =>
      rcases List.mem_append.1 hsetting with hmem | hmem
      · obtain ⟨front', written', back, rfl, hwritten⟩ := ih hmem
        exact ⟨front', written', back ++ written ++ gap, by simp, hwritten⟩
      · obtain rfl := List.mem_singleton.1 hmem
        exact ⟨front, written, gap, rfl, hlast⟩

/-- The characters of a value are characters of the text, in their order. -/
theorem SettingText.sublist {written : List Char} (h : SettingText setting written) :
    setting.value.toList.Sublist written := by
  cases h with
  | intro _ _ _ _ hvalue =>
      exact (hvalue.sublist.trans (List.sublist_append_right _ _)).trans
        (List.sublist_append_left _ _)

end Characters

end Multimap.Settings
