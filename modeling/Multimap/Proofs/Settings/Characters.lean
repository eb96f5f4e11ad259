import Multimap.Proofs.Settings.Joining
import Multimap.Proofs.Settings.Written
import Multimap.Proofs.Text.Utf8
import Multimap.Settings.Characters

/-!
# Characters — bytes are read as the characters that they encode

The notation is read byte by byte, and a byte of a character outside of ASCII is no byte that
the notation knows. So a text is read as the same settings as its characters are, wherever
such a character stands: in a key, at a blank, in a value or behind a backslash.

* a character in ASCII is one byte and is classified alike (`isKeyByte_ofNat`,
  `isBlank_ofNat`), and a byte outside of ASCII is of no class (`step_of_high`);
* the bytes of a character do what the character does, whatever was read before it
  (`pass_encode`), and so do the bytes of all characters (`pass_flatMap_encode`);
* hence a text is read as its characters are (`parsed_ofText`).
-/

namespace Multimap.Settings

open Multimap.Text (isBlank)

namespace Characters

variable {state : State} {offset : Nat} {c : Char} {b : UInt8} {bytes : Bytes}

/-! ## Characters in ASCII -/

/-- What holds of the first 128 characters holds of every character in ASCII. -/
theorem forall_ascii {p : Char → Prop} (h : ∀ n : Fin 0x80, p (Char.ofNat n))
    (hc : c.toNat < 0x80) : p c :=
  Char.ofNat_toNat c ▸ h ⟨c.toNat, hc⟩

theorem utf8EncodeChar_ascii (hc : c.toNat < 0x80) :
    String.utf8EncodeChar c = [.ofNat c.toNat] := by
  have hle : c.val.toNat ≤ 0x7F := Nat.le_of_lt_succ hc
  rw [String.utf8EncodeChar]
  exact if_pos hle

theorem isKeyByte_ofNat (hc : c.toNat < 0x80) : isKeyByte (.ofNat c.toNat) = isKeyChar c :=
  forall_ascii (p := fun c => isKeyByte (.ofNat c.toNat) = isKeyChar c) (by decide) hc

theorem isBlank_ofNat (hc : c.toNat < 0x80) : isBlank (.ofNat c.toNat) = isBlankChar c :=
  forall_ascii (p := fun c => isBlank (.ofNat c.toNat) = isBlankChar c) (by decide) hc

theorem ofNat_eq_iff {d : Char} (hc : c.toNat < 0x80) (hd : d.toNat < 0x80) :
    UInt8.ofNat c.toNat = .ofNat d.toNat ↔ c = d :=
  ⟨not_imp_not.1 (ofNat_toNat_ne hc hd), fun h => h ▸ rfl⟩

theorem encode_push (text : String) (hc : c.toNat < 0x80) :
    Bytes.ofText (text.push c) = Bytes.ofText text ++ [.ofNat c.toNat] := by
  rw [Bytes.ofText, String.toList_push, List.flatMap_append, List.flatMap_singleton,
    utf8EncodeChar_ascii hc]
  rfl

/-! ## Outside of ASCII -/

/-- A byte outside of ASCII is of no class. -/
theorem classes_of_high (h : 0x80 ≤ b) :
    isKeyByte b = false ∧ isBlank b = false ∧ b ≠ 0x3D ∧ b ≠ 0x27 ∧ b ≠ 0x5C := by
  simp only [isKeyByte, isBlank]
  grind

/-- A character outside of ASCII is of no class. -/
theorem classes_of_highChar (h : 0x80 ≤ c.toNat) :
    isKeyChar c = false ∧ isBlankChar c = false ∧ c ≠ '=' ∧ c ≠ '\'' ∧ c ≠ '\\' := by
  have hlt : ∀ d : Char, d.toNat < 0x80 → d.val < c.val := fun d hd =>
    UInt32.lt_iff_toNat_lt.2 (hd.trans_le h)
  have hne : ∀ d : Char, d.toNat < 0x80 → c ≠ d := by
    rintro d hd rfl
    exact Nat.not_le.2 hd h
  have hupper : c.isUpper = false :=
    decide_eq_false fun h => UInt32.not_le.2 (hlt 'Z' (by decide)) h.2
  have hlower : c.isLower = false :=
    Bool.and_eq_false_imp.2 fun _ => decide_eq_false (UInt32.not_le.2 (hlt 'z' (by decide)))
  have hdigit : c.isDigit = false :=
    Bool.and_eq_false_imp.2 fun _ => decide_eq_false (UInt32.not_le.2 (hlt '9' (by decide)))
  have halphanum : c.isAlphanum = false :=
    Bool.or_eq_false_iff.2 ⟨Bool.or_eq_false_iff.2 ⟨hupper, hlower⟩, hdigit⟩
  have hcontrol : ¬ c ≤ '\r' := Char.not_le.2 (hlt '\r' (by decide))
  refine ⟨?_, ?_, hne _ (by decide), hne _ (by decide), hne _ (by decide)⟩
  · simp [isKeyChar, halphanum, hne '_' (by decide), hne '-' (by decide)]
  · simp [isBlankChar, hne ' ' (by decide), hcontrol]

/-- Outside of a value a byte outside of ASCII takes the search back to its beginning. -/
theorem step_of_high {state : Automaton.State} (h : 0x80 ≤ b)
    (hending : Automaton.ending state = []) :
    Automaton.step offset b state = (.searching, none) := by
  obtain ⟨hkey, hblank, hequals, hquote, -⟩ := classes_of_high h
  cases state with
  | searching => simp [Automaton.step, hkey]
  | inKey key => simp [Automaton.step, hkey, hequals, hblank]
  | behindKey key => simp [Automaton.step, hequals, hblank]
  | behindEquals key => simp [Automaton.step, hquote, hblank]
  | inValue key value quote => cases hending
  | behindBackslash key value quote => cases hending

theorem pass_searching_of_high (h : ∀ b ∈ bytes, 0x80 ≤ b) (offset : Nat) :
    Automaton.pass .searching offset bytes = ([], .searching) := by
  induction bytes generalizing offset with
  | nil => rfl
  | cons b bytes ih =>
      obtain ⟨hb, hbytes⟩ := List.forall_mem_cons.1 h
      rw [Automaton.pass, step_of_high hb rfl]
      dsimp only
      rw [ih hbytes]
      rfl

/-- A value takes in bytes outside of ASCII. -/
theorem pass_inValue_of_high {key value : Bytes} {quote : Nat} (h : ∀ b ∈ bytes, 0x80 ≤ b)
    (offset : Nat) :
    Automaton.pass (.inValue key value quote) offset bytes =
      ([], .inValue key (value ++ bytes) quote) := by
  induction bytes generalizing value offset with
  | nil => rw [List.append_nil, Automaton.pass]
  | cons b bytes ih =>
      obtain ⟨hb, hbytes⟩ := List.forall_mem_cons.1 h
      obtain ⟨-, -, -, hquote, hbackslash⟩ := classes_of_high hb
      have hstep : Automaton.step offset b (.inValue key value quote) =
          (.inValue key (value ++ [b]) quote, none) := by
        simp [Automaton.step, hquote, hbackslash]
      rw [Automaton.pass, hstep]
      dsimp only
      rw [ih hbytes, List.append_assoc]
      rfl

/-! ## The same pass -/

/-- The state of the bytes. -/
def State.encode : State → Automaton.State
  | .searching => .searching
  | .inKey key => .inKey (.ofText key)
  | .behindKey key => .behindKey (.ofText key)
  | .behindEquals key => .behindEquals (.ofText key)
  | .inValue key value quote => .inValue (.ofText key) (.ofText value) quote
  | .behindBackslash key value quote => .behindBackslash (.ofText key) (.ofText value) quote

/-- The byte of a character in ASCII does what the character does. -/
theorem step_encode (hc : c.toNat < 0x80) (offset : Nat) (state : State) :
    Automaton.step offset (.ofNat c.toNat) state.encode =
      ((step offset c state).1.encode, (step offset c state).2.map TextSetting.encode) := by
  have hkey := isKeyByte_ofNat hc
  have hblank := isBlank_ofNat hc
  have hequals : UInt8.ofNat c.toNat = 0x3D ↔ c = '=' :=
    ofNat_eq_iff (d := '=') hc (by decide)
  have hquote : UInt8.ofNat c.toNat = 0x27 ↔ c = '\'' :=
    ofNat_eq_iff (d := '\'') hc (by decide)
  have hbackslash : UInt8.ofNat c.toNat = 0x5C ↔ c = '\\' :=
    ofNat_eq_iff (d := '\\') hc (by decide)
  have hfirst : Bytes.ofText (String.singleton c) = [.ofNat c.toNat] := by
    rw [Bytes.ofText, String.toList_singleton, List.flatMap_singleton, utf8EncodeChar_ascii hc]
  have hnone : Bytes.ofText "" = [] := rfl
  cases state with
  | searching =>
      simp only [State.encode, Automaton.step, step, hkey]
      split_ifs <;> simp [hfirst]
  | inKey key =>
      simp only [State.encode, Automaton.step, step, hkey, hequals, hblank]
      split_ifs <;> simp [encode_push _ hc]
  | behindKey key =>
      simp only [State.encode, Automaton.step, step, hequals, hblank]
      split_ifs <;> simp
  | behindEquals key =>
      simp only [State.encode, Automaton.step, step, hquote, hblank]
      split_ifs <;> simp [hnone]
  | inValue key value quote =>
      simp only [State.encode, Automaton.step, step, hbackslash, hquote]
      split_ifs <;> simp [TextSetting.encode, encode_push _ hc]
  | behindBackslash key value quote =>
      simp [State.encode, Automaton.step, step, encode_push _ hc]

/-- The bytes of a character outside of ASCII do what the character does. -/
theorem pass_of_highChar (hc : 0x80 ≤ c.toNat) (hbytes : String.utf8EncodeChar c = b :: bytes)
    (hhigh : ∀ x ∈ b :: bytes, 0x80 ≤ x) (offset : Nat) (state : State) :
    Automaton.pass state.encode offset (b :: bytes) =
      ((step offset c state).2.toList.map TextSetting.encode, (step offset c state).1.encode) := by
  obtain ⟨hkey, hblank, hequals, hquote, hbackslash⟩ := classes_of_highChar hc
  -- Outside of a value the first byte restarts the search, and the others are skipped.
  have hsearching : ∀ state : Automaton.State, Automaton.ending state = [] →
      Automaton.pass state offset (b :: bytes) = ([], .searching) := by
    intro state hending
    obtain ⟨hb, hmore⟩ := List.forall_mem_cons.1 hhigh
    rw [Automaton.pass, step_of_high hb hending]
    dsimp only
    rw [pass_searching_of_high hmore]
    rfl
  -- In a value they are all taken in, which is one character more.
  have hpush : ∀ text : String, Bytes.ofText (text.push c) = Bytes.ofText text ++ b :: bytes := by
    intro text
    rw [Bytes.ofText, String.toList_push, List.flatMap_append, List.flatMap_singleton, hbytes]
    rfl
  cases state with
  | searching => simpa [State.encode, step, hkey] using hsearching .searching rfl
  | inKey key =>
      simpa [State.encode, step, hkey, hequals, hblank] using hsearching (.inKey (.ofText key)) rfl
  | behindKey key =>
      simpa [State.encode, step, hequals, hblank] using hsearching (.behindKey (.ofText key)) rfl
  | behindEquals key =>
      simpa [State.encode, step, hquote, hblank] using hsearching (.behindEquals (.ofText key)) rfl
  | inValue key value quote =>
      have hstep : step offset c (.inValue key value quote) =
          (.inValue key (value.push c) quote, none) := by
        simp [step, hbackslash, hquote]
      rw [hstep, State.encode, pass_inValue_of_high hhigh, ← hpush]
      rfl
  | behindBackslash key value quote =>
      -- The backslash takes the first byte only, and the value takes in the others.
      obtain ⟨-, hmore⟩ := List.forall_mem_cons.1 hhigh
      rw [State.encode, Automaton.pass, Automaton.step]
      dsimp only
      rw [pass_inValue_of_high hmore, List.append_assoc, List.singleton_append, ← hpush]
      rfl

/-- The bytes of a character do what the character does, whatever has been read before. -/
theorem pass_encode (c : Char) (offset : Nat) (state : State) :
    Automaton.pass state.encode offset (String.utf8EncodeChar c) =
      ((step offset c state).2.toList.map TextSetting.encode, (step offset c state).1.encode) := by
  by_cases hc : c.toNat < 0x80
  · rw [utf8EncodeChar_ascii hc, Automaton.pass, step_encode hc]
    dsimp only
    rw [Automaton.pass, List.append_nil, Option.toList_map]
  · rcases utf8EncodeChar_cases c with ⟨hlt, -⟩ | ⟨b, bytes, hbytes, hhigh⟩
    · exact absurd hlt hc
    · rw [hbytes]
      exact pass_of_highChar (Nat.le_of_not_lt hc) hbytes hhigh offset state

/-- A pass over the bytes of characters is the pass over the characters. -/
theorem pass_flatMap_encode (chars : List Char) (offset : Nat) (state : State) :
    Automaton.pass state.encode offset (chars.flatMap String.utf8EncodeChar) =
      ((pass state offset chars).1.map TextSetting.encode, (pass state offset chars).2.encode) := by
  induction chars generalizing offset state with
  | nil => rfl
  | cons c chars ih =>
      rw [List.flatMap_cons, Automaton.pass_append, pass_encode, String.length_utf8EncodeChar, pass]
      dsimp only
      rw [ih, List.map_append]

theorem ending_encode (state : State) :
    Automaton.ending state.encode = (ending state).toList.map .error := by
  cases state with
  | searching => rfl
  | inKey key => rfl
  | behindKey key => rfl
  | behindEquals key => rfl
  | inValue key value quote => simp [State.encode, Automaton.ending, ending, Text.Utf8.lossy_ofText]
  | behindBackslash key value quote =>
      simp [State.encode, Automaton.ending, ending, Text.Utf8.lossy_ofText]

theorem exists_of_ending {error : Error} (h : error ∈ ending state) :
    ∃ key quote, error = .unterminatedValue key quote := by
  cases state with
  | searching => cases h
  | inKey key => cases h
  | behindKey key => cases h
  | behindEquals key => cases h
  | inValue key value quote =>
      cases h
      exact ⟨key, quote, rfl⟩
  | behindBackslash key value quote =>
      cases h
      exact ⟨key, quote, rfl⟩

/-- A text is read as its characters are. -/
theorem parsed_ofText (text : String) :
    Parsed (.ofText text) ((settings text).map TextSetting.encode) (failure text) where
  items_eq := by
    have hpass : Automaton.pass .searching 0 (.ofText text) =
        ((settings text).map TextSetting.encode, (pass .searching 0 text.toList).2.encode) :=
      pass_flatMap_encode text.toList 0 .searching
    rw [items_eq_run, Automaton.run_eq_pass, hpass, ending_encode]
    rfl
  unterminated _ h := exists_of_ending h

end Characters

end Multimap.Settings
