import Multimap.Proofs.Settings.Automaton

/-!
# Written settings — reading gives back what was written

However settings are written, with any separators, blanks and escapes that may stand in
the notation, reading the text gives exactly these settings in their order.

* one written setting is a stretch of the pass that ends where it began
  (`run_searching_writtenSetting`);
* hence the items of a written text are its settings (`items_of_written`);
* escapes before characters are escapes before bytes (`writtenValue_of_escaped`), so the
  texts that people write are among those of `Written`.
-/

namespace Multimap.Settings

open Multimap.Text (isBlank)

namespace Automaton

variable {offset : Nat} {setting : Setting} {settings : List Setting} {text rest : Bytes}

/-- Where blanks and `=` follow, no byte of a key does. -/
theorem isKeyByte_head?_eq_false {gap : Bytes} (hgap : ∀ b ∈ gap, isBlank b) :
    ∀ b ∈ (gap ++ 0x3D :: rest).head?, isKeyByte b = false := by
  intro b hb
  cases gap with
  | nil =>
      cases hb
      rfl
  | cons c gap =>
      cases hb
      exact isKeyByte_of_isBlank (hgap b (by simp))

/-- A key, blanks, `=`, blanks and an opening quote lead into a value. -/
theorem run_searching_upToQuote (offset : Nat) (rest : Bytes) {key before behind : Bytes}
    (hne : key ≠ []) (hkey : ∀ b ∈ key, isKeyByte b) (hbefore : ∀ b ∈ before, isBlank b)
    (hbehind : ∀ b ∈ behind, isBlank b) :
    ∃ quote, run .searching offset (key ++ (before ++ 0x3D :: (behind ++ 0x27 :: rest))) =
      run (.inValue key [] quote)
        (offset + key.length + before.length + behind.length + 2) rest := by
  cases key with
  | nil => exact absurd rfl hne
  | cons b more =>
      have hfirst : step offset b .searching = (.inKey [b], none) := by
        simp [step, hkey b (by simp)]
      have hmore : ∀ b ∈ more, isKeyByte b := fun b hb => hkey b (List.mem_cons_of_mem _ hb)
      refine ⟨offset + 1 + more.length + before.length + 1 + behind.length, ?_⟩
      calc run .searching offset (b :: more ++ (before ++ 0x3D :: (behind ++ 0x27 :: rest)))
          = run (.inKey [b]) (offset + 1)
              (more ++ (before ++ 0x3D :: (behind ++ 0x27 :: rest))) := by
            rw [List.cons_append, run, hfirst]
        _ = run (.behindKey (b :: more)) (offset + 1 + more.length)
              (before ++ 0x3D :: (behind ++ 0x27 :: rest)) := by
            rw [run_inKey_append _ _ hmore,
              run_inKey_eq_behindKey _ (isKeyByte_head?_eq_false hbefore)]
            rfl
        _ = run (.behindEquals (b :: more)) (offset + 1 + more.length + before.length + 1)
              (behind ++ 0x27 :: rest) := by
            rw [(awaits_behindKey _).run_append _ hbefore, (awaits_behindKey _).run_met]
        _ = run (.inValue (b :: more) []
                (offset + 1 + more.length + before.length + 1 + behind.length))
              (offset + 1 + more.length + before.length + 1 + behind.length + 1) rest := by
            rw [(awaits_behindEquals _).run_append _ hbehind, (awaits_behindEquals _).run_met]
        _ = _ := by
            congr 1
            rw [List.length_cons]
            omega

/-- A written setting is completed by its last byte. -/
theorem run_searching_writtenSetting (h : WrittenSetting setting text) :
    run .searching offset (text ++ rest) =
      .ok setting :: run .searching (offset + text.length) rest := by
  cases h with
  | @intro key value before behind inner hne hkey hbefore hbehind hwritten =>
      have htext : key ++ before ++ [0x3D] ++ behind ++ [0x27] ++ inner ++ [0x27] ++ rest =
          key ++ (before ++ 0x3D :: (behind ++ 0x27 :: (inner ++ 0x27 :: rest))) := by
        simp
      obtain ⟨quote, hquote⟩ :=
        run_searching_upToQuote offset (inner ++ 0x27 :: rest) hne hkey hbefore hbehind
      rw [htext, hquote, run_inValue_append _ _ hwritten, run_inValue_quote, List.nil_append]
      congr 2
      simp only [List.length_append, List.length_cons, List.length_nil]
      omega

/-- A pass over written settings hands them out in order. -/
theorem run_searching_written (h : Written settings text) :
    run .searching offset text = settings.map .ok := by
  induction h generalizing offset with
  | @nil gap hgap =>
      calc run .searching offset gap
          = run .searching offset (gap ++ []) := by rw [List.append_nil]
        _ = [] := run_searching_append offset hgap
  | @cons gap first rest setting settings hgap hfirst _ ih =>
      rw [List.append_assoc, run_searching_append _ hgap, run_searching_writtenSetting hfirst, ih]
      rfl

end Automaton

/-- Reading gives back what was written. -/
theorem items_of_written {settings : List Setting} {text : Bytes} (h : Written settings text) :
    items text = settings.map .ok := by
  rw [items_eq_run, Automaton.run_searching_written h]

/-! ## Texts -/

/-- The characters of a value, and how they may be written between quotes. -/
inductive EscapedText : List Char → List Char → Prop where
  | nil : EscapedText [] []
  | plain {c : Char} {value text : List Char} (quote : c ≠ '\'') (backslash : c ≠ '\\') :
      EscapedText value text → EscapedText (c :: value) (c :: text)
  | escaped {c : Char} {value text : List Char} :
      EscapedText value text → EscapedText (c :: value) ('\\' :: c :: text)

/-- A character is its own byte, or all its bytes are outside of ASCII. -/
theorem utf8EncodeChar_cases (c : Char) :
    (c.toNat < 0x80 ∧ String.utf8EncodeChar c = [UInt8.ofNat c.toNat]) ∨
      ∃ b more, String.utf8EncodeChar c = b :: more ∧ ∀ x ∈ b :: more, 0x80 ≤ x := by
  have hhigh : ∀ n : Nat, 0x80 ≤ n → n < 0x100 → 0x80 ≤ UInt8.ofNat n := by
    intro n hle hlt
    rw [UInt8.le_iff_toNat_le, UInt8.toNat_ofNat', Nat.mod_eq_of_lt hlt]
    exact hle
  have hvalue : c.val.toNat = c.toNat := rfl
  rw [String.utf8EncodeChar, hvalue]
  split
  · exact .inl ⟨by omega, rfl⟩
  · right
    split
    · refine ⟨_, _, rfl, ?_⟩
      simp only [List.forall_mem_cons, List.not_mem_nil, false_implies, implies_true, and_true]
      exact ⟨hhigh _ (by omega) (by omega), hhigh _ (by omega) (by omega)⟩
    · split
      · refine ⟨_, _, rfl, ?_⟩
        simp only [List.forall_mem_cons, List.not_mem_nil, false_implies, implies_true, and_true]
        exact ⟨hhigh _ (by omega) (by omega), hhigh _ (by omega) (by omega),
          hhigh _ (by omega) (by omega)⟩
      · refine ⟨_, _, rfl, ?_⟩
        simp only [List.forall_mem_cons, List.not_mem_nil, false_implies, implies_true, and_true]
        exact ⟨hhigh _ (by omega) (by omega), hhigh _ (by omega) (by omega),
          hhigh _ (by omega) (by omega), hhigh _ (by omega) (by omega)⟩

/-- A byte in ASCII stands for one character only. -/
theorem ofNat_toNat_ne {c d : Char} (hc : c.toNat < 0x80) (hd : d.toNat < 0x80) (h : c ≠ d) :
    UInt8.ofNat c.toNat ≠ UInt8.ofNat d.toNat := by
  intro heq
  have hnat := congrArg UInt8.toNat heq
  rw [UInt8.toNat_ofNat', UInt8.toNat_ofNat'] at hnat
  have htoNat : c.toNat = d.toNat := by omega
  exact h (Char.toNat_inj.1 htoNat)

theorem writtenValue_append {bytes value text : Bytes} (h : ∀ b ∈ bytes, b ≠ 0x27 ∧ b ≠ 0x5C)
    (hwritten : WrittenValue value text) : WrittenValue (bytes ++ value) (bytes ++ text) := by
  induction bytes with
  | nil => exact hwritten
  | cons b bytes ih =>
      obtain ⟨hquote, hbackslash⟩ := h b (by simp)
      exact .plain hquote hbackslash (ih fun x hx => h x (List.mem_cons_of_mem _ hx))

/-- Escapes before characters are escapes before the first of their bytes. -/
theorem writtenValue_of_escaped {value text : List Char} (h : EscapedText value text) :
    WrittenValue (value.flatMap String.utf8EncodeChar) (text.flatMap String.utf8EncodeChar) := by
  have hplain : ∀ {more : Bytes}, (∀ x ∈ more, 0x80 ≤ x) → ∀ x ∈ more, x ≠ 0x27 ∧ x ≠ 0x5C := by
    intro more hmore x hx
    have hle := hmore x hx
    constructor
    · rintro rfl
      exact absurd hle (by decide)
    · rintro rfl
      exact absurd hle (by decide)
  induction h with
  | nil => exact .nil
  | @plain c value text hquote hbackslash _ ih =>
      rw [List.flatMap_cons, List.flatMap_cons]
      rcases utf8EncodeChar_cases c with ⟨hlt, hc⟩ | ⟨b, more, hc, hmore⟩
      · rw [hc]
        exact .plain (ofNat_toNat_ne hlt (by decide) hquote)
          (ofNat_toNat_ne hlt (by decide) hbackslash) ih
      · rw [hc]
        exact writtenValue_append (hplain hmore) ih
  | @escaped c value text _ ih =>
      have hbackslash : String.utf8EncodeChar '\\' = [0x5C] := rfl
      rw [List.flatMap_cons, List.flatMap_cons, List.flatMap_cons, hbackslash]
      rcases utf8EncodeChar_cases c with ⟨hlt, hc⟩ | ⟨b, more, hc, hmore⟩
      · rw [hc]
        exact .escaped ih
      · rw [hc]
        have hrest : ∀ x ∈ more, 0x80 ≤ x := fun x hx => hmore x (List.mem_cons_of_mem _ hx)
        exact .escaped (writtenValue_append (hplain hrest) ih)

end Multimap.Settings
