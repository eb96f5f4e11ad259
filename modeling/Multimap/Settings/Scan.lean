import Multimap.Bytes
import Multimap.Text.Blank

/-!
# Scanning the settings notation

Settings are written `key='value'`, one after the other. A key is a run of ASCII
letters, digits, `_` and `-`. A value stands between single quotes, and in it a
backslash takes the byte after it as it is. Blanks may stand around `=`, and
blanks and commas between settings.

Scanning recovers from what does not fit: the byte is dropped, and the search for
a key starts afresh behind it. Only a value that never closes is an error.

Main definitions:
1. `value?`, the rest of a quoted value;
2. `expectQuote`, what stands between a key and its value;
3. `scan`, the first setting of a byte string.
-/

namespace Multimap.Settings

open Multimap.Text (isBlank)

/-- One setting. -/
structure Setting where
  key : Bytes
  value : Bytes
  deriving DecidableEq, Repr

/-- ASCII letters and digits, `_` and `-`. -/
def isKeyByte (b : UInt8) : Bool :=
  (0x30 ≤ b && b ≤ 0x39) || (0x41 ≤ b && b ≤ 0x5A) || (0x61 ≤ b && b ≤ 0x7A) ||
    b == 0x5F || b == 0x2D

/-- What may stand between two settings: blanks and commas. -/
def isSeparator (b : UInt8) : Bool :=
  isBlank b || b == 0x2C

/-! ## Values -/

/-- Reads on from an opening quote: the value, and the bytes behind its closing
quote. There is none when the bytes end first, also right behind a backslash. -/
def value? : Bytes → Option (Bytes × Bytes)
  | [] => none
  | [b] => if b = 0x27 then some ([], []) else none
  | b :: c :: rest =>
      if b = 0x5C then
        (value? rest).map fun (value, left) => (c :: value, left)
      else if b = 0x27 then
        some ([], c :: rest)
      else
        (value? (c :: rest)).map fun (value, left) => (b :: value, left)

/-! ## Between key and value -/

/-- The outcome of looking for a certain byte. -/
inductive Expectation where
  /-- It is there, in front of `rest`. -/
  | met (rest : Bytes)
  /-- Another byte stood in front of `rest`. -/
  | missed (rest : Bytes)
  /-- There was no byte left. -/
  | ended
  deriving DecidableEq, Repr

/-- Looks for `wanted` behind any blanks. Either way the byte found there is used up. -/
def expect (wanted : UInt8) (bytes : Bytes) : Expectation :=
  match bytes.dropWhile isBlank with
  | [] => .ended
  | b :: rest => if b = wanted then .met rest else .missed rest

/-- Looks for `=` and then for an opening quote. -/
def expectQuote (bytes : Bytes) : Expectation :=
  match expect 0x3D bytes with
  | .met rest => expect 0x27 rest
  | .missed rest => .missed rest
  | .ended => .ended

theorem length_dropWhile_le {α : Type} (p : α → Bool) (l : List α) :
    (l.dropWhile p).length ≤ l.length :=
  (List.dropWhile_suffix p).length_le

theorem length_lt_of_dropWhile_eq_cons {α : Type} {p : α → Bool} {l rest : List α} {a : α}
    (h : l.dropWhile p = a :: rest) : rest.length < l.length := by
  have hle := length_dropWhile_le p l
  rw [h, List.length_cons] at hle
  exact hle

theorem expect_length_lt {wanted : UInt8} {bytes rest : Bytes}
    (h : expect wanted bytes = .met rest ∨ expect wanted bytes = .missed rest) :
    rest.length < bytes.length := by
  unfold expect at h
  split at h
  · simp at h
  · next b left heq =>
      have hrest : left = rest := by
        split at h <;> simpa using h
      exact hrest ▸ length_lt_of_dropWhile_eq_cons heq

theorem expectQuote_length_lt {bytes rest : Bytes}
    (h : expectQuote bytes = .met rest ∨ expectQuote bytes = .missed rest) :
    rest.length < bytes.length := by
  unfold expectQuote at h
  split at h
  · next left heq =>
      exact Nat.lt_trans (expect_length_lt h) (expect_length_lt (.inl heq))
  · next left heq =>
      have hrest : left = rest := by simpa using h
      exact hrest ▸ expect_length_lt (.inr heq)
  · simp at h

/-! ## Settings -/

/-- What the first search through a byte string finds. -/
inductive Found where
  /-- A setting, and the bytes behind its closing quote. -/
  | setting (found : Setting) (rest : Bytes)
  /-- A key whose value does not close; `body` is what follows the opening quote. -/
  | unterminated (key body : Bytes)
  /-- No setting before the end. -/
  | nothing
  deriving DecidableEq, Repr

/-- Searches for the first setting. -/
def scan (bytes : Bytes) : Found :=
  match _start : bytes.dropWhile isSeparator with
  | [] => .nothing
  | b :: rest =>
      if isKeyByte b then
        match _quote : expectQuote (rest.dropWhile isKeyByte) with
        | .ended => .nothing
        -- The key is dropped together with the byte that did not fit.
        | .missed left => scan left
        | .met body =>
            let key := b :: rest.takeWhile isKeyByte
            match value? body with
            | some (value, left) => .setting { key, value } left
            | none => .unterminated key body
      else
        scan rest
termination_by bytes.length
decreasing_by
  · have hlt := expectQuote_length_lt (.inr ‹_›)
    have hkey := length_dropWhile_le isKeyByte rest
    have hrest := length_lt_of_dropWhile_eq_cons ‹_›
    omega
  · exact length_lt_of_dropWhile_eq_cons ‹_›

theorem value?_length_lt {bytes value left : Bytes} (h : value? bytes = some (value, left)) :
    left.length < bytes.length := by
  fun_induction value? bytes generalizing value with
  | case1 => simp at h
  | case2 => simp_all
  | case3 => simp_all
  | case4 c rest ih =>
      obtain ⟨⟨inner, behind⟩, hinner, heq⟩ := Option.map_eq_some_iff.1 h
      have hleft : behind = left := by simpa using (Prod.mk.inj heq).2
      have := ih (hleft ▸ hinner)
      simp only [List.length_cons]
      omega
  | case5 c rest =>
      have hleft : c :: rest = left := by
        simpa using (Prod.mk.inj (Option.some.inj h)).2
      simp [← hleft]
  | case6 b c rest _ _ ih =>
      obtain ⟨⟨inner, behind⟩, hinner, heq⟩ := Option.map_eq_some_iff.1 h
      have hleft : behind = left := by simpa using (Prod.mk.inj heq).2
      have := ih (hleft ▸ hinner)
      simp only [List.length_cons] at this ⊢
      omega

/-- A setting takes at least one byte. -/
theorem scan_length_lt {bytes rest : Bytes} {found : Setting}
    (h : scan bytes = .setting found rest) : rest.length < bytes.length := by
  fun_induction scan bytes with
  | case1 => simp at h
  | case2 => simp at h
  | case3 bytes b more hstart hkey left hquote ih =>
      have hlt := expectQuote_length_lt (.inr hquote)
      have hrest := length_dropWhile_le isKeyByte more
      have hmore := length_lt_of_dropWhile_eq_cons hstart
      have := ih h
      omega
  | case4 bytes b more hstart hkey body hquote key value left hvalue =>
      have hleft : left = rest := (Found.setting.inj h).2
      subst hleft
      have hlt := expectQuote_length_lt (.inl hquote)
      have hrest := length_dropWhile_le isKeyByte more
      have hmore := length_lt_of_dropWhile_eq_cons hstart
      have := value?_length_lt hvalue
      omega
  | case5 => simp at h
  | case6 bytes b more hstart hkey ih =>
      exact Nat.lt_trans (ih h) (length_lt_of_dropWhile_eq_cons hstart)

end Multimap.Settings
