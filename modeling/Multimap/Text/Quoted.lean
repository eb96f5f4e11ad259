import Multimap.Text.DefaultIgnorable
import Multimap.Text.ExtendingMarks
import Multimap.Text.Nonprinting

/-!
# Quoted texts

A text is shown between double quotes. Quotes, backslashes and the common
controls are written by a letter escape. Every other character that does not print,
that is ignored by default, or that is a mark drawn onto the character before it, is
written by its code point, as `\u` and hexadecimal digits in braces, wherever in the
text it stands.

Main definitions:
1. `isUnprintable`, the characters written by their code points;
2. `escape`, the written form of one character;
3. `quoted`, the written form of a text.

`isUnprintable_ascii` says that among the characters of ASCII these are the controls.
-/

namespace Multimap.Text

/-- Whether a character is written by its code point. -/
def isUnprintable (c : Char) : Bool :=
  nonprinting.contains c.toNat || defaultIgnorable.contains c.toNat ||
    extendingMarks.contains c.toNat

/-- In ASCII the controls alone are unprintable. -/
theorem isUnprintable_ascii {c : Char} (h : c.toNat < 0x80) :
    isUnprintable c = (decide (c.toNat < 0x20) || c.toNat == 0x7F) := by
  have table : ∀ n < 0x80, (nonprinting.contains n || defaultIgnorable.contains n ||
      extendingMarks.contains n) = (decide (n < 0x20) || n == 0x7F) := by
    decide +kernel
  exact table c.toNat h

/-- The written form of one character between double quotes. -/
def escape (c : Char) : String :=
  match c with
  | '"' => "\\\""
  | '\\' => "\\\\"
  | '\n' => "\\n"
  | '\r' => "\\r"
  | '\t' => "\\t"
  | '\x00' => "\\0"
  | c =>
      if isUnprintable c then
        "\\u\x7b" ++ String.ofList (Nat.toDigits 16 c.toNat) ++ "\x7d"
      else
        c.toString

/-- The written form of a text, with its quotes. -/
def quoted (text : String) : String :=
  "\"" ++ String.join (text.toList.map escape) ++ "\""

end Multimap.Text
