import Mathlib.Data.Nat.Digits.Defs
import Multimap.Bytes
import Multimap.Text.Blank

/-!
# Numerals

What stands for an integer at the start of a text: any blanks, at most one sign, the mark of
a radix, and the longest run of digits of that radix. The value of a numeral is exact, for a
run of any length; only `clamp` brings it into the range of 64 signed bits.

Main definitions:
1. `IsDigit`, a digit and a byte that stands for it;
2. `LongestRun`, `Signed` and `InRadix`, the parts of a text that stand for a numeral;
3. `Opens`, a numeral and a text that begins with it;
4. `Numeral.value` and `clamp`.
-/

namespace Multimap.Text

/-- A sign, a radix and digits, the highest first. There may be no digit. -/
structure Numeral where
  negative : Bool
  radix : Nat
  digits : List Nat
  deriving Repr, DecidableEq

/-! ## Notation -/

/-- A byte stands for a digit of a radix, letters in either case. -/
def IsDigit (radix digit : Nat) (b : UInt8) : Prop :=
  digit < radix ∧
    ((Nat.digitChar digit).toNat = b.toNat ∨ (Nat.digitChar digit).toUpper.toNat = b.toNat)

/-- The bytes begin with the digits, and no other digit follows. -/
def LongestRun (radix : Nat) (digits : List Nat) (bytes : Bytes) : Prop :=
  ∃ run rest, bytes = run ++ rest ∧ List.Forall₂ (IsDigit radix) digits run ∧
    ∀ b ∈ rest.head?, ∀ digit, ¬ IsDigit radix digit b

/-- Whether a minus comes first, and the bytes behind a sign if there is one. -/
inductive Signed : Bool → Bytes → Bytes → Prop where
  | minus {unsigned : Bytes} : Signed true unsigned (0x2D :: unsigned)
  | plus {unsigned : Bytes} : Signed false unsigned (0x2B :: unsigned)
  | none {unsigned : Bytes} : unsigned.head? ≠ some 0x2D → unsigned.head? ≠ some 0x2B →
      Signed false unsigned unsigned

/-- Bytes that begin with `0x` or `0X` and a hexadecimal digit. -/
def Hexadecimal (digits bytes : Bytes) : Prop :=
  ∃ x, (x = 0x78 ∨ x = 0x58) ∧ bytes = 0x30 :: x :: digits ∧
    ∃ b ∈ digits.head?, ∃ digit, IsDigit 16 digit b

/-- The radix that bytes are in by what they begin with, and where the digits start. -/
inductive InRadix : Nat → Bytes → Bytes → Prop where
  | hexadecimal {digits bytes : Bytes} : Hexadecimal digits bytes → InRadix 16 digits bytes
  | octal {rest : Bytes} : (∀ digits, ¬ Hexadecimal digits (0x30 :: rest)) →
      InRadix 8 (0x30 :: rest) (0x30 :: rest)
  | decimal {bytes : Bytes} : bytes.head? ≠ some 0x30 → InRadix 10 bytes bytes

/-- The numeral that a text begins with. -/
inductive Opens : Numeral → Bytes → Prop where
  | intro {negative : Bool} {radix : Nat} {digits : List Nat}
      {blanks signed unsigned run : Bytes} :
      (∀ b ∈ blanks, isBlank b) → (∀ b ∈ signed.head?, ¬ isBlank b) →
      Signed negative unsigned signed → InRadix radix run unsigned →
      LongestRun radix digits run → Opens { negative, radix, digits } (blanks ++ signed)

/-! ## Values -/

/-- The integer that a numeral stands for. -/
def Numeral.value (n : Numeral) : Int :=
  let magnitude : Nat := Nat.ofDigits n.radix n.digits.reverse
  if n.negative then -(magnitude : Int) else (magnitude : Int)

/-- The nearest integer that 64 signed bits hold. -/
def clamp (n : Int) : Int :=
  max (-2 ^ 63) (min n (2 ^ 63 - 1))

/-- What a numeral is read as: nothing without a digit. -/
def Numeral.reading? (n : Numeral) : Option Int :=
  if n.digits = [] then none else some (clamp n.value)

end Multimap.Text
