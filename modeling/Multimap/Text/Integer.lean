import Multimap.Bytes
import Multimap.Text.Blank

/-!
# Integers at the start of a text

A text is read as an integer by its beginning: blanks, at most one sign, the mark
of a radix and the longest run of digits of that radix; whatever follows is
ignored. `0x` before a hexadecimal digit marks radix 16 and a leading `0` marks
radix 8. Magnitudes are kept in 64 bits, and the result is the nearest integer
with 64 signed bits.

Main definitions:
1. `digitRun`, the digits that a text begins with;
2. `Magnitude`, a 64-bit accumulator that remembers an overflow;
3. `read?`, the integer, unless there is no digit.
-/

namespace Multimap.Text.Integer

/-! ## Digits -/

/-- The value of a digit of the radix, letters in either case. -/
def digit? (radix : Nat) (b : UInt8) : Option Nat :=
  let value? :=
    if 0x30 ≤ b ∧ b ≤ 0x39 then some (b.toNat - 0x30)
    else if 0x41 ≤ b ∧ b ≤ 0x5A then some (b.toNat - 0x41 + 10)
    else if 0x61 ≤ b ∧ b ≤ 0x7A then some (b.toNat - 0x61 + 10)
    else none
  value?.filter (· < radix)

/-- The longest run of digits that the bytes begin with. -/
def digitRun (radix : Nat) : Bytes → List Nat
  | [] => []
  | b :: rest =>
      match digit? radix b with
      | some digit => digit :: digitRun radix rest
      | none => []

/-- Takes off at most one sign; the flag says whether it was a minus. -/
def splitSign : Bytes → Bool × Bytes
  | 0x2D :: rest => (true, rest)
  | 0x2B :: rest => (false, rest)
  | bytes => (false, bytes)

/-- Finds the radix and where its digits start. A lone `0x` is the octal digit zero. -/
def splitRadix : Bytes → Nat × Bytes
  | 0x30 :: x :: digit :: rest =>
      if (x = 0x78 ∨ x = 0x58) ∧ (digit? 16 digit).isSome then
        (16, digit :: rest)
      else
        (8, 0x30 :: x :: digit :: rest)
  | 0x30 :: rest => (8, 0x30 :: rest)
  | bytes => (10, bytes)

/-! ## Magnitudes -/

/-- A magnitude of 64 bits, and whether a larger one was asked for. -/
structure Magnitude where
  value : Nat
  overflowed : Bool
  value_lt : value < UInt64.size

namespace Magnitude

/-- The magnitude before any digit. -/
def zero : Magnitude :=
  { value := 0, overflowed := false, value_lt := by decide }

/-- Appends a digit. One that does not fit changes nothing but the flag. -/
def push (radix : Nat) (m : Magnitude) (digit : Nat) : Magnitude :=
  if h : m.value * radix + digit < UInt64.size then
    { m with value := m.value * radix + digit, value_lt := h }
  else
    { m with overflowed := true }

/-- The largest magnitude on a side of the signed range: there is one more negative
integer than positive ones. -/
def limit (negative : Bool) : Nat :=
  if negative then 0x8000000000000000 else 0x7FFFFFFFFFFFFFFF

/-- The signed integer with this magnitude, or the bound of the signed range on its side. -/
def toInt (negative : Bool) (m : Magnitude) : Int :=
  let magnitude : Nat :=
    if m.overflowed || limit negative < m.value then limit negative else m.value
  if negative then -(magnitude : Int) else (magnitude : Int)

end Magnitude

/-! ## Reading -/

/-- The integer that the bytes begin with. -/
def read? (bytes : Bytes) : Option Int :=
  let (negative, unsigned) := splitSign (bytes.dropWhile isBlank)
  -- The mark of radix 8 is a digit itself, so `0` alone is a number.
  let (radix, digits) := splitRadix unsigned
  match digitRun radix digits with
  | [] => none
  | run => some ((run.foldl (Magnitude.push radix) .zero).toInt negative)

end Multimap.Text.Integer
