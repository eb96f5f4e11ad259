import Multimap.Bytes

/-!
# Reading UTF-8

A byte string is cut from the left into pieces: the well-formed sequences of the
Unicode standard (its table 3-7), and between them the maximal ill-formed
subparts. A subpart is the longest run that begins some well-formed sequence, or
a single byte when no sequence begins with it.

Main definitions:
1. `Lead`, what a first byte announces;
2. `pieces`, one optional character per piece;
3. `decode?`, defined on well-formed input only;
4. `lossy`, which puts `U+FFFD` in the place of each ill-formed piece.
-/

namespace Multimap.Text.Utf8

/-- What the first byte of a sequence announces: its payload, the number of bytes
that follow, and the range that the second byte has to lie in. -/
structure Lead where
  payload : Nat
  following : Nat
  least : UInt8 := 0x80
  greatest : UInt8 := 0xBF

/-- The announcement of a first byte. Bytes `80` to `C1` and `F5` to `FF` begin no
well-formed sequence. -/
def lead? (b : UInt8) : Option Lead :=
  if b ≤ 0x7F then some { payload := b.toNat, following := 0 }
  else if b < 0xC2 then none
  -- The narrower ranges keep out long forms, surrogates and what is above U+10FFFF.
  else if b ≤ 0xDF then some { payload := b.toNat - 0xC0, following := 1 }
  else if b = 0xE0 then some { payload := 0, following := 2, least := 0xA0 }
  else if b = 0xED then some { payload := 0x0D, following := 2, greatest := 0x9F }
  else if b ≤ 0xEF then some { payload := b.toNat - 0xE0, following := 2 }
  else if b = 0xF0 then some { payload := 0, following := 3, least := 0x90 }
  else if b ≤ 0xF3 then some { payload := b.toNat - 0xF0, following := 3 }
  else if b = 0xF4 then some { payload := 4, following := 3, greatest := 0x8F }
  else none

/-- Reads the bytes that a first byte announced. The second component is what is
left: at a byte that does not fit, everything from that byte on. -/
def continuation : Nat → UInt8 → UInt8 → Nat → Bytes → Option Nat × Bytes
  | 0, _, _, code, rest => (some code, rest)
  | _ + 1, _, _, _, [] => (none, [])
  | n + 1, least, greatest, code, b :: rest =>
      if least ≤ b ∧ b ≤ greatest then
        continuation n 0x80 0xBF (64 * code + (b.toNat - 0x80)) rest
      else
        (none, b :: rest)

/-- Splits off the piece that starts with byte `b`. -/
def piece (b : UInt8) (rest : Bytes) : Option Char × Bytes :=
  match lead? b with
  | none => (none, rest)
  | some lead =>
      let (code?, left) :=
        continuation lead.following lead.least lead.greatest lead.payload rest
      (code?.map Char.ofNat, left)

theorem length_continuation_le (n : Nat) (least greatest : UInt8) (code : Nat) (bytes : Bytes) :
    (continuation n least greatest code bytes).2.length ≤ bytes.length := by
  induction n generalizing least greatest code bytes with
  | zero => simp [continuation]
  | succ n ih =>
      cases bytes with
      | nil => simp [continuation]
      | cons b rest =>
          simp only [continuation]
          split
          · exact Nat.le_succ_of_le (ih ..)
          · exact Nat.le_refl _

theorem length_piece_le (b : UInt8) (rest : Bytes) :
    (piece b rest).2.length ≤ rest.length := by
  unfold piece
  split
  · exact Nat.le_refl _
  · exact length_continuation_le ..

/-- The pieces of a byte string, in order; an ill-formed one is `none`. -/
def pieces : Bytes → List (Option Char)
  | [] => []
  | b :: rest => (piece b rest).1 :: pieces (piece b rest).2
termination_by bytes => bytes.length
decreasing_by exact Nat.lt_succ_of_le (length_piece_le b rest)

/-- The text of a well-formed byte string. -/
def decode? (bytes : Bytes) : Option String :=
  ((pieces bytes).mapM id).map String.ofList

/-- The text of any byte string: each ill-formed piece reads as `U+FFFD`. -/
def lossy (bytes : Bytes) : String :=
  String.ofList ((pieces bytes).map (·.getD '\uFFFD'))

end Multimap.Text.Utf8
