import Mathlib.Tactic.IntervalCases
import Multimap.Text.Utf8

/-!
# UTF-8 — a text is read back from its bytes

The bytes of a character are one well-formed sequence, whatever follows them, and that
sequence is read as the character. So reading the bytes of a text gives the text, without a
replacement character that is not in it.

* what the first byte announces, by the number of bytes of the sequence (`lead?_two`,
  `lead?_three`, `lead?_four`), and what the bytes behind it add to it (`continuation_cons`);
* the bytes of a character are one piece (`piece_one` to `piece_four`,
  `pieces_encode_append`);
* hence a text is decoded from its bytes (`decode?_ofText`, `lossy_ofText`), and different texts
  have different bytes (`ofText_injective`).
-/

namespace Multimap.Text.Utf8

variable {n payload code code' digit : Nat} {least greatest b : UInt8} {more rest : Bytes}
  {c : Char}

/-! ## First bytes -/

theorem lead?_one (h : n ≤ 0x7F) : lead? (.ofNat n) = some { payload := n, following := 0 } := by
  have htoNat : (UInt8.ofNat n).toNat = n := by
    rw [UInt8.toNat_ofNat']
    omega
  have hle : UInt8.ofNat n ≤ 0x7F := by
    rw [UInt8.le_iff_toNat_le, htoNat]
    exact h
  rw [lead?, if_pos hle, htoNat]

theorem lead?_two (hle : 2 ≤ payload) (hlt : payload < 32) :
    lead? (.ofNat (payload + 192)) = some { payload, following := 1 } := by
  interval_cases payload <;> rfl

/-- The second byte has a narrower range behind the least payload and the one of surrogates. -/
theorem lead?_three (hlt : payload < 16) :
    lead? (.ofNat (payload + 224)) = some
      { payload, following := 2
        least := if payload = 0 then 0xA0 else 0x80
        greatest := if payload = 0x0D then 0x9F else 0xBF } := by
  interval_cases payload <;> rfl

/-- The second byte has a narrower range behind the least payload and the greatest. -/
theorem lead?_four (hle : payload ≤ 4) :
    lead? (.ofNat (payload + 240)) = some
      { payload, following := 3
        least := if payload = 0 then 0x90 else 0x80
        greatest := if payload = 4 then 0x8F else 0xBF } := by
  interval_cases payload <;> rfl

/-! ## Bytes that follow -/

theorem continuation_zero (h : code = code') :
    continuation 0 least greatest code rest = (some code', rest) := by
  rw [continuation, h]

/-- A byte in the range adds six bits. -/
theorem continuation_cons (hdigit : digit < 64) (hleast : least.toNat ≤ digit + 128)
    (hgreatest : digit + 128 ≤ greatest.toNat) :
    continuation (n + 1) least greatest code (.ofNat (digit + 128) :: rest) =
      continuation n 0x80 0xBF (64 * code + digit) rest := by
  have htoNat : (UInt8.ofNat (digit + 128)).toNat = digit + 128 := by
    rw [UInt8.toNat_ofNat']
    omega
  have hrange : least ≤ .ofNat (digit + 128) ∧ .ofNat (digit + 128) ≤ greatest := by
    rw [UInt8.le_iff_toNat_le, UInt8.le_iff_toNat_le, htoNat]
    exact ⟨hleast, hgreatest⟩
  rw [continuation, if_pos hrange, htoNat, Nat.add_sub_cancel]

/-- A byte in the full range adds six bits. -/
theorem continuation_tail (hdigit : digit < 64) :
    continuation (n + 1) 0x80 0xBF code (.ofNat (digit + 128) :: rest) =
      continuation n 0x80 0xBF (64 * code + digit) rest :=
  continuation_cons hdigit (Nat.le_add_left _ _) (Nat.lt_succ_iff.1 (Nat.add_lt_add_right hdigit _))

theorem piece_of_lead {lead : Lead} (hlead : lead? b = some lead)
    (hcontinuation : continuation lead.following lead.least lead.greatest lead.payload more =
      (some c.toNat, rest)) : piece b more = (some c, rest) := by
  rw [piece, hlead]
  dsimp only
  rw [hcontinuation, Option.map_some, Char.ofNat_toNat]

/-! ## Characters -/

theorem piece_one (h : c.toNat ≤ 0x7F) : piece (.ofNat c.toNat) rest = (some c, rest) :=
  piece_of_lead (lead?_one h) rfl

theorem piece_two (hle : 0x7F < c.toNat) (hlt : c.toNat ≤ 0x7FF) :
    piece (.ofNat (c.toNat / 64 % 32 + 192)) (.ofNat (c.toNat % 64 + 128) :: rest) =
      (some c, rest) := by
  refine piece_of_lead (lead?_two (by omega) (by omega)) ?_
  exact (continuation_tail (by omega)).trans (continuation_zero (by dsimp only; omega))

theorem piece_three (hle : 0x7FF < c.toNat) (hlt : c.toNat ≤ 0xFFFF) :
    piece (.ofNat (c.toNat / 4096 % 16 + 224))
      (.ofNat (c.toNat / 64 % 64 + 128) :: .ofNat (c.toNat % 64 + 128) :: rest) =
      (some c, rest) := by
  have hvalid : c.toNat < 0xD800 ∨ 0xDFFF < c.toNat ∧ c.toNat < 0x110000 := c.valid
  refine piece_of_lead (lead?_three (by omega)) ?_
  refine (continuation_cons (by omega) ?_ ?_).trans ?_
  · -- Fewer bits would have been two bytes.
    dsimp only
    split
    · exact (by omega : 0xA0 ≤ c.toNat / 64 % 64 + 128)
    · exact Nat.le_add_left 128 _
  · -- A second byte above this would make a surrogate.
    dsimp only
    split
    · exact (by omega : c.toNat / 64 % 64 + 128 ≤ 0x9F)
    · exact (by omega : c.toNat / 64 % 64 + 128 ≤ 0xBF)
  · exact (continuation_tail (by omega)).trans (continuation_zero (by dsimp only; omega))

theorem piece_four (hle : 0xFFFF < c.toNat) :
    piece (.ofNat (c.toNat / 262144 % 8 + 240))
      (.ofNat (c.toNat / 4096 % 64 + 128) :: .ofNat (c.toNat / 64 % 64 + 128) ::
        .ofNat (c.toNat % 64 + 128) :: rest) = (some c, rest) := by
  have hvalid : c.toNat < 0xD800 ∨ 0xDFFF < c.toNat ∧ c.toNat < 0x110000 := c.valid
  refine piece_of_lead (lead?_four (by omega)) ?_
  refine (continuation_cons (by omega) ?_ ?_).trans ?_
  · -- Fewer bits would have been three bytes.
    dsimp only
    split
    · exact (by omega : 0x90 ≤ c.toNat / 4096 % 64 + 128)
    · exact Nat.le_add_left 128 _
  · -- A second byte above this would make no character.
    dsimp only
    split
    · exact (by omega : c.toNat / 4096 % 64 + 128 ≤ 0x8F)
    · exact (by omega : c.toNat / 4096 % 64 + 128 ≤ 0xBF)
  · exact (continuation_tail (by omega)).trans
      ((continuation_tail (by omega)).trans (continuation_zero (by dsimp only; omega)))

/-- The bytes of a character are one piece. -/
theorem pieces_encode_append (c : Char) (rest : Bytes) :
    pieces (String.utf8EncodeChar c ++ rest) = some c :: pieces rest := by
  have hpieces : ∀ {b more}, piece b (more ++ rest) = (some c, rest) →
      pieces (b :: more ++ rest) = some c :: pieces rest := by
    intro b more hpiece
    rw [List.cons_append, pieces, hpiece]
  have hvalue : c.val.toNat = c.toNat := rfl
  rw [String.utf8EncodeChar, hvalue]
  split
  · next hone => exact hpieces (piece_one hone)
  · next hone =>
      split
      · next htwo => exact hpieces (piece_two (Nat.lt_of_not_le hone) htwo)
      · next htwo =>
          split
          · next hthree => exact hpieces (piece_three (Nat.lt_of_not_le htwo) hthree)
          · next hthree => exact hpieces (piece_four (Nat.lt_of_not_le hthree))

/-- The bytes of characters are read as these characters. -/
theorem pieces_flatMap_encode (chars : List Char) :
    pieces (chars.flatMap String.utf8EncodeChar) = chars.map some := by
  induction chars with
  | nil => rw [List.flatMap_nil, pieces, List.map_nil]
  | cons c chars ih => rw [List.flatMap_cons, pieces_encode_append, ih, List.map_cons]

/-! ## Texts -/

theorem pieces_ofText (text : String) : pieces (.ofText text) = text.toList.map some :=
  pieces_flatMap_encode text.toList

/-- The bytes of a text are well formed, and they are the text. -/
theorem decode?_ofText (text : String) : decode? (.ofText text) = some text := by
  have hall : (text.toList.map some).mapM id = some text.toList := by
    rw [List.mapM_map]
    exact (List.mapM_pure (f := id)).trans (congrArg some (List.map_id _))
  rw [decode?, pieces_ofText, hall, Option.map_some, String.ofList_toList]

/-- No character of a text is replaced. -/
theorem lossy_ofText (text : String) : lossy (.ofText text) = text := by
  have hall : (text.toList.map some).map (·.getD '\uFFFD') = text.toList := by
    rw [List.map_map]
    exact List.map_id _
  rw [lossy, pieces_ofText, hall, String.ofList_toList]

/-- Different texts have different bytes. -/
theorem ofText_injective : Function.Injective Bytes.ofText := by
  intro text text' h
  rw [← lossy_ofText text, h, lossy_ofText]

end Multimap.Text.Utf8
