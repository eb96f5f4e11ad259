import Multimap.Text.Integer
import Multimap.Text.Numeral

/-!
# Integers at the start of a text — the numeral and its value

Every text opens with exactly one numeral, and what is read of the text is the value of this
numeral, clamped to 64 signed bits.

* the parts of a text that reading takes off are the parts of its notation
  (`longestRun_iff`, `splitSign_of_signed`, `splitRadix_of_inRadix`), so the numeral that
  reading finds is the one that the text opens with (`opens_iff`);
* the magnitude that is kept is the exact one, or it has overflowed and the exact one is out
  of range (`Magnitude.Follows`); more digits do not bring it back;
* what is read is the reading of the numeral (`read?_eq`).
-/

namespace Multimap.Text

variable {radix digit : Nat} {digits : List Nat} {negative : Bool} {b : UInt8}
  {bytes unsigned run : Bytes} {n : Numeral}

theorem InRadix.radix_le (h : InRadix radix run unsigned) : radix ≤ 16 := by
  cases h <;> decide

theorem InRadix.radix_ne_zero (h : InRadix radix run unsigned) : radix ≠ 0 := by
  cases h <;> decide

namespace Integer

/-! ## Digits -/

theorem digitChar_toNat (h : digit < 16) :
    (Nat.digitChar digit).toNat = if digit < 10 then 0x30 + digit else 0x57 + digit := by
  decide +revert

theorem digitChar_toUpper_toNat (h : digit < 16) :
    (Nat.digitChar digit).toUpper.toNat = if digit < 10 then 0x30 + digit else 0x37 + digit := by
  decide +revert

theorem digit?_eq_some_iff (hradix : radix ≤ 16) (b : UInt8) :
    digit? radix b = some digit ↔ IsDigit radix digit b := by
  rw [IsDigit, digit?, Option.filter_eq_some_iff, and_comm, decide_eq_true_iff]
  refine and_congr_right ?_
  intro hlt
  have hdigit : digit < 16 := Nat.lt_of_lt_of_le hlt hradix
  rw [digitChar_toNat hdigit, digitChar_toUpper_toNat hdigit]
  -- What is left is arithmetic with the code point of the byte.
  simp only [UInt8.le_iff_toNat_le, UInt8.reduceToNat]
  grind

theorem isSome_digit?_iff (hradix : radix ≤ 16) (b : UInt8) :
    (digit? radix b).isSome ↔ ∃ digit, IsDigit radix digit b := by
  simp only [Option.isSome_iff_exists, digit?_eq_some_iff hradix]

theorem digitRun_of_isDigit (hradix : radix ≤ 16) (h : IsDigit radix digit b) (rest : Bytes) :
    digitRun radix (b :: rest) = digit :: digitRun radix rest := by
  rw [digitRun, (digit?_eq_some_iff hradix b).2 h]

theorem digitRun_eq_nil (hradix : radix ≤ 16)
    (h : ∀ b ∈ bytes.head?, ∀ digit, ¬ IsDigit radix digit b) : digitRun radix bytes = [] := by
  cases bytes with
  | nil => rfl
  | cons b rest =>
      rw [digitRun]
      cases hdigit : digit? radix b with
      | none => rfl
      | some digit => exact absurd ((digit?_eq_some_iff hradix b).1 hdigit) (h b rfl digit)

theorem longestRun_digitRun (hradix : radix ≤ 16) (bytes : Bytes) :
    LongestRun radix (digitRun radix bytes) bytes := by
  induction bytes with
  | nil => exact ⟨[], [], rfl, .nil, nofun⟩
  | cons b rest ih =>
      rw [digitRun]
      cases hdigit : digit? radix b with
      | none =>
          -- The run is over in front of this byte.
          refine ⟨[], b :: rest, rfl, .nil, ?_⟩
          rintro _ ⟨⟩ digit hb
          rw [(digit?_eq_some_iff hradix b).2 hb] at hdigit
          cases hdigit
      | some digit =>
          rcases ih with ⟨run, left, hsplit, hdigits, hend⟩
          exact ⟨b :: run, left, congrArg (b :: ·) hsplit,
            .cons ((digit?_eq_some_iff hradix b).1 hdigit) hdigits, hend⟩

theorem longestRun_iff (hradix : radix ≤ 16) :
    LongestRun radix digits bytes ↔ digits = digitRun radix bytes := by
  constructor
  · rintro ⟨run, left, rfl, hdigits, hend⟩
    induction hdigits with
    | nil => exact (digitRun_eq_nil hradix hend).symm
    | cons hdigit _ ih => rw [List.cons_append, digitRun_of_isDigit hradix hdigit, ih]
  · rintro rfl
    exact longestRun_digitRun hradix bytes

/-! ## Signs and radixes -/

theorem head?_ne_some (h : ∀ rest, bytes = b :: rest → False) : bytes.head? ≠ some b := by
  intro hhead
  rcases List.head?_eq_some_iff.1 hhead with ⟨rest, hrest⟩
  exact h rest hrest

theorem signed_splitSign (bytes : Bytes) :
    Signed (splitSign bytes).1 (splitSign bytes).2 bytes := by
  unfold splitSign
  split
  · exact .minus
  · exact .plus
  · next hminus hplus => exact .none (head?_ne_some hminus) (head?_ne_some hplus)

theorem splitSign_of_signed (h : Signed negative unsigned bytes) :
    splitSign bytes = (negative, unsigned) := by
  cases h with
  | minus => rfl
  | plus => rfl
  | none hminus hplus =>
      rw [splitSign]
      · rintro rest rfl
        exact hminus rfl
      · rintro rest rfl
        exact hplus rfl

theorem inRadix_splitRadix (bytes : Bytes) :
    InRadix (splitRadix bytes).1 (splitRadix bytes).2 bytes := by
  unfold splitRadix
  split
  · next x b rest =>
      split
      · next hmark =>
          exact .hexadecimal ⟨x, hmark.1, rfl, b, rfl, (isSome_digit?_iff (by decide) b).1 hmark.2⟩
      · next hmark =>
          -- The zero is a digit, whatever follows it.
          refine .octal ?_
          rintro _ ⟨_, hx, ⟨⟩, _, ⟨⟩, hdigit⟩
          exact hmark ⟨hx, (isSome_digit?_iff (by decide) b).2 hdigit⟩
  · next rest hshort =>
      -- There is no room for a mark and a digit behind it.
      refine .octal ?_
      rintro digits ⟨x, -, ⟨⟩, b, hb, -⟩
      rcases List.head?_eq_some_iff.1 hb with ⟨left, rfl⟩
      exact hshort x b left rfl
  · next hzero => exact .decimal (head?_ne_some hzero)

theorem splitRadix_of_inRadix (h : InRadix radix run unsigned) :
    splitRadix unsigned = (radix, run) := by
  cases h with
  | hexadecimal h =>
      rcases h with ⟨x, hx, rfl, b, hb, hdigit⟩
      rcases List.head?_eq_some_iff.1 hb with ⟨rest, rfl⟩
      rw [splitRadix, if_pos ⟨hx, (isSome_digit?_iff (by decide) b).2 hdigit⟩]
  | @octal rest h =>
      -- What is split off is no mark, so the digits start at the zero.
      have hsplit := inRadix_splitRadix (0x30 :: rest)
      generalize splitRadix (0x30 :: rest) = split at hsplit
      rcases split with ⟨radix, digits⟩
      cases hsplit with
      | hexadecimal hhex => exact absurd hhex (h digits)
      | octal _ => rfl
      | decimal hzero => exact absurd rfl hzero
  | decimal h =>
      rw [splitRadix]
      · rintro x digit rest rfl
        exact h rfl
      · rintro rest rfl
        exact h rfl

/-! ## Numerals -/

/-- The numeral that reading finds. -/
def numeral (bytes : Bytes) : Numeral :=
  let sign := splitSign (bytes.dropWhile isBlank)
  let digits := splitRadix sign.2
  { negative := sign.1, radix := digits.1, digits := digitRun digits.1 digits.2 }

theorem dropWhile_blanks {blanks signed : Bytes} (hblanks : ∀ b ∈ blanks, isBlank b)
    (hsigned : ∀ b ∈ signed.head?, ¬ isBlank b) :
    (blanks ++ signed).dropWhile isBlank = signed := by
  rw [List.dropWhile_append_of_pos hblanks]
  cases signed with
  | nil => rfl
  | cons b rest => exact List.dropWhile_cons_of_neg (hsigned b rfl)

theorem opens_numeral (bytes : Bytes) : Opens (numeral bytes) bytes := by
  have hblanks : ∀ b ∈ bytes.takeWhile isBlank, isBlank b :=
    List.all_eq_true.1 List.all_takeWhile
  have hsigned : ∀ b ∈ (bytes.dropWhile isBlank).head?, ¬ isBlank b := by
    intro b hb
    have hhead := List.head?_dropWhile_not isBlank bytes
    rw [Option.mem_def.1 hb] at hhead
    exact Bool.eq_false_iff.1 hhead
  have hradix := inRadix_splitRadix (splitSign (bytes.dropWhile isBlank)).2
  have hopens := Opens.intro hblanks hsigned (signed_splitSign _) hradix
    (longestRun_digitRun hradix.radix_le _)
  rwa [List.takeWhile_append_dropWhile] at hopens

/-- A text opens with one numeral only. -/
theorem opens_iff : Opens n bytes ↔ n = numeral bytes := by
  constructor
  · rintro ⟨hblanks, hsigned, hsign, hradix, hrun⟩
    rw [numeral, dropWhile_blanks hblanks hsigned, splitSign_of_signed hsign,
      splitRadix_of_inRadix hradix, (longestRun_iff hradix.radix_le).1 hrun]
  · rintro rfl
    exact opens_numeral bytes

/-! ## Values -/

namespace Magnitude

/-- What is kept of an exact magnitude: all of it, or only that it is too large. -/
structure Follows (m : Magnitude) (actual : Nat) : Prop where
  value_eq : m.overflowed = false → m.value = actual
  size_le : m.overflowed = true → UInt64.size ≤ actual

theorem Follows.push {m : Magnitude} {actual radix : Nat} (h : m.Follows actual)
    (hradix : radix ≠ 0) (digit : Nat) :
    (m.push radix digit).Follows (digit + radix * actual) := by
  have hgrows : actual ≤ digit + radix * actual :=
    Nat.le_add_left_of_le (Nat.le_mul_of_pos_left actual (Nat.pos_of_ne_zero hradix))
  have hactual : m.overflowed = false → m.value * radix + digit = digit + radix * actual := by
    intro hkept
    rw [h.value_eq hkept, Nat.mul_comm, Nat.add_comm]
  rw [Magnitude.push]
  split
  · next hfits =>
      exact ⟨hactual, fun hover => Nat.le_trans (h.size_le hover) hgrows⟩
  · next hover =>
      -- Either the magnitude leaves the range with this digit, or it had left it before.
      refine ⟨nofun, ?_⟩
      intro _
      cases hkept : m.overflowed with
      | false => exact hactual hkept ▸ Nat.le_of_not_lt hover
      | true => exact Nat.le_trans (h.size_le hkept) hgrows

theorem Follows.foldl {radix : Nat} (hradix : radix ≠ 0) (digits : List Nat) {m : Magnitude}
    {actual : Nat} (h : m.Follows actual) :
    (digits.foldl (Magnitude.push radix) m).Follows
      (digits.foldl (fun actual digit => digit + radix * actual) actual) := by
  induction digits generalizing m actual with
  | nil => exact h
  | cons digit digits ih => exact ih (h.push hradix digit)

/-- The magnitude of a whole run, which may be of any length. -/
theorem follows_ofDigits {radix : Nat} (hradix : radix ≠ 0) (digits : List Nat) :
    (digits.foldl (Magnitude.push radix) .zero).Follows (Nat.ofDigits radix digits.reverse) := by
  have hzero : zero.Follows 0 := ⟨fun _ => rfl, nofun⟩
  rw [Nat.ofDigits_eq_foldr, List.foldr_reverse]
  exact hzero.foldl hradix digits

/-- What does not fit 64 bits does not fit either side of the signed range. -/
theorem Follows.min_limit {m : Magnitude} {actual : Nat} (h : m.Follows actual) (negative : Bool) :
    (if m.overflowed || limit negative < m.value then limit negative else m.value) =
      min actual (limit negative) := by
  have hlimit : limit negative < UInt64.size := by
    cases negative <;> decide
  cases hover : m.overflowed with
  | true =>
      have hle : limit negative ≤ actual :=
        Nat.le_of_lt (Nat.lt_of_lt_of_le hlimit (h.size_le hover))
      rw [Bool.true_or, if_pos rfl, Nat.min_eq_right hle]
  | false =>
      rw [Bool.false_or, h.value_eq hover]
      grind

theorem Follows.toInt_eq {m : Magnitude} {actual : Nat} (h : m.Follows actual) (negative : Bool) :
    m.toInt negative = clamp (if negative then -(actual : Int) else (actual : Int)) := by
  rw [toInt, h.min_limit, clamp]
  cases negative with
  | true =>
      simp only [limit, if_true]
      omega
  | false =>
      simp only [limit, Bool.false_eq_true, if_false]
      omega

end Magnitude

/-- What is read of a text is the reading of the numeral that it opens with. -/
theorem read?_eq (bytes : Bytes) : read? bytes = (numeral bytes).reading? := by
  have hradix := (inRadix_splitRadix (splitSign (bytes.dropWhile isBlank)).2).radix_ne_zero
  have hvalue := (Magnitude.follows_ofDigits hradix (numeral bytes).digits).toInt_eq
    (numeral bytes).negative
  rw [read?, Numeral.reading?]
  dsimp only
  split
  · next hrun => exact (if_pos hrun).symm
  · next hrun => exact (congrArg some hvalue).trans (if_neg hrun).symm

/-- Without a hexadecimal digit behind it, `0x` is a zero and something that follows. -/
example : numeral (.ofText "+0xg") = ⟨false, 8, [0]⟩ := by decide

end Integer

end Multimap.Text
