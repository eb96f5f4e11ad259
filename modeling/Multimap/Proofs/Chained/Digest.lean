import Mathlib.Data.Nat.Bitwise
import Multimap.Chained.Digest

/-!
# Digest — only the last bytes of a key count

Each byte that is taken into a digest moves what came before it up by three bits. Whatever the
digest was at first, after `n` more bytes it has left no trace in the lowest `3 * n` bits, and
after twenty-two bytes in none.

* one byte more is three bits more in which two digests agree (`AgreeBelow.mixByte`), hence the
  bytes at the end of a key determine the lowest bits (`agreeBelow_append`);
* keys with the same twenty-two bytes at the end have the same digest (`digest_eq_of_suffix`).
-/

namespace Multimap.Chained

variable {bits : Nat} {d d' : UInt64} {key back : Bytes}

/-- Two digests agree in their lowest bits. -/
def AgreeBelow (bits : Nat) (d d' : UInt64) : Prop :=
  ∀ i < bits, d.toNat.testBit i = d'.toNat.testBit i

theorem testBit_mixByte (d : UInt64) (b : UInt8) (i : Nat) :
    (mixByte d b).toNat.testBit i =
      ((decide (i < 64) && (decide (3 ≤ i) && d.toNat.testBit (i - 3))) ^^
        b.toNat.testBit i) := by
  rw [mixByte, UInt64.toNat_xor, Nat.testBit_xor, UInt64.toNat_shiftLeft,
    show (3 : UInt64).toNat % 64 = 3 from rfl, Nat.testBit_mod_two_pow, Nat.testBit_shiftLeft,
    UInt8.toNat_toUInt64]

namespace AgreeBelow

/-- One more byte hides three more bits of what was there before. -/
theorem mixByte (h : AgreeBelow bits d d') (b : UInt8) :
    AgreeBelow (bits + 3) (mixByte d b) (mixByte d' b) := by
  intro i hi
  rw [testBit_mixByte, testBit_mixByte]
  by_cases hthree : 3 ≤ i
  · rw [h (i - 3) (by omega)]
  · simp [hthree]

theorem foldl (h : AgreeBelow bits d d') (key : Bytes) :
    AgreeBelow (bits + 3 * key.length) (key.foldl Chained.mixByte d)
      (key.foldl Chained.mixByte d') := by
  induction key generalizing bits d d' with
  | nil => exact h
  | cons b key ih =>
      have hlength : bits + 3 * (b :: key).length = bits + 3 + 3 * key.length := by
        rw [List.length_cons]
        omega
      rw [hlength]
      exact ih (h.mixByte b)

theorem mod_two_pow_eq (h : AgreeBelow bits d d') : d.toNat % 2 ^ bits = d'.toNat % 2 ^ bits := by
  apply Nat.eq_of_testBit_eq
  intro i
  rw [Nat.testBit_mod_two_pow, Nat.testBit_mod_two_pow]
  by_cases hi : i < bits
  · rw [h i hi]
  · simp [hi]

theorem mono {fewer : Nat} (h : AgreeBelow bits d d') (hle : fewer ≤ bits) :
    AgreeBelow fewer d d' :=
  fun i hi => h i (Nat.lt_of_lt_of_le hi hle)

/-- There are no more than sixty-four bits. -/
theorem eq (h : AgreeBelow bits d d') (hbits : 64 ≤ bits) : d = d' := by
  have hmod := (h.mono hbits).mod_two_pow_eq
  rw [Nat.mod_eq_of_lt d.toNat_lt, Nat.mod_eq_of_lt d'.toNat_lt] at hmod
  exact UInt64.toNat_inj.1 hmod

end AgreeBelow

theorem agreeBelow_append (front back : Bytes) :
    AgreeBelow (3 * back.length) (digest (front ++ back)) (digest back) := by
  have hnone : AgreeBelow 0 (digest front) 0 := nofun
  have hback := hnone.foldl back
  have happend : digest (front ++ back) = back.foldl mixByte (digest front) := List.foldl_append
  rwa [Nat.zero_add, ← happend] at hback

theorem digest_mod_two_pow (front : Bytes) (h : bits ≤ 3 * back.length) :
    (digest (front ++ back)).toNat % 2 ^ bits = (digest back).toNat % 2 ^ bits :=
  ((agreeBelow_append front back).mono h).mod_two_pow_eq

/-- Twenty-two bytes at the end of a key are as good as the key. -/
theorem digest_eq_of_suffix {suffix : Bytes} (hlength : 22 ≤ suffix.length)
    (h : suffix <:+ key) : digest key = digest suffix := by
  rcases h with ⟨front, rfl⟩
  exact (agreeBelow_append front suffix).eq (by omega)

-- Twenty-one bytes leave the highest bit to the byte before them.
example : digest (1 :: List.replicate 21 0) ≠ digest (0 :: List.replicate 21 0) := by decide

end Multimap.Chained
