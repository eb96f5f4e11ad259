import Multimap.Bytes

/-!
# Key digests

The digest of a key shifts by three bits and adds a byte without carry, over all
bytes of the key in order. It has 64 bits, so a byte is shifted out again once
twenty-two others have followed it.
-/

namespace Multimap.Chained

/-- Takes one more byte into a digest. -/
def mixByte (digest : UInt64) (b : UInt8) : UInt64 :=
  (digest <<< 3) ^^^ b.toUInt64

/-- The digest of a key. -/
def digest (key : Bytes) : UInt64 :=
  key.foldl mixByte 0

end Multimap.Chained
