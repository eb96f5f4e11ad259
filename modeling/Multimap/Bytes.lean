/-!
# Byte strings

Keys and values are arbitrary byte strings. They are ordered byte-wise and
lexicographically, which is the order `compare` gives to lists of `UInt8`.

Main definitions:
1. `Bytes`, the type of keys and values;
2. `ofText`, the bytes of a text in UTF-8;
3. `hex`, two lowercase digits per byte.
-/

namespace Multimap

/-- A byte string. -/
abbrev Bytes := List UInt8

namespace Bytes

/-- The UTF-8 encoding of a text. -/
def ofText (text : String) : Bytes :=
  text.toList.flatMap String.utf8EncodeChar

theorem ofText_append (front back : String) :
    ofText (front ++ back) = ofText front ++ ofText back := by
  rw [ofText, String.toList_append, List.flatMap_append]
  rfl

theorem length_ofText (text : String) : (ofText text).length = text.utf8ByteSize := by
  have hbytes : (String.ofList text.toList).toByteArray = (ofText text).toByteArray :=
    String.toByteArray_ofList
  rw [String.ofList_toList] at hbytes
  rw [String.utf8ByteSize, hbytes, List.size_toByteArray]

/-- Encodes a byte by two lowercase hexadecimal digits. -/
def hexDigits (b : UInt8) : List Char :=
  [Nat.digitChar (b.toNat / 16), Nat.digitChar (b.toNat % 16)]

/-- The hexadecimal text of a byte string. -/
def hex (bytes : Bytes) : String :=
  String.ofList (bytes.flatMap hexDigits)

end Bytes

end Multimap
