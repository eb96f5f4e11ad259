import Multimap.Text.Quoted
import Multimap.Text.Record
import Multimap.Text.Utf8

/-!
# How byte strings are shown

A byte string that is well-formed UTF-8 is shown as its quoted text, any other as
the list of its bytes in decimal.
-/

namespace Multimap.Text

/-- A byte string as the list of its bytes. -/
def shownBytes (bytes : Bytes) : String :=
  listed (bytes.map fun b => toString b.toNat)

/-- A key or a value. -/
def shownDatum (bytes : Bytes) : String :=
  applied "Datum" <|
    match Utf8.decode? bytes with
    | some text => quoted text
    | none => shownBytes bytes

/-- A truth value. -/
def shownBool (b : Bool) : String :=
  if b then "true" else "false"

end Multimap.Text
