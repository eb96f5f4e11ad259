import Multimap.Text.Shown

/-!
# Requests and entries

The four requests that a cursor understands, and the entry it answers with.
-/

namespace Multimap.Traversal

/-- What a cursor is asked to do. -/
inductive Request where
  /-- Go to the first value of `key`. -/
  | seek (key : Bytes)
  /-- Go to the first value of the first key. -/
  | first
  /-- Go to the first value of the next key, past the other values of this one. -/
  | nextKey
  /-- Go to the next value of the same key. -/
  | nextValue
  deriving DecidableEq, Repr

/-- A key, and its current value where that was asked for. -/
structure Entry where
  key : Bytes
  value : Option Bytes
  deriving DecidableEq, Repr

namespace Request

/-- How a request is shown. -/
def shown : Request → String
  | .seek key => Text.applied "Set" (Text.shownBytes key)
  | .first => "First"
  | .nextKey => "Next"
  | .nextValue => "NextValue"

end Request

namespace Entry

/-- How an entry is shown. -/
def shown (e : Entry) : String :=
  Text.record "Entry"
    [("key", Text.shownDatum e.key), ("value", Text.optional (e.value.map Text.shownDatum))]

/-- An entry without its value. -/
def keyOnly (e : Entry) : Entry :=
  { e with value := none }

end Entry

end Multimap.Traversal
