import Multimap.Traversal.Request

/-!
# Contents and how they are walked

The contents of a multimap are a list of keys, each once and each with its
values. A cursor over contents is the plainest there is: it remembers what is
still ahead of it.

Main definitions:
1. `Contents`, with `keys`, `pairs` and `valuesOf`;
2. `Spot`, a key, its values that are left, and the contents behind it;
3. `Contents.move`, where a request leads to.
-/

namespace Multimap.Traversal

/-- Keys with their values, in the order of a traversal. -/
abbrev Contents := List (Bytes × List Bytes)

namespace Contents

/-- The keys. -/
def keys (contents : Contents) : List Bytes :=
  contents.map Prod.fst

/-- The pairs: each key with each of its values. -/
def pairs (contents : Contents) : List (Bytes × Bytes) :=
  contents.flatMap fun (key, values) => values.map fun value => (key, value)

/-- The values of a key. -/
def valuesOf (contents : Contents) (key : Bytes) : List Bytes :=
  (contents.lookup key).getD []

end Contents

/-- A spot in contents. -/
structure Spot where
  key : Bytes
  /-- The current value and those after it; none once they have run out. -/
  remaining : List Bytes
  /-- The contents behind this key. -/
  behind : Contents
  deriving DecidableEq, Repr

namespace Spot

/-- What is to be seen at a spot. -/
def current? (s : Spot) (wantValue : Bool) : Option Entry :=
  s.remaining.head?.map fun value =>
    { key := s.key, value := if wantValue then some value else none }

end Spot

namespace Contents

/-- The first value of the first key. -/
def start? : Contents → Option Spot
  | [] => none
  | (key, values) :: behind => some { key, remaining := values, behind }

/-- Where a request leads to. -/
def move (contents : Contents) (spot : Option Spot) : Request → Option Spot
  | .seek key => start? (contents.dropWhile (·.1 != key))
  | .first => start? contents
  | .nextKey => spot.bind (start? ·.behind)
  | .nextValue => spot.map fun s => { s with remaining := s.remaining.tail }

end Contents

end Multimap.Traversal
