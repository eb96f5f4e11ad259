/-!
# Record notation

How structured values are shown: `Name(x)`, `Name { field: x, other: y }` and
`[x, y]`, where the parts are texts that are already written.
-/

namespace Multimap.Text

/-- A bracketed list. -/
def listed (parts : List String) : String :=
  "[" ++ ", ".intercalate parts ++ "]"

/-- A name applied to one part. -/
def applied (name part : String) : String :=
  name ++ "(" ++ part ++ ")"

/-- A name with named fields, of which there is at least one. -/
def record (name : String) (fields : List (String × String)) : String :=
  name ++ " \x7b " ++ ", ".intercalate (fields.map fun (field, part) => field ++ ": " ++ part) ++
    " \x7d"

/-- An optional part. -/
def optional : Option String → String
  | none => "None"
  | some part => applied "Some" part

end Multimap.Text
