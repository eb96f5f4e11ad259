import Multimap.Handle.Basic

/-!
# Listings

A listing has one line per pair between a head line with the name of the factory
and a closing brace. Where the traversal fails it stops short.
-/

namespace Multimap.Handle

open Multimap.Traversal

/-- The text of a listing, and whether it goes to the end. -/
structure Listing where
  text : String
  complete : Bool
  deriving DecidableEq, Repr

namespace Listing

/-- The line of one entry. -/
def line (entry : Entry) : String :=
  let value := (entry.value.map Text.Utf8.lossy).getD ""
  "  '" ++ Text.Utf8.lossy entry.key ++ "'=>'" ++ value ++ "'\n"

/-- The lines of a walk's items up to the first error, or up to the closing brace. -/
def body : List Walk.Item → Listing
  | [] => { text := "\x7d", complete := true }
  | .error _ :: _ => { text := "", complete := false }
  | .ok entry :: rest =>
      let tail := body rest
      { tail with text := line entry ++ tail.text }

end Listing

variable {m : Type → Type} {σ κ : Type} [Monad m] [CursorState m κ] [Backend m σ κ]

/-- The listing of all pairs. -/
def listing (h : Handle m σ) : m Listing := do
  let head := h.factory.name ++ " hash: \x7b\n"
  match ← (h.walk .pairs true).run with
  | .error _ => return { text := head, complete := false }
  | .ok walk =>
      let body := Listing.body (← walk.drain)
      return { body with text := head ++ body.text }

end Multimap.Handle
