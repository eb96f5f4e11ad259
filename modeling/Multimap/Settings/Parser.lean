import Multimap.Error
import Multimap.Settings.Scan
import Multimap.Text.Utf8

/-!
# Reading settings one by one

A parser hands out the settings of a text in order. It reports a value that never
closes once, with the offset of its opening quote in bytes from the start of the
text, and then it is at its end for good.

Main definitions:
1. `Parser`, what is left to read;
2. `Parser.next`, one item and the parser behind it;
3. `items`, all items of a text.
-/

namespace Multimap.Settings

/-- A text of `size` bytes, read up to the bytes `rest`. -/
structure Parser where
  size : Nat
  rest : Bytes
  finished : Bool
  deriving DecidableEq, Repr

/-- An item of a settings text. -/
abbrev Item := Except Error Setting

namespace Parser

/-- The parser at the start of a byte string. -/
def ofBytes (bytes : Bytes) : Parser :=
  { size := bytes.length, rest := bytes, finished := false }

/-- The error of a value that never closes, by its key and what follows its quote. -/
def unterminated (p : Parser) (key body : Bytes) : Error :=
  .unterminatedValue (Text.Utf8.lossy key) (p.size - (body.length + 1))

/-- The next item, if there is one. -/
def next (p : Parser) : Option Item × Parser :=
  if p.finished then
    (none, p)
  else
    match scan p.rest with
    | .setting found rest => (some (.ok found), { p with rest })
    | .unterminated key body =>
        (some (.error (p.unterminated key body)), { p with finished := true })
    | .nothing => (none, { p with finished := true })

/-- An upper bound of the number of items. -/
def bound (p : Parser) : Nat :=
  if p.finished then 0 else p.rest.length + 1

theorem bound_next_lt {p : Parser} {item : Item} (h : p.next.1 = some item) :
    p.next.2.bound < p.bound := by
  unfold next at h ⊢
  cases hf : p.finished with
  | true => simp [hf] at h
  | false =>
      simp only [hf, Bool.false_eq_true, ↓reduceIte] at h ⊢
      cases hs : scan p.rest with
      | setting found rest =>
          have := scan_length_lt hs
          simp [bound, hf, this]
      | unterminated key body => simp [bound, hf]
      | nothing => simp [hs] at h

/-- All items that are left, and the parser at its end. -/
def drain (p : Parser) : List Item × Parser :=
  match _next : p.next.1 with
  | some item =>
      let (items, final) := drain p.next.2
      (item :: items, final)
  | none => ([], p.next.2)
termination_by p.bound
decreasing_by exact bound_next_lt ‹_›

end Parser

/-- All items of a settings text. -/
def items (text : Bytes) : List Item :=
  (Parser.ofBytes text).drain.1

end Multimap.Settings
