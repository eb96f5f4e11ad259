import Multimap.Error
import Multimap.Traversal.Contents

/-!
# Readers — the cursor that others are measured by

A reader walks through contents, which are nothing but a list. It begins without a
position, and how it moves is `Contents.move`: `seek` and `first` look at the whole
list, `nextKey` at what is behind the current key, and `nextValue` at what is left of
its values. A key stays current when its values have run out.

Main definitions:
1. `Call`, a request or the end of all requests;
2. `Reader` with `get` and `finish`;
3. `answers`, what a cursor of any kind says to a list of calls.
-/

namespace Multimap.Traversal

/-- A call of a cursor. -/
inductive Call where
  | get (request : Request) (wantValue : Bool)
  | finish
  deriving DecidableEq, Repr

/-- What a cursor answers to a request. -/
abbrev Answer := Except Error (Option Entry)

/-- The answers to the requests among some calls, for a cursor whose operations are
`get` and `finish`. -/
def answers {κ : Type} (get : κ → Request → Bool → Answer × κ) (finish : κ → κ) :
    List Call → κ → List Answer
  | [], _ => []
  | .get request wantValue :: calls, c =>
      (get c request wantValue).1 :: answers get finish calls (get c request wantValue).2
  | .finish :: calls, c => answers get finish calls (finish c)

/-- A cursor over contents. -/
structure Reader where
  contents : Contents
  spot : Option Spot
  finished : Bool
  deriving DecidableEq, Repr

namespace Reader

/-- The reader before its first request. -/
def ofContents (contents : Contents) : Reader :=
  { contents, spot := none, finished := false }

/-- Answers a request with what is to be seen where it leads to. A finished reader
answers none. -/
def get (r : Reader) (request : Request) (wantValue : Bool) : Answer × Reader :=
  if r.finished then
    (.error .cursorFinished, r)
  else
    let spot := r.contents.move r.spot request
    (.ok (spot.bind (·.current? wantValue)), { r with spot })

/-- Gives the position up for good. -/
def finish (r : Reader) : Reader :=
  { r with spot := none, finished := true }

end Reader

/-! ## Cursors that do the same -/

/-- Two cursors that answer alike now and after each call answer alike for ever. -/
theorem answers_eq {κ ν : Type} {get : κ → Request → Bool → Answer × κ} {finish : κ → κ}
    {get' : ν → Request → Bool → Answer × ν} {finish' : ν → ν} {R : κ → ν → Prop}
    (hget : ∀ c d request wantValue, R c d →
      (get c request wantValue).1 = (get' d request wantValue).1 ∧
        R (get c request wantValue).2 (get' d request wantValue).2)
    (hfinish : ∀ c d, R c d → R (finish c) (finish' d))
    {c : κ} {d : ν} (h : R c d) (calls : List Call) :
    answers get finish calls c = answers get' finish' calls d := by
  induction calls generalizing c d with
  | nil => rfl
  | cons call calls ih =>
      cases call with
      | get request wantValue =>
          rcases hget c d request wantValue h with ⟨hanswer, hrelated⟩
          rw [answers, answers, hanswer, ih hrelated]
      | finish => exact ih (hfinish c d h)

end Multimap.Traversal
