import Multimap.Proofs.Chained.Walking

/-!
# Refinement — a table is a multimap

A multimap is a function that gives every key the list of its values, newest first; a
key that is not there has none. A run of operations on a fresh table gets the answers
that this function gives, and what the table shows afterwards, its counts and all that
walks hand out, is what the function has become.

* `Model` and its operations;
* one operation keeps a table and a model together (`Refines.perform`), and so does a
  run (`Refines.run`);
* what a table shows that goes with a model (`Refines.reflects`).
-/

namespace Multimap.Chained

open Multimap.Traversal

/-- An operation of a run. -/
inductive Operation where
  | put (key value : Bytes)
  | erase (key : Bytes)
  | erasePair (key value : Bytes)
  /-- Whether a key is there, or a key with a value. -/
  | contains (key : Bytes) (value : Option Bytes)
  | close
  deriving DecidableEq, Repr

/-! ## The model -/

/-- The values of every key, newest first. -/
abbrev Model := Bytes → List Bytes

namespace Model

/-- The model without keys. -/
def empty : Model :=
  fun _ => []

/-- What an operation answers, if that is a flag, and what it makes of the model. -/
def perform (model : Model) : Operation → Option Bool × Model
  | .put key value => (none, Function.update model key (value :: model key))
  | .erase key => (some (model key ≠ []), Function.update model key [])
  | .erasePair key value =>
      (some (value ∈ model key), Function.update model key ((model key).erase value))
  | .contains key none => (some (model key ≠ []), model)
  | .contains key (some value) => (some (value ∈ model key), model)
  | .close => (none, empty)

/-- Performs operations one after the other. -/
def run (model : Model) : List Operation → List (Option Bool) × Model
  | [] => ([], model)
  | op :: ops =>
      let (answer, model) := model.perform op
      let (answers, model) := model.run ops
      (answer :: answers, model)

end Model

namespace Table

/-- Performs an operation in some memory, and answers with a flag if it has one. -/
def performIn (t : Table) (memory : Memory) : Operation → Except Error (Option Bool) × Table
  | .put key value =>
      let (answer, t) := t.putIn memory key value
      (answer.map fun _ => none, t)
  | .erase key =>
      let (found, t) := t.erase key
      (.ok (some found), t)
  | .erasePair key value =>
      let (found, t) := t.erasePair key value
      (.ok (some found), t)
  | .contains key value => (.ok (some (t.contains key value)), t)
  | .close => (.ok none, t.clear)

/-- Performs an operation, in a memory that refuses nothing but first buckets that
cannot be addressed. -/
def perform (t : Table) (op : Operation) : Except Error (Option Bool) × Table :=
  t.performIn .addressable op

/-- Performs operations one after the other. -/
def run (t : Table) : List Operation → List (Except Error (Option Bool)) × Table
  | [] => ([], t)
  | op :: ops =>
      let (answer, t) := t.perform op
      let (answers, t) := t.run ops
      (answer :: answers, t)

/-- All that a walk over a table hands out. -/
def items (t : Table) (scope : Scope) : List Walk.Item :=
  (Walk.drain (m := Id) (.ofState scope true (Cursor.ofTable t))).run

/-- What a table shows of a multimap: how many keys and pairs there are, and what
walks hand out over the keys, over all pairs and over the values of one key. -/
def Reflects (t : Table) (model : Model) : Prop :=
  (∃ keys : List Bytes, keys.Nodup ∧ (∀ key, key ∈ keys ↔ model key ≠ []) ∧
    t.keyCount = keys.length ∧
    t.pairCount = (keys.map fun key => (model key).length).sum ∧
    t.items .keys = keys.map (fun key => .ok { key, value := none }) ∧
    t.items .pairs = keys.flatMap fun key =>
      (model key).map fun value => .ok { key, value := some value }) ∧
  ∀ key, t.items (.valuesOf key) =
    (model key).map fun value => .ok { key, value := some value }

/-! ## One operation -/

/-- A well-formed table with the values of a model, whose buckets are there or can be
allocated. -/
structure Refines (t : Table) (model : Model) : Prop where
  wellFormed : t.WellFormed
  valuesOf_eq : t.contents.valuesOf = model
  initialCapacity_lt : t.tuning.initialCapacity < Memory.limit

variable {t : Table} {model : Model} {key value : Bytes}

theorem putIn_addressable (h : t.tuning.initialCapacity < Memory.limit) :
    (t.putIn .addressable key value).1 = .ok () :=
  putIn_of_ample Memory.ample_addressable (.inr (decide_eq_true h))

/-- The answer of an operation whose flag is known. -/
theorem ok_flag_eq {found : Bool} {p : Prop} [Decidable p] (h : found = true ↔ p) :
    (.ok (some found) : Except Error (Option Bool)) = .ok (some (decide p)) := by
  have hflag : found = decide p := by
    rw [Bool.eq_iff_iff, decide_eq_true_iff]
    exact h
  rw [hflag]

namespace Refines

theorem perform (h : t.Refines model) (op : Operation) :
    (t.perform op).1 = .ok (model.perform op).1 ∧
      (t.perform op).2.Refines (model.perform op).2 := by
  rcases h with ⟨hwf, rfl, hlt⟩
  cases op with
  | put key value =>
      have hok : (t.putIn .addressable key value).1 = .ok () := putIn_addressable hlt
      have hvalues := hwf.valuesOf_putIn .addressable key value
      rw [hok] at hvalues
      refine ⟨?_, hwf.putIn _ key value, hvalues, ?_⟩
      · exact congrArg (fun answer : Except Error Unit => answer.map fun _ => none) hok
      · exact lt_of_eq_of_lt (congrArg Tuning.initialCapacity tuning_putIn) hlt
  | erase key =>
      rcases hwf.erase key with ⟨hwf', hflag, hvalues⟩
      refine ⟨?_, hwf', hvalues, ?_⟩
      · exact ok_flag_eq hflag
      · exact lt_of_eq_of_lt (congrArg Tuning.initialCapacity sameShape_erase.tuning_eq) hlt
  | erasePair key value =>
      rcases hwf.erasePair key value with ⟨hwf', hflag, hvalues⟩
      refine ⟨?_, hwf', hvalues, ?_⟩
      · exact ok_flag_eq hflag
      · exact lt_of_eq_of_lt (congrArg Tuning.initialCapacity sameShape_erasePair.tuning_eq) hlt
  | contains key value =>
      refine ⟨?_, ?_⟩
      · cases value with
        | none => exact ok_flag_eq (hwf.contains_none key)
        | some value => exact ok_flag_eq (hwf.contains_some key value)
      · cases value <;> exact ⟨hwf, rfl, hlt⟩
  | close =>
      exact ⟨rfl, wellFormed_clear, rfl, hlt⟩

theorem run (h : t.Refines model) (ops : List Operation) :
    (t.run ops).1 = (model.run ops).1.map .ok ∧ (t.run ops).2.Refines (model.run ops).2 := by
  induction ops generalizing t model with
  | nil => exact ⟨rfl, h⟩
  | cons op ops ih =>
      rcases h.perform op with ⟨hanswer, hrefines⟩
      rcases ih hrefines with ⟨hanswers, hrefines'⟩
      refine ⟨?_, hrefines'⟩
      rw [Table.run, Model.run, List.map_cons, ← hanswer, ← hanswers]

/-- What a table shows is what the model says. -/
theorem reflects (h : t.Refines model) : t.Reflects model := by
  rcases h with ⟨hwf, rfl, -⟩
  have hitems : ∀ scope, t.items scope = (t.contents.entries true scope).map .ok :=
    fun scope => (ensures_id_iff.1 (hwf.drain scope true) :)
  refine ⟨⟨t.contents.keys, hwf.keys_nodup, ?_, ?_, ?_, ?_, ?_⟩, ?_⟩
  · exact fun key => Contents.mem_keys_iff hwf.values_ne_nil
  · rw [hwf.keyCount_eq_length, Contents.keys, List.length_map]
  · calc t.pairCount
        = t.contents.pairs.length := hwf.pairCount_eq
      _ = (t.contents.keys.map fun key => (t.contents.valuesOf key).length).sum := by
          simp [Contents.pairs_eq hwf.keys_nodup, List.length_flatMap]
  · rw [hitems, Contents.entries, List.map_map]
    rfl
  · rw [hitems, Contents.entries, Contents.pairs_eq hwf.keys_nodup, List.map_flatMap,
      List.map_flatMap]
    simp [Entry.ofPair, Function.comp_def]
  · intro key
    rw [hitems, Contents.entries, List.map_map]
    rfl

end Refines

/-- Every run on a fresh table gets the answers of a run of the model, and then the
table shows what has become of the model. -/
theorem runs_refine {tuning : Tuning} (hvalid : tuning.Valid)
    (hcapacity : tuning.initialCapacity < Memory.limit) (ops : List Operation) :
    ((empty tuning hvalid).run ops).1 = (Model.empty.run ops).1.map .ok ∧
      ((empty tuning hvalid).run ops).2.Reflects (Model.empty.run ops).2 := by
  have hempty : (empty tuning hvalid).Refines Model.empty :=
    ⟨wellFormed_empty tuning hvalid, rfl, hcapacity⟩
  rcases hempty.run ops with ⟨hanswers, hrefines⟩
  exact ⟨hanswers, hrefines.reflects⟩

/-- A run with two keys in one bucket, of which one keeps a value. -/
theorem runs_refine_collision :
    let ops : List Operation := [.put [97] [1], .put [97] [2], .put [105] [3], .erasePair [97] [2],
      .contains [97] (some [2]), .erase [105], .contains [105] none]
    ((empty {} Tuning.valid_default).run ops).1 = [.ok none, .ok none, .ok none, .ok (some true),
      .ok (some false), .ok (some true), .ok (some false)] ∧
    ((empty {} Tuning.valid_default).run ops).2.items (.valuesOf [97]) =
      [.ok { key := [97], value := some [1] }] := by
  intro ops
  rcases runs_refine Tuning.valid_default (by decide) ops with ⟨hanswers, -, hitems⟩
  exact ⟨hanswers.trans rfl, (hitems [97]).trans rfl⟩

end Table

end Multimap.Chained
