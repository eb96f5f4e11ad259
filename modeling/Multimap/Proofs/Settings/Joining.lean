import Multimap.Proofs.Settings.Automaton

/-!
# Joining — texts with a comma between them

A comma takes the search for a setting back to its beginning wherever it is outside of a
value: in a key, behind one, behind `=`, or among bytes that do not fit. So a text without an
error, a comma and another text have the items of the one and then those of the other.

* a pass over two stretches is a pass over each of them (`Automaton.run_append`), and what it
  finds does not depend on where the text begins, but for the offsets in its errors
  (`Automaton.run_shift`);
* every text has settings and then at most one error, of a value that never closes
  (`exists_parsed`);
* a comma keeps the items of two texts apart if the first has no error
  (`items_append_comma`).
-/

namespace Multimap

/-- The error that the same text has `n` bytes further on. -/
def Error.shift (n : Nat) : Error → Error
  | .unterminatedValue key offset => .unterminatedValue key (offset + n)
  | error => error

namespace Settings

/-- A text whose settings these are, and behind them the error, if there is one. -/
structure Parsed (text : Bytes) (settings : List Setting) (failure : Option Error) : Prop where
  items_eq : items text = settings.map .ok ++ failure.toList.map .error
  unterminated : ∀ error ∈ failure, ∃ key quote, error = .unterminatedValue key quote

namespace Automaton

variable {state : State} {offset : Nat} {front back bytes : Bytes}

/-! ## Two stretches -/

/-- The settings that a stretch of a text completes, and the state behind it. -/
def pass (state : State) (offset : Nat) : Bytes → List Setting × State
  | [] => ([], state)
  | b :: rest =>
      let (next, found) := step offset b state
      let (settings, last) := pass next (offset + 1) rest
      (found.toList ++ settings, last)

theorem pass_append : pass state offset (front ++ back) =
    ((pass state offset front).1 ++
        (pass (pass state offset front).2 (offset + front.length) back).1,
      (pass (pass state offset front).2 (offset + front.length) back).2) := by
  induction front generalizing state offset with
  | nil => rfl
  | cons b front ih =>
      rw [List.cons_append, pass, pass, List.length_cons, Nat.add_comm front.length,
        ← Nat.add_assoc]
      dsimp only
      rw [ih, List.append_assoc]

/-- A run goes on behind a stretch from the state that the stretch leads to. -/
theorem run_append : run state offset (front ++ back) =
    (pass state offset front).1.map .ok ++
      run (pass state offset front).2 (offset + front.length) back := by
  induction front generalizing state offset with
  | nil => rfl
  | cons b front ih =>
      rw [List.cons_append, run, pass, List.length_cons, Nat.add_comm front.length, ← Nat.add_assoc]
      rcases step offset b state with ⟨next, found⟩
      cases found with
      | none => exact ih
      | some setting => exact congrArg (.ok setting :: ·) ih

theorem run_eq_pass : run state offset bytes =
    (pass state offset bytes).1.map .ok ++ ending (pass state offset bytes).2 := by
  have happend : run state offset (bytes ++ []) = _ := run_append
  rwa [List.append_nil, run] at happend

/-- The end of a text is an error of a value that does not close, or it is nothing. -/
theorem ending_cases (state : State) :
    ending state = [] ∨ ∃ key quote, ending state = [.error (.unterminatedValue key quote)] := by
  cases state with
  | searching => exact .inl rfl
  | inKey key => exact .inl rfl
  | behindKey key => exact .inl rfl
  | behindEquals key => exact .inl rfl
  | inValue key value quote => exact .inr ⟨_, _, rfl⟩
  | behindBackslash key value quote => exact .inr ⟨_, _, rfl⟩

/-! ## A text further on -/

/-- The same state, of a text that stands `n` bytes further on. -/
def State.shift (n : Nat) : State → State
  | .inValue key value quote => .inValue key value (quote + n)
  | .behindBackslash key value quote => .behindBackslash key value (quote + n)
  | state => state

theorem step_shift (n offset : Nat) (b : UInt8) (state : State) :
    step (offset + n) b (state.shift n) =
      ((step offset b state).1.shift n, (step offset b state).2) := by
  cases state <;> grind [step, State.shift]

theorem ending_shift (n : Nat) (state : State) :
    ending (state.shift n) = (ending state).map (Except.mapError (Error.shift n)) := by
  cases state <;> rfl

/-- A text further on has the same items, but for the offsets in its errors. -/
theorem run_shift (n : Nat) (state : State) (offset : Nat) (bytes : Bytes) :
    run (state.shift n) (offset + n) bytes =
      (run state offset bytes).map (Except.mapError (Error.shift n)) := by
  induction bytes generalizing state offset with
  | nil => exact ending_shift n state
  | cons b bytes ih =>
      rw [run, run, step_shift, Nat.add_right_comm]
      rcases step offset b state with ⟨next, found⟩
      cases found with
      | none => exact ih next (offset + 1)
      | some setting => exact congrArg (.ok setting :: ·) (ih next (offset + 1))

/-! ## A comma -/

/-- Outside of a value a comma takes the search back to its beginning. -/
theorem step_comma (h : ending state = []) (offset : Nat) :
    step offset 0x2C state = (.searching, none) := by
  cases state with
  | searching => rfl
  | inKey key => rfl
  | behindKey key => rfl
  | behindEquals key => rfl
  | inValue key value quote => cases h
  | behindBackslash key value quote => cases h

/-- Behind a comma outside of a value the items are those of the rest, as a text of its own. -/
theorem run_comma (h : ending state = []) (offset : Nat) (back : Bytes) :
    run state offset (0x2C :: back) =
      (run .searching 0 back).map (Except.mapError (Error.shift (offset + 1))) := by
  rw [run, step_comma h, ← run_shift, Nat.zero_add]
  rfl

end Automaton

open Automaton

/-! ## Items -/

/-- Every text has settings, and behind them at most one error. -/
theorem exists_parsed (text : Bytes) : ∃ settings failure, Parsed text settings failure := by
  have hitems : items text = _ := (items_eq_run text).trans run_eq_pass
  rcases ending_cases (pass .searching 0 text).2 with hnone | ⟨key, quote, hsome⟩
  · refine ⟨(pass .searching 0 text).1, none, ?_, nofun⟩
    rw [hitems, hnone]
    rfl
  · refine ⟨(pass .searching 0 text).1, some (.unterminatedValue key quote), ?_, ?_⟩
    · rw [hitems, hsome]
      rfl
    · rintro error ⟨⟩
      exact ⟨key, quote, rfl⟩

section

variable {text : Bytes} {settings settings' : List Setting} {failure failure' : Option Error}

/-- A text without an error has nothing behind its settings. -/
theorem Parsed.failure_eq_none (h : Parsed text settings failure)
    (hfree : ∀ error, .error error ∉ items text) : failure = none := by
  cases failure with
  | none => rfl
  | some error => exact absurd (h.items_eq ▸ by simp) (hfree error)

theorem Parsed.free (h : Parsed text settings none) : ∀ error, .error error ∉ items text := by
  rw [h.items_eq]
  simp

theorem Parsed.settings_eq (h : Parsed text settings failure) :
    settings = (items text).filterMap Except.toOption := by
  rw [h.items_eq, List.filterMap_append, List.filterMap_map]
  cases failure <;> simp [Function.comp_def, Except.toOption]

/-- A text is parsed in one way only. -/
theorem Parsed.unique (h : Parsed text settings failure) (h' : Parsed text settings' failure') :
    settings = settings' ∧ failure = failure' := by
  have hsettings : settings = settings' := h.settings_eq.trans h'.settings_eq.symm
  have hitems := h.items_eq.symm.trans h'.items_eq
  subst hsettings
  refine ⟨rfl, ?_⟩
  have hfailure := List.append_cancel_left hitems
  cases failure <;> cases failure' <;> simp_all

/-- The settings of a text are the same further on, and only its error is not. -/
theorem Parsed.map_shift (h : Parsed text settings failure) (n : Nat) :
    (items text).map (Except.mapError (Error.shift n)) =
      settings.map .ok ++ (failure.map (Error.shift n)).toList.map .error := by
  have hsettings : (Except.mapError (Error.shift n) ∘ .ok : Setting → Item) = .ok := rfl
  rw [h.items_eq, List.map_append, List.map_map, hsettings]
  cases failure <;> rfl

end

/-- A comma keeps the items of two texts apart if the first has no error, whatever key, `=` or
other bytes that first text ends with. -/
theorem items_append_comma {front : Bytes} (h : ∀ error, .error error ∉ items front)
    (back : Bytes) :
    items (front ++ 0x2C :: back) =
      items front ++ (items back).map (Except.mapError (Error.shift (front.length + 1))) := by
  have hfront : items front = _ := (items_eq_run front).trans run_eq_pass
  -- Where there is no error, the first text does not end in a value.
  have hending : ending (pass .searching 0 front).2 = [] := by
    rcases ending_cases (pass .searching 0 front).2 with hnone | ⟨key, quote, hsome⟩
    · exact hnone
    · refine absurd ?_ (h (.unterminatedValue key quote))
      rw [hfront, hsome]
      simp
  rw [hending, List.append_nil] at hfront
  rw [items_eq_run (front ++ _), run_append, run_comma hending, hfront, items_eq_run back,
    Nat.zero_add]

theorem items_ofText_comma {front : String} (h : ∀ error, .error error ∉ items (.ofText front))
    (back : String) :
    items (.ofText (front ++ "," ++ back)) = items (.ofText front) ++
      (items (.ofText back)).map (Except.mapError (Error.shift (front.utf8ByteSize + 1))) := by
  have hcomma : Bytes.ofText (front ++ "," ++ back) =
      Bytes.ofText front ++ 0x2C :: Bytes.ofText back := by
    rw [Bytes.ofText_append, Bytes.ofText_append, List.append_assoc]
    rfl
  rw [hcomma, items_append_comma h, Bytes.length_ofText]

-- The comma takes back a key whose value is still to come.
example : items (.ofText "a='1' b = ,c='2'") =
    [.ok { key := [97], value := [49] }, .ok { key := [99], value := [50] }] := by
  rw [items_eq_run]
  rfl

end Settings

end Multimap
