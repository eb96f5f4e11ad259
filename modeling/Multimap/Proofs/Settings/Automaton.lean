import Multimap.Settings.Automaton
import Multimap.Settings.Parser
import Multimap.Settings.Written

/-!
# Automaton — one pass finds what the parser finds

The parser skips, reads and starts afresh in nested searches. The automaton looks at
every byte once. Both give the same items for every byte string, however malformed.

* what the automaton does over a stretch of bytes: over separators
  (`run_searching_append`), over the bytes of a key (`run_inKey_append`), over the blanks
  in front of a byte that it waits for (`Awaits.run_append`) and over a written value
  (`run_inValue_append`);
* what the searches of the parser have read when they come back
  (`eq_append_of_expect_met`, `exists_written_of_value?`);
* one search is a stretch of the pass (`run_searching`), hence all of them are the pass
  (`items_eq_automaton`).
-/

namespace Multimap.Settings

open Multimap.Text (isBlank)

/-! ## Bytes of one kind -/

theorem isKeyByte_of_isSeparator {b : UInt8} (h : isSeparator b = true) : isKeyByte b = false := by
  revert h
  simp only [isSeparator, isBlank, isKeyByte]
  grind

theorem isKeyByte_of_isBlank {b : UInt8} (h : isBlank b = true) : isKeyByte b = false :=
  isKeyByte_of_isSeparator (by simp [isSeparator, h])

theorem ne_of_isBlank {b : UInt8} (h : isBlank b = true) : b ≠ 0x3D ∧ b ≠ 0x27 := by
  constructor
  · rintro rfl
    exact absurd h (by decide)
  · rintro rfl
    exact absurd h (by decide)

namespace Automaton

variable {state waiting : State} {found : Nat → State} {wanted : UInt8} {quote : Nat}
  {key more value gap text rest bytes : Bytes} (offset : Nat)

/-! ## Stretches of a pass -/

/-- Bytes that leave the state alone only move the offset. -/
theorem run_append_of_stays (h : ∀ b ∈ gap, ∀ offset, step offset b state = (state, none)) :
    run state offset (gap ++ rest) = run state (offset + gap.length) rest := by
  induction gap generalizing offset with
  | nil => rfl
  | cons b gap ih =>
      have hstep : step offset b state = (state, none) := h b (by simp) offset
      have hgap := ih (offset + 1) fun b hb => h b (List.mem_cons_of_mem _ hb)
      rw [List.cons_append, run, hstep]
      simpa [Nat.add_assoc, Nat.add_comm 1] using hgap

theorem run_searching_append (h : ∀ b ∈ gap, isSeparator b) :
    run .searching offset (gap ++ rest) = run .searching (offset + gap.length) rest := by
  apply run_append_of_stays
  intro b hb _
  simp [step, isKeyByte_of_isSeparator (h b hb)]

/-- A key takes in the bytes of a key. -/
theorem run_inKey_append (key : Bytes) (h : ∀ b ∈ more, isKeyByte b) :
    run (.inKey key) offset (more ++ rest) =
      run (.inKey (key ++ more)) (offset + more.length) rest := by
  induction more generalizing key offset with
  | nil => simp
  | cons b more ih =>
      have hstep : step offset b (.inKey key) = (.inKey (key ++ [b]), none) := by
        simp [step, h b (by simp)]
      have hmore := ih (offset + 1) (key ++ [b]) fun b hb => h b (List.mem_cons_of_mem _ hb)
      rw [List.cons_append, run, hstep]
      simpa [Nat.add_assoc, Nat.add_comm 1] using hmore

/-- Where no byte of a key follows, it is all the same whether a blank has. -/
theorem run_inKey_eq_behindKey (h : ∀ b ∈ bytes.head?, isKeyByte b = false) :
    run (.inKey key) offset bytes = run (.behindKey key) offset bytes := by
  cases bytes with
  | nil => rfl
  | cons b rest =>
      have hstep : step offset b (.inKey key) = step offset b (.behindKey key) := by
        simp [step, h b rfl]
      rw [run, run, hstep]

/-- A value takes in what is written for a value. -/
theorem run_inValue_append (seen : Bytes) (h : WrittenValue value text) :
    run (.inValue key seen quote) offset (text ++ rest) =
      run (.inValue key (seen ++ value) quote) (offset + text.length) rest := by
  induction h generalizing seen offset with
  | nil => simp
  | @plain b value text hquote hbackslash _ ih =>
      have hstep : step offset b (.inValue key seen quote) =
          (.inValue key (seen ++ [b]) quote, none) := by
        simp [step, hquote, hbackslash]
      rw [List.cons_append, run, hstep]
      simpa [Nat.add_assoc, Nat.add_comm 1] using ih (offset + 1) (seen ++ [b])
  | @escaped b value text _ ih =>
      have hescape : run (.inValue key seen quote) offset (0x5C :: b :: text ++ rest) =
          run (.inValue key (seen ++ [b]) quote) (offset + 2) (text ++ rest) := rfl
      rw [hescape]
      simpa [Nat.add_assoc, Nat.add_comm 2] using ih (offset + 2) (seen ++ [b])

/-- The closing quote completes a setting. -/
theorem run_inValue_quote (seen : Bytes) :
    run (.inValue key seen quote) offset (0x27 :: rest) =
      .ok { key, value := seen } :: run .searching (offset + 1) rest :=
  rfl

/-- A state that blanks leave alone until the wanted byte comes. Any other byte takes the
search back to its beginning. -/
structure Awaits (waiting : State) (wanted : UInt8) (found : Nat → State) : Prop where
  blank : ∀ b offset, isBlank b → step offset b waiting = (waiting, none)
  met : ∀ offset, step offset wanted waiting = (found offset, none)
  missed : ∀ b offset, isBlank b = false → b ≠ wanted →
    step offset b waiting = (.searching, none)
  ended : ending waiting = []

theorem awaits_behindKey (key : Bytes) :
    Awaits (.behindKey key) 0x3D fun _ => .behindEquals key where
  blank b offset hb := by simp [step, hb, (ne_of_isBlank hb).1]
  met offset := rfl
  missed b offset hblank hb := by simp [step, hblank, hb]
  ended := rfl

theorem awaits_behindEquals (key : Bytes) : Awaits (.behindEquals key) 0x27 (.inValue key []) where
  blank b offset hb := by simp [step, hb, (ne_of_isBlank hb).2]
  met offset := rfl
  missed b offset hblank hb := by simp [step, hblank, hb]
  ended := rfl

theorem Awaits.run_append (h : Awaits waiting wanted found) (hgap : ∀ b ∈ gap, isBlank b) :
    run waiting offset (gap ++ rest) = run waiting (offset + gap.length) rest :=
  run_append_of_stays offset fun b hb offset => h.blank b offset (hgap b hb)

theorem Awaits.run_met (h : Awaits waiting wanted found) :
    run waiting offset (wanted :: rest) = run (found offset) (offset + 1) rest := by
  rw [run, h.met]

theorem Awaits.run_missed (h : Awaits waiting wanted found) {b : UInt8}
    (hblank : isBlank b = false) (hb : b ≠ wanted) :
    run waiting offset (b :: rest) = run .searching (offset + 1) rest := by
  rw [run, h.missed b offset hblank hb]

end Automaton

/-! ## What the searches have read -/

section Searches

variable {wanted : UInt8} {bytes rest value left : Bytes}

/-- What comes first is blank. -/
theorem exists_blanks (bytes : Bytes) :
    ∃ gap, (∀ b ∈ gap, isBlank b) ∧ bytes = gap ++ bytes.dropWhile isBlank := by
  have hall : ∀ b ∈ bytes.takeWhile isBlank, isBlank b :=
    List.all_eq_true.1 List.all_takeWhile
  exact ⟨_, hall, List.takeWhile_append_dropWhile.symm⟩

theorem eq_append_of_expect_met (h : expect wanted bytes = .met rest) :
    ∃ gap, (∀ b ∈ gap, isBlank b) ∧ bytes = gap ++ wanted :: rest := by
  obtain ⟨gap, hgap, hbytes⟩ := exists_blanks bytes
  refine ⟨gap, hgap, ?_⟩
  rw [expect] at h
  split at h
  · cases h
  · next b left hdrop =>
      split at h
      · next hb =>
          cases h
          rwa [hdrop, hb] at hbytes
      · cases h

theorem eq_append_of_expect_missed (h : expect wanted bytes = .missed rest) :
    ∃ gap b, (∀ b ∈ gap, isBlank b) ∧ isBlank b = false ∧ b ≠ wanted ∧
      bytes = gap ++ b :: rest := by
  obtain ⟨gap, hgap, hbytes⟩ := exists_blanks bytes
  rw [expect] at h
  split at h
  · cases h
  · next b left hdrop =>
      split at h
      · cases h
      · next hb =>
          cases h
          have hblank : isBlank b = false := by
            have hhead := List.head?_dropWhile_not isBlank bytes
            rw [hdrop] at hhead
            simpa using hhead
          exact ⟨gap, b, hgap, hblank, hb, hdrop ▸ hbytes⟩

theorem forall_isBlank_of_expect_ended (h : expect wanted bytes = .ended) :
    ∀ b ∈ bytes, isBlank b := by
  rw [expect] at h
  split at h
  · next hdrop =>
      intro b hb
      obtain ⟨gap, hgap, hbytes⟩ := exists_blanks bytes
      rw [hdrop, List.append_nil] at hbytes
      exact hgap b (hbytes ▸ hb)
  · split at h <;> cases h

/-- The bytes in front of the closing quote are written for the value. -/
theorem exists_written_of_value? (h : value? bytes = some (value, left)) :
    ∃ text, WrittenValue value text ∧ bytes = text ++ 0x27 :: left := by
  fun_induction value? bytes generalizing value with
  | case1 => cases h
  | case2 =>
      cases h
      exact ⟨[], .nil, rfl⟩
  | case3 => cases h
  | case4 c rest ih =>
      obtain ⟨⟨inner, behind⟩, hinner, heq⟩ := Option.map_eq_some_iff.1 h
      cases heq
      obtain ⟨text, hwritten, hrest⟩ := ih hinner
      exact ⟨0x5C :: c :: text, .escaped hwritten, by simp [hrest]⟩
  | case5 c rest =>
      cases h
      exact ⟨[], .nil, rfl⟩
  | case6 b c rest hbackslash hquote ih =>
      obtain ⟨⟨inner, behind⟩, hinner, heq⟩ := Option.map_eq_some_iff.1 h
      cases heq
      obtain ⟨text, hwritten, hrest⟩ := ih hinner
      exact ⟨b :: text, .plain hquote hbackslash hwritten, by simp [hrest]⟩

end Searches

/-! ## Searches as stretches of the pass -/

namespace Automaton

variable {waiting : State} {found : Nat → State} {wanted : UInt8} {offset size quote : Nat}
  {key seen bytes : Bytes}

/-- A value that never closes is still open at the end. -/
theorem run_inValue_of_value?_eq_none (h : value? bytes = none) :
    run (.inValue key seen quote) offset bytes =
      [.error (.unterminatedValue (Text.Utf8.lossy key) quote)] := by
  fun_induction value? bytes generalizing seen offset with
  | case1 => rfl
  | case2 => cases h
  | case3 b hquote =>
      by_cases hbackslash : b = 0x5C
      · simp [run, step, hbackslash, ending]
      · simp [run, step, hbackslash, hquote, ending]
  | case4 c rest ih =>
      have hescape : run (.inValue key seen quote) offset (0x5C :: c :: rest) =
          run (.inValue key (seen ++ [c]) quote) (offset + 2) rest := rfl
      exact hescape.trans (ih (Option.map_eq_none_iff.1 h))
  | case5 => cases h
  | case6 b c rest hbackslash hquote ih =>
      have hstep : step offset b (.inValue key seen quote) =
          (.inValue key (seen ++ [b]) quote, none) := by
        simp [step, hquote, hbackslash]
      rw [run, hstep]
      exact ih (Option.map_eq_none_iff.1 h)

/-- The search for the wanted byte, in a text of `size` bytes. -/
theorem Awaits.run_expect (hawaits : Awaits waiting wanted found)
    (h : offset + bytes.length = size) :
    run waiting offset bytes =
      match expect wanted bytes with
      | .met rest => run (found (size - (rest.length + 1))) (size - rest.length) rest
      | .missed rest => run .searching (size - rest.length) rest
      | .ended => [] := by
  cases hexpect : expect wanted bytes with
  | met rest =>
      obtain ⟨gap, hgap, rfl⟩ := eq_append_of_expect_met hexpect
      rw [List.length_append, List.length_cons] at h
      have hfound : size - (rest.length + 1) = offset + gap.length := by omega
      have hoffset : size - rest.length = offset + gap.length + 1 := by omega
      dsimp only
      rw [hawaits.run_append offset hgap, hawaits.run_met, hfound, hoffset]
  | missed rest =>
      obtain ⟨gap, b, hgap, hblank, hb, rfl⟩ := eq_append_of_expect_missed hexpect
      rw [List.length_append, List.length_cons] at h
      have hoffset : size - rest.length = offset + gap.length + 1 := by omega
      dsimp only
      rw [hawaits.run_append offset hgap, hawaits.run_missed _ hblank hb, hoffset]
  | ended =>
      calc run waiting offset bytes
          = run waiting offset (bytes ++ []) := by rw [List.append_nil]
        _ = run waiting (offset + bytes.length) [] :=
            hawaits.run_append offset (forall_isBlank_of_expect_ended hexpect)
        _ = [] := by rw [run, hawaits.ended]

/-- The searches for `=` and for the opening quote, one after the other. -/
theorem run_behindKey (h : offset + bytes.length = size) :
    run (.behindKey key) offset bytes =
      match expectQuote bytes with
      | .met body => run (.inValue key [] (size - (body.length + 1))) (size - body.length) body
      | .missed rest => run .searching (size - rest.length) rest
      | .ended => [] := by
  rw [(awaits_behindKey key).run_expect h, expectQuote]
  cases hexpect : expect 0x3D bytes with
  | met rest =>
      have hlt : rest.length < bytes.length := expect_length_lt (.inl hexpect)
      exact (awaits_behindEquals key).run_expect (by omega)
  | missed rest => rfl
  | ended => rfl

/-- Separators and one byte behind them. -/
theorem run_searching_dropWhile {b : UInt8} {rest : Bytes} (h : offset + bytes.length = size)
    (hstart : bytes.dropWhile isSeparator = b :: rest) :
    run .searching offset bytes = run .searching (size - (rest.length + 1)) (b :: rest) := by
  have hgap : ∀ b ∈ bytes.takeWhile isSeparator, isSeparator b :=
    List.all_eq_true.1 List.all_takeWhile
  have hsplit := List.takeWhile_append_dropWhile (p := isSeparator) (l := bytes)
  rw [hstart] at hsplit
  rw [← hsplit, List.length_append, List.length_cons] at h
  have hoffset : size - (rest.length + 1) = offset + (bytes.takeWhile isSeparator).length := by
    omega
  rw [hoffset, ← run_searching_append offset hgap, hsplit]

/-- A key behind separators, and the searches behind it. -/
theorem run_searching_key {b : UInt8} {rest : Bytes} (h : offset + bytes.length = size)
    (hstart : bytes.dropWhile isSeparator = b :: rest) (hkey : isKeyByte b) :
    run .searching offset bytes =
      match expectQuote (rest.dropWhile isKeyByte) with
      | .met body => run (.inValue (b :: rest.takeWhile isKeyByte) [] (size - (body.length + 1)))
          (size - body.length) body
      | .missed left => run .searching (size - left.length) left
      | .ended => [] := by
  have hmore : ∀ b ∈ rest.takeWhile isKeyByte, isKeyByte b :=
    List.all_eq_true.1 List.all_takeWhile
  have hbehind : ∀ b ∈ (rest.dropWhile isKeyByte).head?, isKeyByte b = false := by
    intro b hb
    have hhead := List.head?_dropWhile_not isKeyByte rest
    rw [Option.mem_def.1 hb] at hhead
    simpa using hhead
  have hlt := length_lt_of_dropWhile_eq_cons hstart
  have hstep : step (size - (rest.length + 1)) b .searching = (.inKey [b], none) := by
    simp [step, hkey]
  have hoffset : size - (rest.length + 1) + 1 = size - rest.length := by omega
  have hsplit := List.takeWhile_append_dropWhile (p := isKeyByte) (l := rest)
  have hlength := congrArg List.length hsplit
  rw [List.length_append] at hlength
  calc run .searching offset bytes
      = run .searching (size - (rest.length + 1)) (b :: rest) := run_searching_dropWhile h hstart
    _ = run (.inKey [b]) (size - rest.length)
          (rest.takeWhile isKeyByte ++ rest.dropWhile isKeyByte) := by
        rw [hsplit, run, hstep, hoffset]
    _ = run (.inKey (b :: rest.takeWhile isKeyByte))
          (size - rest.length + (rest.takeWhile isKeyByte).length) (rest.dropWhile isKeyByte) :=
        run_inKey_append _ _ hmore
    _ = run (.behindKey (b :: rest.takeWhile isKeyByte))
          (size - rest.length + (rest.takeWhile isKeyByte).length) (rest.dropWhile isKeyByte) :=
        run_inKey_eq_behindKey _ hbehind
    _ = _ := run_behindKey (by omega)

/-- One search for a setting is a stretch of the pass. -/
theorem run_searching (h : offset + bytes.length = size) :
    run .searching offset bytes =
      match scan bytes with
      | .setting found rest => .ok found :: run .searching (size - rest.length) rest
      | .unterminated key body =>
          [.error (.unterminatedValue (Text.Utf8.lossy key) (size - (body.length + 1)))]
      | .nothing => [] := by
  fun_induction scan bytes generalizing offset with
  | case1 bytes hstart =>
      have hgap : ∀ b ∈ bytes.takeWhile isSeparator, isSeparator b :=
        List.all_eq_true.1 List.all_takeWhile
      have hsplit := List.takeWhile_append_dropWhile (p := isSeparator) (l := bytes)
      rw [hstart] at hsplit
      calc run .searching offset bytes
          = run .searching offset (bytes.takeWhile isSeparator ++ []) := by rw [hsplit]
        _ = [] := run_searching_append offset hgap
  | case2 bytes b rest hstart hkey hquote =>
      rw [run_searching_key h hstart hkey, hquote]
  | case3 bytes b rest hstart hkey left hquote ih =>
      have hlt := length_lt_of_dropWhile_eq_cons hstart
      have hquotelt := expectQuote_length_lt (.inr hquote)
      have hrest := length_dropWhile_le isKeyByte rest
      rw [run_searching_key h hstart hkey, hquote]
      exact ih (by omega)
  | case4 bytes b rest hstart hkey body hquote =>
      rename_i value left hvalue
      have hlt := length_lt_of_dropWhile_eq_cons hstart
      have hquotelt := expectQuote_length_lt (.inl hquote)
      have hrest := length_dropWhile_le isKeyByte rest
      obtain ⟨text, hwritten, rfl⟩ := exists_written_of_value? hvalue
      rw [List.length_append, List.length_cons] at hquotelt
      have hoffset :
          size - (text ++ 0x27 :: left).length + text.length + 1 = size - left.length := by
        rw [List.length_append, List.length_cons]
        omega
      rw [run_searching_key h hstart hkey, hquote]
      dsimp only
      rw [run_inValue_append _ _ hwritten, run_inValue_quote, hoffset, List.nil_append]
  | case5 bytes b rest hstart hkey body hquote =>
      rename_i hvalue
      rw [run_searching_key h hstart hkey, hquote]
      exact run_inValue_of_value?_eq_none hvalue
  | case6 bytes b rest hstart hkey ih =>
      have hlt := length_lt_of_dropWhile_eq_cons hstart
      have hstep : step (size - (rest.length + 1)) b .searching = (.searching, none) := by
        simp [step, hkey]
      have hoffset : size - (rest.length + 1) + 1 = size - rest.length := by omega
      rw [run_searching_dropWhile h hstart, run, hstep, hoffset]
      exact ih (by omega)

end Automaton

/-! ## All items -/

namespace Parser

variable {p p' : Parser} {item : Item}

theorem drain_of_next_some (h : p.next = (some item, p')) : p.drain.1 = item :: p'.drain.1 := by
  rw [drain]
  split
  · next found hfound =>
      rw [h] at hfound ⊢
      cases hfound
      rfl
  · next hnone =>
      rw [h] at hnone
      cases hnone

theorem drain_of_next_none (h : p.next = (none, p')) : p.drain = ([], p') := by
  rw [drain]
  split
  · next found hfound =>
      rw [h] at hfound
      cases hfound
  · rw [h]

/-- What is left for a parser of `size` bytes is what the pass gives from there on. -/
theorem drain_eq_run (size : Nat) (rest : Bytes) (hrest : rest.length ≤ size) :
    (Parser.mk size rest false).drain.1 =
      Automaton.run .searching (size - rest.length) rest := by
  rw [Automaton.run_searching (Nat.sub_add_cancel hrest)]
  cases hscan : scan rest with
  | setting found left =>
      have hnext : (Parser.mk size rest false).next =
          (some (.ok found), Parser.mk size left false) := by
        simp [next, hscan]
      have hlt : left.length < rest.length := scan_length_lt hscan
      have hleft := drain_eq_run size left (by omega)
      rw [drain_of_next_some hnext, hleft]
  | unterminated key body =>
      have hnext : (Parser.mk size rest false).next =
          (some (.error (.unterminatedValue (Text.Utf8.lossy key) (size - (body.length + 1)))),
            Parser.mk size rest true) := by
        simp [next, hscan, unterminated]
      -- The error is the last item.
      rw [drain_of_next_some hnext, drain_of_next_none rfl]
  | nothing =>
      have hnext : (Parser.mk size rest false).next = (none, Parser.mk size rest true) := by
        simp [next, hscan]
      rw [drain_of_next_none hnext]
termination_by rest.length

theorem finished_of_next (h : p.next.1 = none) : p.next.2.finished = true := by
  rw [next] at h ⊢
  by_cases hfinished : p.finished = true
  · rwa [if_pos hfinished]
  · rw [if_neg hfinished] at h ⊢
    cases hscan : scan p.rest with
    | setting found rest => simp [hscan] at h
    | unterminated key body => simp [hscan] at h
    | nothing => rfl

/-- A parser that has handed out all its items is at its end for good. -/
theorem next_drain (p : Parser) : p.drain.2.next = (none, p.drain.2) := by
  fun_induction drain p with
  | case1 p item hnext items final hdrain ih =>
      rwa [hdrain] at ih
  | case2 p hnext =>
      have hfinished : p.next.2.finished = true := finished_of_next hnext
      rw [next, if_pos hfinished]

end Parser

theorem items_eq_run (text : Bytes) : items text = Automaton.run .searching 0 text := by
  have hdrain := Parser.drain_eq_run text.length text (Nat.le_refl _)
  rwa [Nat.sub_self] at hdrain

/-- The items of a text are those of one pass over its bytes, and behind them there is
nothing more. -/
theorem items_eq_automaton (text : Bytes) :
    items text = Automaton.items text ∧
      (Parser.ofBytes text).drain.2.next = (none, (Parser.ofBytes text).drain.2) :=
  ⟨items_eq_run text, Parser.next_drain _⟩

-- A byte that does not fit takes the key with it, even if it could begin another key.
example : Automaton.items (.ofText "a b='1', c='\\''") = [.ok { key := [99], value := [39] }] := by
  rfl

end Multimap.Settings
