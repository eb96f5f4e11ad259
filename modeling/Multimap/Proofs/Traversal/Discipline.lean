import Multimap.Proofs.Traversal.Enumeration

/-!
# Discipline — how a walk treats any cursor

Whatever a cursor answers, errors and contradictions included, and however the calls for
the end and for the next item follow each other: a walk hands out entries, then possibly
one error, and then nothing any more, and its cursor is released once and left alone from
then on.

* `Log` is the monad of calls that leave a trace, in which every cursor without effects
  of its own is observed;
* `Accounted` says how far a walk is and what its cursor has seen until then: reading in
  advance keeps it (`Accounted.peek`), and so do all calls (`Accounted.replies`);
* asking for the end changes nothing about the items (`results_replies`);
* hence every walk is disciplined from its beginning to its being given up
  (`walks_disciplined`).
-/

namespace Multimap.Traversal

/-! ## Traces -/

/-- What reaches a cursor: a request, which it answers, or its release. -/
inductive Event where
  | get (request : Request) (wantValue : Bool) (answer : Except Error (Option Entry))
  | finish

/-- Calls that leave a trace. -/
abbrev Log := StateM (List Event)

instance {κ : Type} [CursorState Id κ] : CursorState Log κ where
  get request wantValue := ExceptT.mk fun state => do
    let (answer, state) := ((CursorState.get (m := Id) request wantValue).run state).run
    modify (· ++ [.get request wantValue answer])
    return (answer, state)
  finish state := do
    modify (· ++ [.finish])
    return (CursorState.finish (m := Id) state).run
  extent := CursorState.extent (m := Id)

/-- The item that an answer gives. -/
def Event.item? (wantValues : Bool) : Event → Option Walk.Item
  | .get _ _ (.ok found) => found.map fun entry => .ok (entry.wanted wantValues)
  | .get _ _ (.error error) => some (.error error)
  | .finish => none

/-- Requests that are all made with the same wish for values. -/
def Gets (wantValues : Bool) (events : List Event) : Prop :=
  ∀ event ∈ events, ∃ request answer, event = .get request wantValues answer

theorem gets_nil (wantValues : Bool) : Gets wantValues [] :=
  fun _ hevent => absurd hevent List.not_mem_nil

theorem gets_singleton (wantValues : Bool) (request : Request)
    (answer : Except Error (Option Entry)) : Gets wantValues [.get request wantValues answer] :=
  fun _ hevent => ⟨request, answer, List.mem_singleton.1 hevent⟩

theorem Gets.append {wantValues : Bool} {events events' : List Event} (h : Gets wantValues events)
    (h' : Gets wantValues events') : Gets wantValues (events ++ events') :=
  fun event hevent => (List.mem_append.1 hevent).elim (h event) (h' event)

/-- The results of the calls for the next item. -/
def resultsOf (replies : List Reply) : List (Option Walk.Item) :=
  replies.filterMap fun
    | .atEnd _ => none
    | .next result => some result

/-- There are entries, then at most one error, and then nothing any more. -/
def Orderly (results : List (Option Walk.Item)) : Prop :=
  ∃ (entries : List Entry) (failure : Option Error) (count : Nat),
    results = entries.map (some ∘ .ok) ++ failure.toList.map (some ∘ .error) ++
      List.replicate count none

/-- The last request was not answered with an entry, and the cursor was released then. -/
def Exhausted (events : List Event) : Prop :=
  ∃ before request wantValue answer, events = before ++ [.get request wantValue answer, .finish] ∧
    ∀ entry, answer ≠ .ok (some entry)

/-- The replies of a walk over a cursor until it is given up, and the trace that the walk
leaves. -/
def session {κ : Type} [CursorState Id κ] (scope : Scope) (wantValues : Bool) (state : κ)
    (asks : List Ask) : List Reply × List Event :=
  let walk : Log (List Reply) := do
    let (replies, w) ← Walk.replies asks (.ofState scope wantValues state)
    w.discard
    return replies
  (walk.run []).run

/-! ## What has been read in advance -/

namespace Ahead

/-- The next item, where it is known. -/
def item? : Ahead → Option Walk.Item
  | .entry found => some (.ok found)
  | .failure error => some (.error error)
  | .nothing | .unread => none

/-- What is known once the next item has been handed out. -/
def behind : Ahead → Ahead
  | .entry _ => .unread
  | .failure _ | .nothing | .unread => .nothing

/-- Whether the cursor has nothing more to say. -/
def ends : Ahead → Bool
  | .failure _ | .nothing => true
  | .entry _ | .unread => false

theorem ofAnswer_ne_unread (wantValues : Bool) (answer : Except Error (Option Entry)) :
    ofAnswer wantValues answer ≠ .unread := by
  cases answer with
  | error error => exact Ahead.noConfusion
  | ok found => cases found <;> exact Ahead.noConfusion

/-- The item of an answer is the next item. -/
theorem filterMap_get (request : Request) (wantValues : Bool)
    (answer : Except Error (Option Entry)) :
    [.get request wantValues answer].filterMap (Event.item? wantValues) =
      (ofAnswer wantValues answer).item?.toList := by
  cases answer with
  | error error => rfl
  | ok found => cases found <;> rfl

theorem answer_ne_of_ends {wantValues : Bool} {answer : Except Error (Option Entry)}
    (h : (ofAnswer wantValues answer).ends = true) (entry : Entry) :
    answer ≠ .ok (some entry) := by
  rintro rfl
  exact Bool.false_ne_true h

end Ahead

namespace Walk

variable {m : Type → Type} {κ : Type} [Monad m] [LawfulMonad m] [CursorState m κ] {w : Walk κ}

omit [LawfulMonad m] in
theorem peek_of_read (h : w.ahead ≠ .unread) : w.peek (m := m) = pure w := by
  rw [peek]
  cases hahead : w.ahead with
  | unread => exact absurd hahead h
  | _ => rfl

/-- What becomes of a walk once an answer has said what the next item is. -/
def settle (w : Walk κ) : Ahead → m (Walk κ)
  | .entry found => return { w with ahead := .entry found }
  | ahead => do
      let cursor ← w.cursor.finish
      return { w with cursor, ahead }

omit [LawfulMonad m] in
theorem settle_of_ends {ahead : Ahead} (h : ahead.ends = true) :
    w.settle (m := m) ahead =
      w.cursor.finish >>= fun cursor => pure { w with cursor, ahead } := by
  cases ahead with
  | unread => cases h
  | entry found => cases h
  | _ => rfl

omit [LawfulMonad m] in
theorem peek_of_unread (h : w.ahead = .unread) :
    w.peek (m := m) = readOn.run w >>= fun (answer, w') =>
      w'.settle (Ahead.ofAnswer w'.wantValues answer) := by
  rw [peek, h]
  rfl

theorem ensures_settle {ahead : Ahead} (h : ahead ≠ .unread) (w : Walk κ) :
    Ensures (w.settle (m := m) ahead) fun w' => w'.ahead ≠ .unread := by
  cases ahead with
  | unread => exact absurd rfl h
  | entry found => exact Ensures.pure Ahead.noConfusion
  | failure error => exact (ensures_true _).bind fun _ _ => Ensures.pure Ahead.noConfusion
  | nothing => exact (ensures_true _).bind fun _ _ => Ensures.pure Ahead.noConfusion

theorem ensures_read (w : Walk κ) : Ensures (w.peek (m := m)) fun w' => w'.ahead ≠ .unread := by
  by_cases hread : w.ahead = .unread
  · rw [peek_of_unread hread]
    apply (ensures_true _).bind
    rintro ⟨answer, w'⟩ -
    exact ensures_settle (Ahead.ofAnswer_ne_unread _ answer) w'
  · rw [peek_of_read hread]
    exact Ensures.pure hread

/-- The reply of a walk that has read in advance, and what the walk is then. -/
def answered (w : Walk κ) : Ask → Reply × Walk κ
  | .atEnd => (.atEnd w.ahead.item?.isNone, w)
  | .next => (.next w.ahead.item?, { w with ahead := w.ahead.behind })

theorem reply_of_read (h : w.ahead ≠ .unread) (ask : Ask) :
    w.reply (m := m) ask = pure (w.answered ask) := by
  cases ask with
  | atEnd =>
      rw [reply, atEnd, peek_of_read h, pure_bind, pure_bind, answered]
      cases hahead : w.ahead with
      | unread => exact absurd hahead h
      | _ => rfl
  | next =>
      rw [reply, next, peek_of_read h, pure_bind, pure_bind, answered]
      cases hahead : w.ahead with
      | unread => exact absurd hahead h
      | _ => rfl

/-- Every call begins with reading in advance. -/
theorem reply_eq_bind (ask : Ask) :
    ∃ rest : Walk κ → m (Reply × Walk κ), ∀ w : Walk κ, w.reply ask = w.peek >>= rest := by
  cases ask with
  | atEnd => exact ⟨_, fun w => bind_assoc w.peek _ _⟩
  | next => exact ⟨_, fun w => bind_assoc w.peek _ _⟩

/-- After reading in advance, the next item is the same, and so is the end. -/
theorem peek_bind_reply (w : Walk κ) (ask : Ask) :
    (w.peek (m := m) >>= fun w' => w'.reply ask) = w.reply ask := by
  obtain ⟨rest, hrest⟩ := reply_eq_bind (m := m) (κ := κ) ask
  calc (w.peek (m := m) >>= fun w' => w'.reply ask)
      = w.peek >>= rest := by
        refine (ensures_read w).bind_congr fun w' hread => ?_
        rw [hrest, peek_of_read hread, pure_bind]
    _ = w.reply ask := (hrest w).symm

theorem replies_append (asks asks' : List Ask) (w : Walk κ) :
    replies (m := m) (asks ++ asks') w =
      replies asks w >>= fun (answers, w') => replies asks' w' >>= fun (answers', w'') =>
        pure (answers ++ answers', w'') := by
  induction asks generalizing w with
  | nil =>
      rw [List.nil_append, replies, pure_bind]
      exact (bind_pure _).symm
  | cons ask asks ih =>
      rw [List.cons_append, replies, replies, bind_assoc]
      refine bind_congr fun (answer, w') => ?_
      dsimp only
      rw [ih, bind_assoc, bind_assoc]
      refine bind_congr fun (answers, w'') => ?_
      dsimp only
      rw [bind_assoc, pure_bind]
      refine bind_congr fun (answers', last) => ?_
      dsimp only
      rw [pure_bind]
      rfl

end Walk

section Steps

variable {κ : Type} {w w' : Walk κ} {log log' : List Event} {wantValues : Bool}
  {results : List (Option Walk.Item)}

/-! ## How far a walk is -/

/-- How far a walk is that has given some results, and that what its cursor has seen
accounts for them. -/
structure Accounted (wantValues : Bool) (w : Walk κ) (log : List Event)
    (results : List (Option Walk.Item)) : Prop where
  wantValues_eq : w.wantValues = wantValues
  finished_eq : w.cursor.finished = w.ahead.ends
  /-- The cursor is left alone once it has been released. -/
  gets : ∃ gets, Gets wantValues gets ∧
    log = gets ++ if w.cursor.finished then [.finish] else []
  /-- Each item that the cursor has given was a result, or is the next one. -/
  items_eq : log.filterMap (Event.item? wantValues) =
    results.filterMap id ++ w.ahead.item?.toList
  exhausted : w.ahead.ends = true → Exhausted log
  running : w.ahead ≠ .nothing → ∃ entries : List Entry, results = entries.map (some ∘ .ok)
  ended : w.ahead = .nothing → Orderly results

theorem accounted_ofState (scope : Scope) (wantValues : Bool) (state : κ) :
    Accounted (wantValues && scope != .keys) (.ofState scope wantValues state) [] [] where
  wantValues_eq := rfl
  finished_eq := rfl
  gets := ⟨[], gets_nil _, rfl⟩
  items_eq := rfl
  exhausted hends := absurd hends Bool.false_ne_true
  running _ := ⟨[], rfl⟩
  ended hahead := Ahead.noConfusion hahead

theorem orderly_entries (entries : List Entry) : Orderly (entries.map (some ∘ .ok)) :=
  ⟨entries, none, 0, by simp⟩

theorem Accounted.orderly (h : Accounted wantValues w log results) : Orderly results := by
  by_cases hahead : w.ahead = .nothing
  · exact h.ended hahead
  · obtain ⟨entries, rfl⟩ := h.running hahead
    exact orderly_entries entries

/-- Only a walk that has come to its end has no item. -/
theorem Accounted.exhausted_of_none_mem (h : Accounted wantValues w log results)
    (hnone : none ∈ results) :
    Exhausted (log ++ if w.cursor.finished then [] else [.finish]) := by
  have hahead : w.ahead = .nothing := by
    by_contra hne
    obtain ⟨entries, rfl⟩ := h.running hne
    obtain ⟨entry, -, heq⟩ := List.mem_map.1 hnone
    cases heq
  have hends : w.ahead.ends = true := hahead ▸ rfl
  rw [h.finished_eq, if_pos hends, List.append_nil]
  exact h.exhausted hends

/-- Giving the walk up gives no further items. -/
theorem Accounted.items_completed (h : Accounted wantValues w log results) :
    (log ++ if w.cursor.finished then [] else [Event.finish]).filterMap (Event.item? wantValues) =
      results.filterMap id ++ w.ahead.item?.toList := by
  rw [List.filterMap_append, h.items_eq]
  cases w.cursor.finished <;> exact List.append_nil _

/-- Giving the walk up completes what its cursor sees. -/
theorem Accounted.completed (h : Accounted wantValues w log results) :
    ∃ gets, Gets wantValues gets ∧
      (log ++ if w.cursor.finished then [] else [.finish]) = gets ++ [.finish] := by
  obtain ⟨gets, hgets, hlog⟩ := h.gets
  refine ⟨gets, hgets, ?_⟩
  rw [hlog]
  cases w.cursor.finished <;> simp

/-- What was handed out came from the cursor, without values that were not wanted. -/
theorem Accounted.value_eq_none (h : Accounted false w log results) {entry : Entry}
    (hmem : some (.ok entry) ∈ results) : entry.value = none := by
  have hitem : Except.ok entry ∈ log.filterMap (Event.item? false) := by
    rw [h.items_eq]
    exact List.mem_append_left _ (List.mem_filterMap.2 ⟨_, hmem, rfl⟩)
  obtain ⟨event, -, hevent⟩ := List.mem_filterMap.1 hitem
  cases event with
  | finish => cases hevent
  | get request wantValue answer =>
      cases answer with
      | error error => cases hevent
      | ok found =>
          cases found with
          | none => cases hevent
          | some given =>
              cases hevent
              rfl

/-- Handing the next item out makes it a result. -/
theorem Accounted.handOut (h : Accounted wantValues w log results) (hread : w.ahead ≠ .unread) :
    Accounted wantValues { w with ahead := w.ahead.behind } log (results ++ [w.ahead.item?]) := by
  have hfinished := h.finished_eq
  have hitems : log.filterMap (Event.item? wantValues) =
      (results ++ [w.ahead.item?]).filterMap id ++ w.ahead.behind.item?.toList := by
    rw [h.items_eq, List.filterMap_append]
    cases w.ahead <;> exact (List.append_nil _).symm
  cases hahead : w.ahead with
  | unread => exact absurd hahead hread
  | entry found =>
      rw [hahead] at hfinished hitems
      obtain ⟨entries, hentries⟩ := h.running (hahead ▸ Ahead.noConfusion)
      refine ⟨h.wantValues_eq, hfinished, h.gets, hitems, fun hends => absurd hends
        Bool.false_ne_true, fun _ => ⟨entries ++ [found], ?_⟩, fun hends => Ahead.noConfusion hends⟩
      rw [hentries, List.map_append]
      rfl
  | failure error =>
      rw [hahead] at hfinished hitems
      obtain ⟨entries, hentries⟩ := h.running (hahead ▸ Ahead.noConfusion)
      refine ⟨h.wantValues_eq, hfinished, h.gets, hitems, fun _ => h.exhausted (hahead ▸ rfl),
        fun hne => absurd rfl hne, fun _ => ⟨entries, some error, 0, ?_⟩⟩
      rw [hentries]
      exact (List.append_nil _).symm
  | nothing =>
      rw [hahead] at hfinished hitems
      obtain ⟨entries, failure, count, hended⟩ := h.ended hahead
      refine ⟨h.wantValues_eq, hfinished, h.gets, hitems, fun _ => h.exhausted (hahead ▸ rfl),
        fun hne => absurd rfl hne, fun _ => ⟨entries, failure, count + 1, ?_⟩⟩
      rw [hended, List.append_assoc, List.replicate_succ']
      rfl

theorem Accounted.answered (h : Accounted wantValues w log results) (hread : w.ahead ≠ .unread)
    (ask : Ask) :
    Accounted wantValues (w.answered ask).2 log (results ++ resultsOf [(w.answered ask).1]) := by
  cases ask with
  | atEnd => exact (List.append_nil results).symm ▸ h
  | next => exact h.handOut hread

/-! ## One step of a walk -/

/-- What reading on comes to: a request whose answer it is, possibly behind others that
found no entry. -/
def ReadsOn (w : Walk κ) (log : List Event)
    (outcome : (Except Error (Option Entry) × Walk κ) × List Event) : Prop :=
  ∃ idle request cursor,
    outcome.2 = log ++ idle ++ [.get request w.wantValues outcome.1.1] ∧
    Gets w.wantValues idle ∧ idle.filterMap (Event.item? w.wantValues) = [] ∧
    outcome.1.2 = { w with cursor } ∧ cursor.finished = w.cursor.finished

/-- After a request that found no entry there may be another one. -/
theorem ReadsOn.trans {first second : (Except Error (Option Entry) × Walk κ) × List Event}
    (h : ReadsOn w log first) (hnone : first.1.1 = .ok none)
    (h' : ReadsOn first.1.2 first.2 second) : ReadsOn w log second := by
  obtain ⟨idle, request, cursor, hlog, hidle, hitems, hw, hfinished⟩ := h
  obtain ⟨idle', request', cursor', hlog', hidle', hitems', hw', hfinished'⟩ := h'
  rw [hw] at hlog' hidle' hitems' hw' hfinished'
  rw [hnone] at hlog
  refine ⟨idle ++ [.get request w.wantValues (.ok none)] ++ idle', request', cursor',
    ?_, ?_, ?_, hw', hfinished'.trans hfinished⟩
  · rw [hlog', hlog]
    simp only [List.append_assoc]
  · exact (hidle.append (gets_singleton _ _ _)).append hidle'
  · rw [List.filterMap_append, List.filterMap_append, hitems, hitems']
    rfl

variable [CursorState Id κ]

theorem readsOn_request (w : Walk κ) (log : List Event) (request : Request) :
    ReadsOn w log (((Walk.request (m := Log) request).run w).run log).run := by
  refine ⟨[], request, _, ?_, gets_nil _, rfl, rfl, rfl⟩
  rw [List.append_nil]
  rfl

theorem run_following_pairs (w : Walk κ) (log : List Event) :
    ((Walk.following (m := Log) .pairs).run w).run log =
      ((Walk.request (m := Log) .nextValue).run w).run log >>= fun outcome =>
        match outcome.1.1 with
        | .ok none => ((Walk.request (m := Log) .nextKey).run outcome.1.2).run outcome.2
        | _ => pure outcome := by
  rw [Walk.following, Op.run_bind, StateT.run_bind]
  refine bind_congr ?_
  rintro ⟨⟨answer, w'⟩, log'⟩
  cases answer with
  | error error => rfl
  | ok found => cases found <;> rfl

theorem readsOn_following (w : Walk κ) (log : List Event) (scope : Scope) :
    ReadsOn w log (((Walk.following (m := Log) scope).run w).run log).run := by
  cases scope with
  | keys => exact readsOn_request w log .nextKey
  | valuesOf key => exact readsOn_request w log .nextValue
  | pairs =>
      have hfirst := readsOn_request w log .nextValue
      rw [run_following_pairs, Id.run_bind]
      cases hanswer : (((Walk.request (m := Log) .nextValue).run w).run log).run.1.1 with
      | error error => exact hfirst
      | ok found =>
          cases found with
          | some entry => exact hfirst
          | none => exact hfirst.trans hanswer (readsOn_request _ _ .nextKey)

theorem readsOn_readOn (w : Walk κ) (log : List Event) :
    ReadsOn { w with opened := true } log (((Walk.readOn (m := Log)).run w).run log).run := by
  rw [run_readOn]
  cases hopened : w.opened with
  | false => exact readsOn_request { w with opened := true } log w.scope.opening
  | true =>
      rw [if_pos rfl, ← hopened]
      exact readsOn_following w log w.scope

theorem run_finish {c : Cursor κ} (h : c.finished = false) (log : List Event) :
    (c.finish (m := Log)).run log =
      pure ({ state := (CursorState.finish (m := Id) c.state).run, finished := true },
        log ++ [.finish]) := by
  rw [Cursor.finish, h]
  rfl

/-- The cursor of a walk is released where its answer was not an entry. -/
theorem run_settle {ahead : Ahead} (hread : ahead ≠ .unread) (h : w.cursor.finished = false)
    (log : List Event) :
    ∃ cursor : Cursor κ, cursor.finished = ahead.ends ∧
      (w.settle (m := Log) ahead).run log =
        pure ({ w with cursor, ahead }, log ++ if ahead.ends then [.finish] else []) := by
  let released : Cursor κ :=
    { state := (CursorState.finish (m := Id) w.cursor.state).run, finished := true }
  cases ahead with
  | unread => exact absurd rfl hread
  | entry found =>
      refine ⟨w.cursor, h, ?_⟩
      rw [Ahead.ends, if_neg Bool.false_ne_true, List.append_nil]
      rfl
  | failure error =>
      refine ⟨released, rfl, ?_⟩
      rw [Walk.settle_of_ends rfl, StateT.run_bind, run_finish h]
      rfl
  | nothing =>
      refine ⟨released, rfl, ?_⟩
      rw [Walk.settle_of_ends rfl, StateT.run_bind, run_finish h]
      rfl

/-- Reading in advance makes a request, possibly behind others that found no entry, and
releases the cursor if its answer is not an entry. -/
theorem run_peek (hahead : w.ahead = .unread) (hfinished : w.cursor.finished = false)
    (log : List Event) :
    ∃ idle request answer cursor ahead, Gets w.wantValues idle ∧
      idle.filterMap (Event.item? w.wantValues) = [] ∧
      ahead = Ahead.ofAnswer w.wantValues answer ∧ cursor.finished = ahead.ends ∧
      (w.peek (m := Log)).run log =
        pure ({ w with opened := true, cursor, ahead },
          log ++ idle ++ [.get request w.wantValues answer] ++
            if ahead.ends then [.finish] else []) := by
  obtain ⟨⟨⟨answer, w'⟩, log'⟩, hrun⟩ :
      ∃ outcome, ((Walk.readOn (m := Log)).run w).run log = pure outcome := ⟨_, rfl⟩
  have hstep := readsOn_readOn w log
  rw [hrun] at hstep
  obtain ⟨idle, request, cursor, hlog, hidle, hitems, hw, hcursor⟩ := hstep
  dsimp only [Id.run_pure] at hlog hw
  subst hlog hw
  have hread := Ahead.ofAnswer_ne_unread w.wantValues answer
  obtain ⟨cursor', hends, hsettle⟩ := run_settle (w := { w with opened := true, cursor }) hread
    (hcursor.trans hfinished) (log ++ idle ++ [.get request w.wantValues answer])
  refine ⟨idle, request, answer, cursor', _, hidle, hitems, rfl, hends, ?_⟩
  rw [Walk.peek_of_unread hahead, StateT.run_bind, hrun, pure_bind]
  exact hsettle

/-! ## Calls -/

theorem run_peek_of_read (h : w.ahead ≠ .unread) (log : List Event) :
    (w.peek (m := Log)).run log = pure (w, log) := by
  rw [Walk.peek_of_read h]
  rfl

/-- Reading in advance changes nothing about the results. -/
theorem Accounted.peek (h : Accounted wantValues w log results) :
    ∃ w' log', (w.peek (m := Log)).run log = pure (w', log') ∧
      Accounted wantValues w' log' results ∧ w'.ahead ≠ .unread := by
  by_cases hahead : w.ahead = .unread
  · obtain rfl := h.wantValues_eq
    have hfinished : w.cursor.finished = false := h.finished_eq.trans (hahead ▸ rfl)
    obtain ⟨idle, request, answer, cursor, ahead, hidle, hnone, rfl, hends, hrun⟩ :=
      run_peek hahead hfinished log
    obtain ⟨gets, hgets, hlog⟩ := h.gets
    obtain ⟨entries, hentries⟩ := h.running (hahead ▸ Ahead.noConfusion)
    have hitems := h.items_eq
    rw [hahead, Ahead.item?, Option.toList_none, List.append_nil] at hitems
    rw [hfinished, if_neg Bool.false_ne_true, List.append_nil] at hlog
    subst hlog
    have hseen : Gets w.wantValues (log ++ idle ++ [.get request w.wantValues answer]) :=
      (hgets.append hidle).append (gets_singleton _ request answer)
    refine ⟨_, _, hrun, ⟨rfl, hends, ⟨_, hseen, hends ▸ rfl⟩, ?_, ?_, ?_, ?_⟩,
      Ahead.ofAnswer_ne_unread _ _⟩
    · have hrelease : (if (Ahead.ofAnswer w.wantValues answer).ends then [.finish]
          else []).filterMap (Event.item? w.wantValues) = [] := by
        cases (Ahead.ofAnswer w.wantValues answer).ends <;> rfl
      rw [List.filterMap_append, List.filterMap_append, List.filterMap_append, hrelease, hnone,
        hitems, List.append_nil, List.append_nil, Ahead.filterMap_get]
    · intro hlast
      refine ⟨log ++ idle, request, w.wantValues, answer, ?_, Ahead.answer_ne_of_ends hlast⟩
      rw [if_pos hlast, List.append_assoc]
      rfl
    · exact fun _ => ⟨entries, hentries⟩
    · exact fun _ => hentries ▸ orderly_entries entries
  · exact ⟨w, log, run_peek_of_read hahead log, h, hahead⟩

theorem run_reply (hpeek : (w.peek (m := Log)).run log = pure (w', log'))
    (hread : w'.ahead ≠ .unread) (ask : Ask) :
    (w.reply (m := Log) ask).run log = pure (w'.answered ask, log') := by
  rw [← Walk.peek_bind_reply, StateT.run_bind, hpeek, pure_bind, Walk.reply_of_read hread]
  rfl

theorem run_replies_next (hpeek : (w.peek (m := Log)).run log = pure (w', log'))
    (hread : w'.ahead ≠ .unread) :
    (Walk.replies (m := Log) [.next] w).run log =
      pure (([.next w'.ahead.item?], { w' with ahead := w'.ahead.behind }), log') := by
  rw [Walk.replies, StateT.run_bind, run_reply hpeek hread]
  rfl

theorem run_replies_atEnd_next (hpeek : (w.peek (m := Log)).run log = pure (w', log'))
    (hread : w'.ahead ≠ .unread) :
    (Walk.replies (m := Log) [.atEnd, .next] w).run log =
      pure (([.atEnd w'.ahead.item?.isNone, .next w'.ahead.item?],
        { w' with ahead := w'.ahead.behind }), log') := by
  rw [Walk.replies, StateT.run_bind, run_reply hpeek hread, pure_bind, StateT.run_bind]
  dsimp only [Walk.answered]
  rw [run_replies_next (run_peek_of_read hread log') hread]
  rfl

/-- Any calls. -/
theorem Accounted.replies (h : Accounted wantValues w log results) (asks : List Ask) :
    ∃ answers w' log', (Walk.replies (m := Log) asks w).run log = pure ((answers, w'), log') ∧
      Accounted wantValues w' log' (results ++ resultsOf answers) := by
  induction asks generalizing w log results with
  | nil => exact ⟨[], w, log, rfl, (List.append_nil results).symm ▸ h⟩
  | cons ask asks ih =>
      obtain ⟨w', log', hpeek, hacc, hread⟩ := h.peek
      obtain ⟨answers, w'', log'', hreplies, hacc'⟩ := ih (hacc.answered hread ask)
      refine ⟨(w'.answered ask).1 :: answers, w'', log'', ?_, ?_⟩
      · rw [Walk.replies, StateT.run_bind, run_reply hpeek hread, pure_bind, StateT.run_bind,
          hreplies]
        rfl
      · rw [List.append_assoc, resultsOf, resultsOf, ← List.filterMap_append] at hacc'
        exact hacc'

/-! ## Asking for the end or not -/

/-- The results of a walk are the same with the next item read in advance. -/
theorem results_peek (w : Walk κ) (log : List Event) (asks : List Ask) :
    resultsOf ((w.peek (m := Log) >>= Walk.replies asks).run log).run.1.1 =
      resultsOf ((Walk.replies (m := Log) asks w).run log).run.1.1 := by
  cases asks with
  | nil => rfl
  | cons ask asks =>
      have heq : (w.peek (m := Log) >>= Walk.replies (ask :: asks)) =
          Walk.replies (ask :: asks) w := by
        rw [Walk.replies, ← Walk.peek_bind_reply w ask, bind_assoc]
        rfl
      rw [heq]

/-- Only the calls for the next item make a difference to the results. -/
theorem results_replies (w : Walk κ) (log : List Event) (asks : List Ask) :
    resultsOf ((Walk.replies (m := Log) asks w).run log).run.1.1 =
      resultsOf ((Walk.replies (m := Log) (List.replicate (asks.count .next) .next) w).run
        log).run.1.1 := by
  induction asks generalizing w log with
  | nil => rfl
  | cons ask asks ih =>
      cases ask with
      | atEnd =>
          have hcount : (Ask.atEnd :: asks).count .next = asks.count .next := by
            simp
          rw [hcount, ← ih w log, ← results_peek w log asks]
          rfl
      | next =>
          let outcome := ((w.next (m := Log)).run log).run
          rw [List.count_cons_self, List.replicate_succ]
          exact congrArg (outcome.1.1 :: ·) (ih outcome.1.2 outcome.2)

/-! ## Sessions -/

/-- Giving a cursor up releases the backend's cursor, unless that has been done. -/
theorem run_discard_cursor (c : Cursor κ) (log : List Event) :
    (c.discard (m := Log)).run log = pure ((), log ++ if c.finished then [] else [.finish]) := by
  cases hfinished : c.finished with
  | false =>
      rw [Cursor.discard, StateT.run_bind, run_finish hfinished]
      rfl
  | true =>
      rw [Cursor.discard, Cursor.finish, hfinished]
      exact congrArg (pure (f := Id) ((), ·)) (List.append_nil log).symm

theorem run_discard (w : Walk κ) (log : List Event) :
    (w.discard (m := Log)).run log =
      pure ((), log ++ if w.cursor.finished then [] else [.finish]) :=
  run_discard_cursor w.cursor log

variable {scope : Scope} {state : κ} {asks asks' : List Ask} {answers answers' : List Reply}

theorem session_eq
    (hrun : (Walk.replies (m := Log) asks (.ofState scope wantValues state)).run [] =
      pure ((answers, w), log)) :
    session scope wantValues state asks =
      (answers, log ++ if w.cursor.finished then [] else [.finish]) := by
  rw [session, StateT.run_bind, hrun, pure_bind, StateT.run_bind, run_discard]
  rfl

theorem resultsOf_session (hcount : asks'.count .next = asks.count .next) :
    resultsOf (session scope wantValues state asks').1 =
      resultsOf (session scope wantValues state asks).1 := by
  have hresults : ∀ asks, resultsOf (session scope wantValues state asks).1 =
      resultsOf ((Walk.replies (m := Log) asks (.ofState scope wantValues state)).run
        []).run.1.1 := fun _ => rfl
  rw [hresults, hresults, results_replies, hcount, ← results_replies]

/-- Further calls give further replies. -/
theorem session_append
    (hrun : (Walk.replies (m := Log) asks (.ofState scope wantValues state)).run [] =
      pure ((answers, w), log))
    (hrun' : (Walk.replies (m := Log) asks' w).run log = pure ((answers', w'), log')) :
    (session scope wantValues state (asks ++ asks')).1 =
      (session scope wantValues state asks).1 ++ answers' := by
  have happend :
      (Walk.replies (m := Log) (asks ++ asks') (.ofState scope wantValues state)).run [] =
        pure ((answers ++ answers', w'), log') := by
    rw [Walk.replies_append, StateT.run_bind, hrun, pure_bind, StateT.run_bind, hrun']
    rfl
  rw [session_eq happend, session_eq hrun]

end Steps

/-! ## All walks -/

/-- What can be said of a walk over any cursor, for any calls until it is given up. -/
structure Disciplined {κ : Type} [CursorState Id κ] (scope : Scope) (wantValues : Bool)
    (state : κ) (asks : List Ask) : Prop where
  orderly : Orderly (resultsOf (session scope wantValues state asks).1)
  /-- There is nothing more only where the cursor had no entry. -/
  exhausted : none ∈ resultsOf (session scope wantValues state asks).1 →
    Exhausted (session scope wantValues state asks).2
  /-- The cursor is asked for values only where they are wanted, and in the end it is
  released, once. -/
  released : ∃ gets, Gets (wantValues && scope != .keys) gets ∧
    (session scope wantValues state asks).2 = gets ++ [.finish]
  /-- Every entry and every error of the cursor was a result once, in their order, or is
  known already to be the result of the next call. -/
  conserved : ∃ pending : Option Walk.Item,
    (session scope wantValues state asks).2.filterMap
        (Event.item? (wantValues && scope != .keys)) =
      (resultsOf (session scope wantValues state asks).1).filterMap id ++ pending.toList ∧
    ∀ item, pending = some item → (session scope wantValues state (asks ++ [.next])).1 =
      (session scope wantValues state asks).1 ++ [.next (some item)]
  /-- It is the end when the next call has no item, whether the end was asked for or not. -/
  atEnd : ∃ result,
    (session scope wantValues state (asks ++ [.next])).1 =
      (session scope wantValues state asks).1 ++ [.next result] ∧
    (session scope wantValues state (asks ++ [.atEnd, .next])).1 =
      (session scope wantValues state asks).1 ++ [.atEnd result.isNone, .next result]
  /-- The results are those of any other calls with as many calls for the next item. -/
  results_eq : ∀ asks' : List Ask, asks'.count .next = asks.count .next →
    resultsOf (session scope wantValues state asks').1 =
      resultsOf (session scope wantValues state asks).1
  /-- Values that are not wanted are not handed out, even if they come along. -/
  valueless : (wantValues && scope != .keys) = false →
    ∀ entry, some (.ok entry) ∈ resultsOf (session scope wantValues state asks).1 →
      entry.value = none

/-- Every walk is disciplined, whatever its cursor answers and whatever the calls are. -/
theorem walks_disciplined {κ : Type} [CursorState Id κ] (scope : Scope) (wantValues : Bool)
    (state : κ) (asks : List Ask) : Disciplined scope wantValues state asks := by
  obtain ⟨answers, w, log, hrun, hacc⟩ := (accounted_ofState scope wantValues state).replies asks
  obtain ⟨w', log', hpeek, -, hread⟩ := hacc.peek
  have hsession := session_eq hrun
  have hnext := session_append hrun (run_replies_next hpeek hread)
  rw [List.nil_append] at hacc
  refine ⟨?_, ?_, ?_, ⟨w.ahead.item?, ?_, ?_⟩, ⟨w'.ahead.item?, hnext, ?_⟩, ?_, ?_⟩
  · rw [hsession]
    exact hacc.orderly
  · rw [hsession]
    exact hacc.exhausted_of_none_mem
  · rw [hsession]
    exact hacc.completed
  · rw [hsession]
    exact hacc.items_completed
  · intro item hitem
    -- What is known of the next item has been read, so the next call reads nothing more.
    have hahead : w.ahead ≠ .unread := by
      intro hunread
      rw [hunread] at hitem
      cases hitem
    cases hpeek.symm.trans (run_peek_of_read hahead log)
    rwa [hitem] at hnext
  · exact session_append hrun (run_replies_atEnd_next hpeek hread)
  · exact fun asks' hcount => resultsOf_session hcount
  · intro hwanted entry hentry
    rw [hsession] at hentry
    exact Accounted.value_eq_none (hwanted ▸ hacc) hentry

-- A cursor that has one entry, hands its value out uncalled for, and fails ever after.
example :
    let _ : CursorState Id Nat :=
      { get _ _ := Op.ofStep fun
          | 0 => (.ok (some { key := [107], value := some [118] }), 1)
          | calls => (.error .cursorFinished, calls + 1)
        finish calls := pure calls
        extent _ := 1 }
    session .pairs false 0 [.next, .atEnd, .next, .atEnd, .next] =
      ([.next (some (.ok { key := [107], value := none })), .atEnd false,
          .next (some (.error .cursorFinished)), .atEnd true, .next none],
        [.get .first false (.ok (some { key := [107], value := some [118] })),
          .get .nextValue false (.error .cursorFinished), .finish]) := by
  cbv

end Multimap.Traversal
