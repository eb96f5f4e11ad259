import Multimap.Chained.Backend
import Multimap.Ordered.Store
import Multimap.Proofs.Traversal.Discipline
import Multimap.Proofs.Traversal.Reader

/-!
# Release — what a cursor passes on and when it is released

A cursor passes every request on, also one that comes behind its release, and gives back
what its backend answers. It adds a single thing of its own: the backend's cursor is
released once. Whether a released cursor still hands data out is therefore the backend's
decision alone.

* `Use` is a call of the holder of a cursor, and `held` what comes of a list of them;
* `Passed` says which replies and which trace some calls lead to;
* `Served` is what comes of one call, in the three ways that there are, and from calls that
  are served it follows that they are passed on (`ServedAll.passed`);
* `Refusing` is a backend's cursor that refuses requests once it has been released, and
  then the cursor in front of it refuses them too (`Refusing.refused`), as over a table
  (`refusing_chained`);
* `uses_forwarded` puts this together for every cursor and all calls, and
  `released_cursor_answers` is a cursor that hands data out behind its release.
-/

namespace Multimap.Traversal

/-- The request that reaches a cursor. -/
def Event.request? : Event → Option (Request × Bool)
  | .get request wantValue _ => some (request, wantValue)
  | .finish => none

/-- The answer that a cursor gives. -/
def Event.answer? : Event → Option Answer
  | .get _ _ answer => some answer
  | .finish => none

/-- Whether a cursor is released. -/
def Event.isRelease : Event → Bool
  | .get _ _ _ => false
  | .finish => true

namespace Cursor

/-! ## Calls -/

/-- A call of the holder of a cursor. -/
inductive Use where
  | get (request : Request) (wantValue : Bool)
  | seek (key : Bytes)
  | first (wantValue : Bool)
  | nextKey (wantValue : Bool)
  | nextValue
  | finish
  deriving DecidableEq

/-- What a call gives back. -/
inductive Given where
  | entry (answer : Except Error (Option Entry))
  | value (answer : Except Error (Option Bytes))
  | released

namespace Use

/-- The request that a call is. -/
def request? : Use → Option (Request × Bool)
  | .get request wantValue => some (request, wantValue)
  | .seek key => some (.seek key, true)
  | .first wantValue => some (.first, wantValue)
  | .nextKey wantValue => some (.nextKey, wantValue)
  | .nextValue => some (.nextValue, true)
  | .finish => none

/-- What a call gives back for the answer of the backend. -/
def given : Use → Answer → Given
  | .get _ _, answer | .first _, answer | .nextKey _, answer => .entry answer
  | .seek _, answer | .nextValue, answer => .value (answer.map (·.bind Entry.value))
  | .finish, _ => .released

/-- What a call gives back that is refused. -/
def refusal (use : Use) : Given :=
  use.given (.error .cursorFinished)

theorem eq_finish_of_request?_eq_none {use : Use} (h : use.request? = none) : use = .finish := by
  cases use with
  | finish => rfl
  | _ => cases h

section Effects

variable {m : Type → Type} {κ : Type} [Monad m] [CursorState m κ]

/-- Makes a call. -/
def perform (c : Cursor κ) : Use → m (Given × Cursor κ)
  | .get request wantValue => do
      let (answer, c) ← (Cursor.get request wantValue).run c
      return (.entry answer, c)
  | .seek key => do
      let (answer, c) ← (Cursor.seek key).run c
      return (.value answer, c)
  | .first wantValue => do
      let (answer, c) ← (Cursor.first wantValue).run c
      return (.entry answer, c)
  | .nextKey wantValue => do
      let (answer, c) ← (Cursor.nextKey wantValue).run c
      return (.entry answer, c)
  | .nextValue => do
      let (answer, c) ← Cursor.nextValue.run c
      return (.value answer, c)
  | .finish => do
      let c ← c.finish
      return (.released, c)

/-- Makes calls, one behind the other. -/
def performAll : List Use → Cursor κ → m (List Given × Cursor κ)
  | [], c => return ([], c)
  | use :: uses, c => do
      let (given, c) ← perform c use
      let (rest, c) ← performAll uses c
      return (given :: rest, c)

/-- Every call but the release is a request. -/
theorem perform_of_request [LawfulMonad m] {use : Use} {request : Request} {wantValue : Bool}
    (h : use.request? = some (request, wantValue)) (c : Cursor κ) :
    use.perform (m := m) c = (Cursor.get request wantValue).run c >>= fun (answer, c) =>
      pure (use.given answer, c) := by
  have hvalue : ∀ request : Request,
      ((do
        let entry ← Cursor.get request true
        return entry.bind Entry.value : Op m (Cursor κ) (Option Bytes)).run c >>=
          fun (answer, c) => pure (Given.value answer, c)) =
        (Cursor.get request true).run c >>= fun (answer, c) =>
          pure (.value (answer.map (·.bind Entry.value)), c) := by
    intro request
    rw [Op.run_bind, bind_assoc]
    refine bind_congr ?_
    rintro ⟨answer, c'⟩
    cases answer <;> exact pure_bind _ _
  cases use with
  | get request wantValue => cases h; rfl
  | first wantValue => cases h; rfl
  | nextKey wantValue => cases h; rfl
  | seek key => cases h; exact hvalue (.seek key)
  | nextValue => cases h; exact hvalue .nextValue
  | finish => cases h

end Effects

end Use

/-- What the calls of a holder give back, who drops the cursor in the end, and the trace
that the backend's cursor sees. -/
def held {κ : Type} [CursorState Id κ] (state : κ) (uses : List Use) :
    List Given × List Event :=
  let holding : Log (List Given) := do
    let (given, c) ← Use.performAll uses (.ofState state)
    c.discard
    return given
  (holding.run []).run

/-- What calls give back, given the answers to their requests. -/
def givenFor : List Use → List Answer → List Given
  | .finish :: uses, answers => .released :: givenFor uses answers
  | use :: uses, answer :: answers => use.given answer :: givenFor uses answers
  | _, _ => []

/-! ## What reaches the backend -/

/-- What a cursor that has been released or not gives back, and what its backend sees,
until the cursor is dropped. -/
inductive Passed : Bool → List Use → List Given → List Event → Prop where
  | dropped : Passed true [] [] []
  | releasedLast : Passed false [] [] [.finish]
  | request {released : Bool} {use : Use} {uses : List Use} {given : List Given}
      {trace : List Event} {request : Request} {wantValue : Bool} (answer : Answer) :
      use.request? = some (request, wantValue) → Passed released uses given trace →
      Passed released (use :: uses) (use.given answer :: given)
        (.get request wantValue answer :: trace)
  | release {uses : List Use} {given : List Given} {trace : List Event} :
      Passed true uses given trace →
      Passed false (.finish :: uses) (.released :: given) (.finish :: trace)
  | again {uses : List Use} {given : List Given} {trace : List Event} :
      Passed true uses given trace → Passed true (.finish :: uses) (.released :: given) trace

section Trace

variable {released : Bool} {uses front back : List Use} {given : List Given} {trace : List Event}

/-- The backend's cursor is released once. -/
theorem Passed.countP_isRelease (h : Passed released uses given trace) :
    trace.countP Event.isRelease = if released then 0 else 1 := by
  induction h with
  | dropped => rfl
  | releasedLast => rfl
  | request answer hrequest h ih => exact ih
  | release h ih => rw [List.countP_cons_of_pos rfl, ih]; rfl
  | again h ih => exact ih

/-- Every request reaches the backend, before and behind the release. -/
theorem Passed.requests_eq (h : Passed released uses given trace) :
    trace.filterMap Event.request? = uses.filterMap Use.request? := by
  induction h with
  | dropped => rfl
  | releasedLast => rfl
  | request answer hrequest h ih => simp [Event.request?, hrequest, ih]
  | release h ih => exact ih
  | again h ih => exact ih

/-- The answers of the backend are what the calls give back. -/
theorem Passed.given_eq (h : Passed released uses given trace) :
    given = givenFor uses (trace.filterMap Event.answer?) := by
  induction h with
  | dropped => rfl
  | releasedLast => rfl
  | @request released use uses given trace request wantValue answer hrequest h ih =>
      have hanswers : (Event.get request wantValue answer :: trace).filterMap Event.answer? =
          answer :: trace.filterMap Event.answer? := rfl
      rw [hanswers]
      cases use with
      | finish => cases hrequest
      | _ => exact congrArg (_ :: ·) ih
  | release h ih => exact congrArg (_ :: ·) ih
  | again h ih => exact congrArg (_ :: ·) ih

/-- The first release by the holder is the release of the backend's cursor. -/
theorem Passed.split (h : Passed false uses given trace) (huses : uses = front ++ .finish :: back)
    (hfront : .finish ∉ front) :
    ∃ before behind, trace = before ++ .finish :: behind ∧
      before.filterMap Event.request? = front.filterMap Use.request? ∧
      behind.filterMap Event.request? = back.filterMap Use.request? := by
  generalize hreleased : false = released at h
  induction h generalizing front with
  | dropped => cases hreleased
  | again h ih => cases hreleased
  | releasedLast => simp at huses
  | release h ih =>
      cases front with
      | nil =>
          cases huses
          exact ⟨[], _, rfl, rfl, h.requests_eq⟩
      | cons use front =>
          cases huses
          exact absurd List.mem_cons_self hfront
  | @request released use uses given trace request wantValue answer hrequest h ih =>
      cases front with
      | nil =>
          cases huses
          cases hrequest
      | cons use front =>
          cases huses
          rcases ih rfl (fun hmem => hfront (List.mem_cons_of_mem _ hmem)) hreleased with
            ⟨before, behind, rfl, hbefore, hbehind⟩
          refine ⟨.get request wantValue answer :: before, behind, rfl, ?_, hbehind⟩
          simp [Event.request?, hrequest, hbefore]

/-- Where the holder never releases the cursor, dropping it does. -/
theorem Passed.released_last (h : Passed false uses given trace) (huses : .finish ∉ uses) :
    ∃ gets, trace = gets ++ [.finish] := by
  generalize hreleased : false = released at h
  induction h with
  | dropped => cases hreleased
  | again h ih => cases hreleased
  | releasedLast => exact ⟨[], rfl⟩
  | release h ih => exact absurd List.mem_cons_self huses
  | request answer hrequest h ih =>
      rcases ih (fun hmem => huses (List.mem_cons_of_mem _ hmem)) hreleased with ⟨gets, rfl⟩
      exact ⟨_ :: gets, rfl⟩

end Trace

/-! ## Calls as they are served -/

section Served

variable {κ : Type} [CursorState Id κ]

/-- The cursor once it has been released. -/
def release (c : Cursor κ) : Cursor κ :=
  { state := (CursorState.finish (m := Id) c.state).run, finished := true }

/-- What a call gives back, what the cursor is then, and what its backend saw of it. -/
inductive Served (c : Cursor κ) : Use → Given → Cursor κ → List Event → Prop where
  | request {use : Use} {request : Request} {wantValue : Bool} {answer : Answer} {state : κ} :
      use.request? = some (request, wantValue) →
      ((CursorState.get (m := Id) request wantValue).run c.state).run = (answer, state) →
      Served c use (use.given answer) { c with state } [.get request wantValue answer]
  | release : c.finished = false → Served c .finish .released c.release [.finish]
  | again : c.finished = true → Served c .finish .released c []

/-- The same for calls one behind the other. -/
inductive ServedAll : Cursor κ → List Use → List Given → Cursor κ → List Event → Prop where
  | nil (c : Cursor κ) : ServedAll c [] [] c []
  | cons {c c' c'' : Cursor κ} {use : Use} {uses : List Use} {given : Given} {rest : List Given}
      {events trace : List Event} :
      Served c use given c' events → ServedAll c' uses rest c'' trace →
      ServedAll c (use :: uses) (given :: rest) c'' (events ++ trace)

theorem served_perform (c : Cursor κ) (use : Use) (log : List Event) :
    ∃ given c' events, (use.perform (m := Log) c).run log = pure ((given, c'), log ++ events) ∧
      Served c use given c' events := by
  cases hrequest : use.request? with
  | some asked =>
      obtain ⟨request, wantValue⟩ := asked
      rw [Use.perform_of_request hrequest]
      exact ⟨_, _, _, rfl, .request hrequest rfl⟩
  | none =>
      obtain rfl := Use.eq_finish_of_request?_eq_none hrequest
      cases hfinished : c.finished with
      | false =>
          refine ⟨.released, c.release, [.finish], ?_, .release hfinished⟩
          rw [Use.perform, StateT.run_bind, run_finish hfinished]
          rfl
      | true =>
          -- A second release does not reach the backend.
          refine ⟨.released, c, [], ?_, .again hfinished⟩
          rw [Use.perform, Cursor.finish, hfinished, List.append_nil]
          rfl

theorem servedAll_performAll (uses : List Use) (c : Cursor κ) (log : List Event) :
    ∃ given c' trace,
      (Use.performAll (m := Log) uses c).run log = pure ((given, c'), log ++ trace) ∧
      ServedAll c uses given c' trace := by
  induction uses generalizing c log with
  | nil =>
      refine ⟨[], c, [], ?_, .nil c⟩
      rw [List.append_nil]
      rfl
  | cons use uses ih =>
      obtain ⟨given, c', events, hfirst, hserved⟩ := served_perform c use log
      obtain ⟨rest, c'', trace, hrest, hall⟩ := ih c' (log ++ events)
      refine ⟨given :: rest, c'', events ++ trace, ?_, .cons hserved hall⟩
      rw [Use.performAll, StateT.run_bind, hfirst, pure_bind, StateT.run_bind, hrest,
        List.append_assoc]
      rfl

/-- The calls of a holder are served, and dropping the cursor releases it if need be. -/
theorem servedAll_held (state : κ) (uses : List Use) :
    ∃ c trace, ServedAll (.ofState state) uses (held state uses).1 c trace ∧
      (held state uses).2 = trace ++ if c.finished then [] else [.finish] := by
  obtain ⟨given, c, trace, hrun, hserved⟩ := servedAll_performAll uses (.ofState state) []
  rw [held, StateT.run_bind, hrun, pure_bind, StateT.run_bind, run_discard_cursor]
  exact ⟨c, trace, hserved, rfl⟩

variable {c c' : Cursor κ} {uses : List Use} {given : List Given} {trace : List Event}

/-- What is served is passed on. -/
theorem ServedAll.passed (h : ServedAll c uses given c' trace) :
    Passed c.finished uses given (trace ++ if c'.finished then [] else [.finish]) := by
  induction h with
  | nil c =>
      cases c.finished with
      | false => exact .releasedLast
      | true => exact .dropped
  | cons hserved _ ih =>
      rw [List.append_assoc]
      cases hserved with
      | request hrequest _ => exact .request _ hrequest ih
      | release hfinished => exact hfinished ▸ .release ih
      | again hfinished => exact hfinished ▸ .again (hfinished ▸ ih)

theorem passed_held (state : κ) (uses : List Use) :
    Passed false uses (held state uses).1 (held state uses).2 := by
  obtain ⟨c, trace, hserved, htrace⟩ := servedAll_held state uses
  rw [htrace]
  exact hserved.passed

/-! ## Backends that refuse -/

/-- A backend's cursor in such a state refuses every request, and stays in such a state;
a release brings it there. -/
structure Refusing {κ : Type} [CursorState Id κ] (gone : κ → Prop) : Prop where
  finish : ∀ state : κ, gone (CursorState.finish (m := Id) state).run
  get : ∀ (state : κ) (request : Request) (wantValue : Bool), gone state →
    ((CursorState.get (m := Id) request wantValue).run state).run.1 = .error .cursorFinished ∧
      gone ((CursorState.get (m := Id) request wantValue).run state).run.2

variable {gone : κ → Prop}

/-- A cursor that has been released stays so, and refuses the call. -/
theorem Refusing.refusal_eq (h : Refusing gone) {use : Use} {answer : Given}
    {events : List Event} (hserved : Served c use answer c' events) (hfinished : c.finished = true)
    (hgone : gone c.state) :
    answer = use.refusal ∧ c'.finished = true ∧ gone c'.state := by
  cases hserved with
  | @request _ request wantValue _ _ _ hget =>
      have hrefused := h.get c.state request wantValue hgone
      rw [hget] at hrefused
      exact ⟨congrArg use.given hrefused.1, hfinished, hrefused.2⟩
  | release hopen => exact nomatch hopen.symm.trans hfinished
  | again _ => exact ⟨rfl, hfinished, hgone⟩

/-- Before the release nothing is asked of the state, and the release sets it right. -/
theorem Refusing.keeps (h : Refusing gone) {use : Use} {answer : Given} {events : List Event}
    (hserved : Served c use answer c' events) (hgone : c.finished = true → gone c.state) :
    c'.finished = true → gone c'.state := by
  intro hfinished'
  cases hserved with
  | @request _ request wantValue _ _ _ hget =>
      have hrefused := h.get c.state request wantValue (hgone hfinished')
      rw [hget] at hrefused
      exact hrefused.2
  | release _ => exact h.finish c.state
  | again hfinished => exact hgone hfinished

theorem Refusing.refusals_eq (h : Refusing gone) (hserved : ServedAll c uses given c' trace)
    (hfinished : c.finished = true) (hgone : gone c.state) : given = uses.map Use.refusal := by
  induction hserved with
  | nil c => rfl
  | cons hfirst _ ih =>
      rcases h.refusal_eq hfirst hfinished hgone with ⟨rfl, hfinished', hgone'⟩
      exact congrArg (_ :: ·) (ih hfinished' hgone')

/-- Where the backend's cursor refuses requests behind its release, every call that comes
behind it is refused. -/
theorem Refusing.refused (h : Refusing gone) {front back : List Use}
    (hserved : ServedAll c (front ++ .finish :: back) given c' trace)
    (hgone : c.finished = true → gone c.state) :
    ∃ earlier, given = earlier ++ .released :: back.map Use.refusal ∧
      earlier.length = front.length := by
  induction front generalizing c given trace with
  | nil =>
      cases hserved with
      | cons hfirst hrest =>
          have hreleased := h.keeps hfirst hgone
          cases hfirst with
          | request hrequest _ => cases hrequest
          | release _ =>
              exact ⟨[], congrArg (_ :: ·) (h.refusals_eq hrest rfl (hreleased rfl)), rfl⟩
          | again hfinished =>
              have hrefusals := h.refusals_eq hrest hfinished (hreleased hfinished)
              exact ⟨[], congrArg (_ :: ·) hrefusals, rfl⟩
  | cons use front ih =>
      cases hserved with
      | cons hfirst hrest =>
          rcases ih hrest (h.keeps hfirst hgone) with ⟨earlier, rfl, hlength⟩
          exact ⟨_ :: earlier, rfl, congrArg (· + 1) hlength⟩

end Served

/-- The cursor of a chained table refuses requests by itself. -/
theorem refusing_chained : Refusing fun c : Chained.Cursor => c.finished = true where
  finish _ := rfl
  get c request wantValue hfinished := by
    have hget : c.get request wantValue = (.error .cursorFinished, c) := if_pos hfinished
    exact ⟨congrArg Prod.fst hget, (congrArg (·.2.finished) hget).trans hfinished⟩

/-! ## All cursors -/

/-- What can be said of a cursor over any backend, for any calls until it is dropped. -/
structure Forwarded {κ : Type} [CursorState Id κ] (state : κ) (uses : List Use) : Prop where
  /-- The backend's cursor is released once. -/
  released_once : (held state uses).2.countP Event.isRelease = 1
  /-- That is where the holder first asks for it, or else where the cursor is dropped. -/
  released_first : ∀ front back, uses = front ++ .finish :: back → .finish ∉ front →
    ∃ before behind, (held state uses).2 = before ++ .finish :: behind ∧
      before.filterMap Event.request? = front.filterMap Use.request? ∧
      behind.filterMap Event.request? = back.filterMap Use.request?
  released_last : .finish ∉ uses → ∃ gets, (held state uses).2 = gets ++ [.finish]
  /-- Every request reaches the backend's cursor, before and behind its release. -/
  requests_eq : (held state uses).2.filterMap Event.request? = uses.filterMap Use.request?
  /-- What it answers is what the calls give back. -/
  given_eq : (held state uses).1 = givenFor uses ((held state uses).2.filterMap Event.answer?)
  /-- Calls behind the release are refused where the backend's cursor refuses them. -/
  refused : ∀ gone : κ → Prop, Refusing gone → ∀ front back, uses = front ++ .finish :: back →
    ∃ given, (held state uses).1 = given ++ .released :: back.map Use.refusal ∧
      given.length = front.length

/-- Whatever its backend answers and whatever the calls are, a cursor passes them on and
releases the backend's cursor once. -/
theorem uses_forwarded {κ : Type} [CursorState Id κ] (state : κ) (uses : List Use) :
    Forwarded state uses := by
  have h := passed_held state uses
  refine ⟨h.countP_isRelease, fun front back => h.split, h.released_last, h.requests_eq,
    h.given_eq, ?_⟩
  intro gone hrefusing front back huses
  subst huses
  obtain ⟨c, trace, hserved, -⟩ := servedAll_held state (front ++ .finish :: back)
  exact hrefusing.refused hserved fun hfinished => nomatch hfinished

/-- The cursor of an ordered store may be released twice as well as once; it hands out the
first pair behind its release. -/
theorem released_cursor_answers :
    let pair : Entry := { key := [107], value := some [118] }
    let c := (Ordered.Store.empty.put [107] [118]).cursor
    (∀ c : Ordered.Cursor, c.finish.finish = c.finish) ∧
      held c [.first true, .finish, .first true] =
        ([.entry (.ok (some pair)), .released, .entry (.ok (some pair))],
          [.get .first true (.ok (some pair)), .finish, .get .first true (.ok (some pair))]) :=
  ⟨fun _ => rfl, rfl⟩

end Cursor

end Multimap.Traversal
