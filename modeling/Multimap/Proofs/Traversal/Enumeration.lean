import Multimap.Proofs.Effects
import Multimap.Traversal.Contents
import Multimap.Traversal.Walk

/-!
# Enumeration — what a walk hands out

A walk over a backend whose cursor does what a reader of some contents does hands out
exactly the entries of these contents, in their order and however often it is asked
for the end in between.

* `Faithful` is what is asked of the backend's cursor, before it is released;
* `Stands` says which entries a walk has still to hand out, with or without one read
  in advance;
* `peek` changes nothing about that (`Faithful.peek`), and `next` takes the first entry
  away (`Faithful.next`);
* hence all replies to a list of calls are known (`Faithful.replies`), and `take` gives
  the first entries (`Faithful.take`).
-/

namespace Multimap.Traversal

variable {m : Type → Type} {κ : Type}

/-! ## The entries of contents -/

namespace Entry

/-- The entry of a pair. -/
def ofPair (wantValue : Bool) (key value : Bytes) : Entry :=
  { key, value := if wantValue then some value else none }

/-- An entry without a value that was not wanted. -/
def wanted (wantValue : Bool) (e : Entry) : Entry :=
  if wantValue then e else e.keyOnly

end Entry

namespace Contents

/-- What a walk hands out. -/
def entries (contents : Contents) (wantValues : Bool) : Scope → List Entry
  | .pairs => contents.pairs.map fun (key, value) => .ofPair wantValues key value
  | .valuesOf key => (contents.valuesOf key).map (.ofPair wantValues key)
  | .keys => contents.keys.map fun key => { key, value := none }

theorem entries_cons_pairs {key : Bytes} {values : List Bytes} {behind : Contents}
    {wantValues : Bool} :
    entries ((key, values) :: behind) wantValues .pairs =
      values.map (.ofPair wantValues key) ++ behind.entries wantValues .pairs := by
  rw [entries, pairs, List.flatMap_cons, List.map_append, List.map_map]
  rfl

/-- No walk is longer than the one over all pairs. -/
theorem length_entries_le {contents : Contents} (h : ∀ b ∈ contents, b.2 ≠ []) (wantValues : Bool)
    (scope : Scope) : (contents.entries wantValues scope).length ≤ contents.pairs.length := by
  have hpairs : ∀ {key : Bytes} {values : List Bytes} {behind : Contents},
      pairs ((key, values) :: behind) = values.map (fun value => (key, value)) ++ behind.pairs :=
    List.flatMap_cons
  induction contents with
  | nil => cases scope <;> exact Nat.le_refl 0
  | cons b behind ih =>
      rcases b with ⟨key, values⟩
      have hbehind := ih fun b hb => h b (List.mem_cons_of_mem _ hb)
      have hpos : 0 < values.length := List.length_pos_iff.2 (h (key, values) (by simp))
      rw [hpairs, List.length_append, List.length_map]
      cases scope with
      | pairs => simp [entries, hpairs]
      | valuesOf key' =>
          by_cases heq : key' = key
          · simp [entries, valuesOf, heq]
          · have hbeq : (key' == key) = false := beq_eq_false_iff_ne.2 heq
            simp only [entries, valuesOf, List.lookup_cons, hbeq, List.length_map] at hbehind ⊢
            omega
      | keys =>
          simp only [entries, keys, List.map_cons, List.length_map, List.length_cons] at hbehind ⊢
          omega

end Contents

namespace Spot

/-- What a walk that has handed out the entry at a spot hands out from then on. -/
def after (wantValues : Bool) (s : Spot) : Scope → List Entry
  | .pairs =>
      s.remaining.tail.map (.ofPair wantValues s.key) ++ s.behind.entries wantValues .pairs
  | .valuesOf _ => s.remaining.tail.map (.ofPair wantValues s.key)
  | .keys => s.behind.entries wantValues .keys

end Spot

/-! ## Cursors that a walk can rely on -/

/-- As long as it is not released, a cursor answers every request as a reader of the
contents does, where `shows` relates its states to spots. A value that was not wanted
may come along all the same. -/
structure Faithful (m : Type → Type) {κ : Type} [Monad m] [CursorState m κ] (contents : Contents)
    (shows : κ → Option Spot → Prop) : Prop where
  get : ∀ state spot request wantValue, shows state spot →
    Ensures ((CursorState.get (m := m) request wantValue).run state) fun outcome =>
      (∃ found, outcome.1 = .ok found ∧ found.map (Entry.wanted wantValue) =
        (contents.move spot request).bind (·.current? wantValue)) ∧
      shows outcome.2 (contents.move spot request)

/-! ## From one entry to the next -/

/-- A spot has the first of some entries, and the others are what comes after it. -/
def Opens (wantValues : Bool) (scope : Scope) (spot : Option Spot) : List Entry → Prop
  | [] => spot.bind (·.current? wantValues) = none
  | entry :: rest => ∃ s, spot = some s ∧ s.current? wantValues = some entry ∧
      (∀ b ∈ s.behind, b.2 ≠ []) ∧ rest = s.after wantValues scope

section Opens

variable {contents : Contents} {wantValues : Bool} {scope : Scope} {s : Spot}

/-- A walk that begins at the first key has the first entry of the contents there. -/
theorem opens_start? (h : ∀ b ∈ contents, b.2 ≠ []) (hopening : scope.opening = .first)
    (hkeys : scope = .keys → wantValues = false) :
    Opens wantValues scope contents.start? (contents.entries wantValues scope) := by
  cases contents with
  | nil =>
      cases scope with
      | pairs => rfl
      | valuesOf key => cases hopening
      | keys => rfl
  | cons b behind =>
      rcases b with ⟨key, values⟩
      have hbehind : ∀ b ∈ behind, b.2 ≠ [] := fun b hb => h b (List.mem_cons_of_mem _ hb)
      cases values with
      | nil => exact absurd rfl (h (key, []) (by simp))
      | cons value values =>
          cases scope with
          | pairs =>
              rw [Contents.entries_cons_pairs]
              exact ⟨_, rfl, rfl, hbehind, rfl⟩
          | valuesOf key' => cases hopening
          | keys =>
              rcases hkeys rfl with rfl
              exact ⟨_, rfl, rfl, hbehind, rfl⟩

theorem opens_seek (h : ∀ b ∈ contents, b.2 ≠ []) (key : Bytes) :
    Opens wantValues (.valuesOf key) (Contents.start? (contents.dropWhile (·.1 != key)))
      (contents.entries wantValues (.valuesOf key)) := by
  induction contents with
  | nil => rfl
  | cons b behind ih =>
      have hbehind : ∀ b ∈ behind, b.2 ≠ [] := fun b hb => h b (List.mem_cons_of_mem _ hb)
      rcases b with ⟨key', values⟩
      by_cases heq : key' = key
      · subst heq
        cases values with
        | nil => exact absurd rfl (h (key', []) (by simp))
        | cons value values =>
            have hentries : Contents.entries ((key', value :: values) :: behind) wantValues
                (.valuesOf key') = .ofPair wantValues key' value ::
                  values.map (.ofPair wantValues key') := by
              simp [Contents.entries, Contents.valuesOf]
            rw [hentries, List.dropWhile_cons]
            simp only [bne_self_eq_false, Bool.false_eq_true, if_false]
            exact ⟨_, rfl, rfl, hbehind, rfl⟩
      · have hentries : Contents.entries ((key', values) :: behind) wantValues (.valuesOf key) =
            Contents.entries behind wantValues (.valuesOf key) := by
          have hbeq : (key == key') = false := beq_eq_false_iff_ne.2 (Ne.symm heq)
          simp [Contents.entries, Contents.valuesOf, List.lookup_cons, hbeq]
        have hdrop : (key' != key) = true := by simpa using heq
        rw [hentries, List.dropWhile_cons, if_pos hdrop]
        exact ih hbehind

/-- The request that a walk begins with leads to its first entry. -/
theorem opens_opening (h : ∀ b ∈ contents, b.2 ≠ []) (hkeys : scope = .keys → wantValues = false)
    (spot : Option Spot) :
    Opens wantValues scope (contents.move spot scope.opening)
      (contents.entries wantValues scope) := by
  cases scope with
  | pairs => exact opens_start? h rfl hkeys
  | valuesOf key => exact opens_seek h key
  | keys => exact opens_start? h rfl hkeys

theorem opens_nextKey (h : ∀ b ∈ s.behind, b.2 ≠ []) :
    Opens false .keys (contents.move (some s) .nextKey) (s.after false .keys) :=
  opens_start? h rfl fun _ => rfl

theorem opens_nextValue (h : ∀ b ∈ s.behind, b.2 ≠ []) {key : Bytes} :
    Opens wantValues (.valuesOf key) (contents.move (some s) .nextValue)
      (s.after wantValues (.valuesOf key)) := by
  rcases s with ⟨k, remaining, behind⟩
  match remaining with
  | [] => rfl
  | [_] => rfl
  | _ :: _ :: _ => exact ⟨_, rfl, rfl, h, rfl⟩

/-- In a walk over all pairs the next entry has the next value, if there is one. -/
theorem opens_nextValue_pairs (h : ∀ b ∈ s.behind, b.2 ≠ []) (hne : s.remaining.tail ≠ []) :
    Opens wantValues .pairs (contents.move (some s) .nextValue) (s.after wantValues .pairs) := by
  rcases s with ⟨k, remaining, behind⟩
  match remaining with
  | [] => exact absurd rfl hne
  | [_] => exact absurd rfl hne
  | _ :: _ :: _ => exact ⟨_, rfl, rfl, h, rfl⟩

/-- Or else it has the first value of the next key. -/
theorem opens_nextKey_pairs (h : ∀ b ∈ s.behind, b.2 ≠ []) (hnil : s.remaining.tail = []) :
    Opens wantValues .pairs (contents.move (contents.move (some s) .nextValue) .nextKey)
      (s.after wantValues .pairs) := by
  have hafter : s.after wantValues .pairs = s.behind.entries wantValues .pairs := by
    rw [Spot.after, hnil, List.map_nil, List.nil_append]
  rw [hafter]
  exact opens_start? h rfl nofun

end Opens

/-! ## One request of a walk -/

variable [Monad m] [LawfulMonad m] [CursorState m κ] {contents : Contents}
  {shows : κ → Option Spot → Prop} {w : Walk κ} {spot : Option Spot} {s : Spot}
  {entries : List Entry}

/-- What is known after a request that led to a spot. -/
def Led (shows : κ → Option Spot → Prop) (w : Walk κ) (spot : Option Spot)
    (outcome : Except Error (Option Entry) × Walk κ) : Prop :=
  (∃ found, outcome.1 = .ok found ∧ found.map (Entry.wanted w.wantValues) =
    spot.bind (·.current? w.wantValues)) ∧
  ∃ cursor : Cursor κ, outcome.2 = { w with cursor } ∧ shows cursor.state spot

theorem Faithful.request (h : Faithful m contents shows) (hshows : shows w.cursor.state spot)
    (request : Request) :
    Ensures ((Walk.request (m := m) request).run w) (Led shows w (contents.move spot request)) := by
  have hcursor : Ensures ((Cursor.get (m := m) request w.wantValues).run w.cursor) fun outcome =>
      (∃ found, outcome.1 = .ok found ∧ found.map (Entry.wanted w.wantValues) =
        (contents.move spot request).bind (·.current? w.wantValues)) ∧
      shows outcome.2.state (contents.move spot request) := by
    apply (h.get w.cursor.state spot request w.wantValues hshows).bind
    rintro ⟨answer, state⟩ hanswer
    exact Ensures.pure hanswer
  apply hcursor.bind
  rintro ⟨answer, cursor⟩ ⟨hanswer, hshows'⟩
  exact Ensures.pure ⟨hanswer, cursor, rfl, hshows'⟩

/-- The step behind an entry leads to the next one, if there is one. -/
theorem Faithful.following (h : Faithful m contents shows) (hshows : shows w.cursor.state (some s))
    (hbehind : ∀ b ∈ s.behind, b.2 ≠ []) (hkeys : w.scope = .keys → w.wantValues = false) :
    Ensures ((Walk.following (m := m) w.scope).run w) fun outcome =>
      ∃ spot, Opens w.wantValues w.scope spot (s.after w.wantValues w.scope) ∧
        Led shows w spot outcome := by
  cases hscope : w.scope with
  | keys =>
      refine (h.request hshows .nextKey).mono fun outcome hled => ⟨_, ?_, hled⟩
      rw [hkeys hscope]
      exact opens_nextKey hbehind
  | valuesOf key =>
      refine (h.request hshows .nextValue).mono fun outcome hled => ⟨_, ?_, hled⟩
      exact opens_nextValue hbehind
  | pairs =>
      apply (h.request hshows .nextValue).bind
      rintro ⟨answer, w'⟩ ⟨⟨found, hanswer, hfound⟩, cursor, rfl, hcursor⟩
      cases hanswer
      by_cases htail : s.remaining.tail = []
      · -- The values have run out, so the next key is asked for.
        have hnone : found = none := by
          rw [Contents.move, Option.map_some, Option.bind_some, Spot.current?, htail] at hfound
          simpa using hfound
        subst hnone
        refine (h.request (w := { w with cursor }) hcursor .nextKey).mono ?_
        rintro ⟨answer, w'⟩ ⟨hanswer, cursor', rfl, hcursor'⟩
        exact ⟨_, opens_nextKey_pairs hbehind htail, hanswer, cursor', rfl, hcursor'⟩
      · have hopens : Opens w.wantValues .pairs (contents.move (some s) .nextValue)
            (s.after w.wantValues .pairs) := opens_nextValue_pairs hbehind htail
        cases found with
        | none =>
            rw [Contents.move, Option.map_some, Option.bind_some, Spot.current?] at hfound
            have hhead := Option.map_eq_none_iff.1 hfound.symm
            exact absurd (List.head?_eq_none_iff.1 hhead) htail
        | some entry =>
            exact Ensures.pure ⟨_, hopens, ⟨some entry, rfl, hfound⟩, cursor, rfl, hcursor⟩

/-! ## What a walk has still to give -/

/-- The entries that the cursor of a walk has not been asked for yet. -/
structure Left (contents : Contents) (shows : κ → Option Spot → Prop) (w : Walk κ)
    (entries : List Entry) : Prop where
  nonempty : ∀ b ∈ contents, b.2 ≠ []
  keys : w.scope = .keys → w.wantValues = false
  unopened : w.opened = false → shows w.cursor.state none ∧
    entries = contents.entries w.wantValues w.scope
  opened : w.opened = true → ∃ s, shows w.cursor.state (some s) ∧
    (∀ b ∈ s.behind, b.2 ≠ []) ∧ entries = s.after w.wantValues w.scope

/-- The entries that a walk has still to hand out. -/
inductive Stands (contents : Contents) (shows : κ → Option Spot → Prop) :
    Walk κ → List Entry → Prop where
  | unread {w : Walk κ} {entries : List Entry} : w.ahead = .unread →
      Left contents shows w entries → Stands contents shows w entries
  | entry {w : Walk κ} {entry : Entry} {rest : List Entry} : w.ahead = .entry entry →
      Left contents shows w rest → Stands contents shows w (entry :: rest)
  | nothing {w : Walk κ} : w.ahead = .nothing → Stands contents shows w []

theorem run_readOn : (Walk.readOn (m := m)).run w =
    if w.opened then (Walk.following (m := m) w.scope).run w
    else (Walk.request (m := m) w.scope.opening).run { w with opened := true } := by
  rw [Walk.readOn, Op.run_bind, Op.run_get, pure_bind]
  cases hopened : w.opened with
  | false =>
      simp only [hopened, Bool.false_eq_true, if_false]
      rw [Op.run_bind, Op.run_set, pure_bind]
  | true => simp only [hopened, if_true]

theorem Faithful.readOn (h : Faithful m contents shows) (hleft : Left contents shows w entries) :
    Ensures ((Walk.readOn (m := m)).run w) fun outcome =>
      ∃ spot, Opens w.wantValues w.scope spot entries ∧
        Led shows { w with opened := true } spot outcome := by
  rw [run_readOn]
  cases hopened : w.opened with
  | false =>
      rcases hleft.unopened hopened with ⟨hshows, rfl⟩
      rw [if_neg Bool.false_ne_true]
      refine (h.request (w := { w with opened := true }) hshows _).mono fun outcome hled =>
        ⟨_, ?_, hled⟩
      exact opens_opening hleft.nonempty hleft.keys none
  | true =>
      rcases hleft.opened hopened with ⟨s, hshows, hbehind, rfl⟩
      rw [if_pos rfl, ← hopened]
      exact h.following hshows hbehind hleft.keys

/-- Reading in advance takes nothing away. -/
theorem Faithful.peek (h : Faithful m contents shows) (hstands : Stands contents shows w entries) :
    Ensures (w.peek (m := m)) fun w' =>
      Stands contents shows w' entries ∧ w'.ahead ≠ .unread := by
  rw [Walk.peek]
  cases hstands with
  | entry hahead hleft =>
      rw [hahead]
      exact Ensures.pure ⟨.entry hahead hleft, by simp [hahead]⟩
  | nothing hahead =>
      rw [hahead]
      exact Ensures.pure ⟨.nothing hahead, by simp [hahead]⟩
  | unread hahead hleft =>
      rw [hahead]
      apply (h.readOn hleft).bind
      rintro ⟨answer, w'⟩ ⟨spot, hopens, ⟨found, hanswer, hfound⟩, cursor, rfl, hcursor⟩
      cases hanswer
      cases entries with
      | nil =>
          have hnone : found = none := Option.map_eq_none_iff.1 (hfound.trans hopens)
          subst hnone
          -- At the end the cursor is released, whatever that does.
          refine (ensures_true _).bind fun cursor _ => ?_
          exact Ensures.pure ⟨.nothing rfl, Ahead.noConfusion⟩
      | cons entry rest =>
          rcases hopens with ⟨s, rfl, hcurrent, hbehind, hrest⟩
          rw [Option.bind_some, hcurrent] at hfound
          rcases Option.map_eq_some_iff.1 hfound with ⟨given, rfl, hgiven⟩
          refine Ensures.pure ⟨?_, Ahead.noConfusion⟩
          refine .entry (congrArg Ahead.entry hgiven) ⟨hleft.nonempty, hleft.keys, ?_, ?_⟩
          · exact fun hopened => absurd hopened.symm Bool.false_ne_true
          · exact fun _ => ⟨s, hcursor, hbehind, hrest⟩

/-! ## The replies of a walk -/

/-- A call of a walk. -/
inductive Ask where
  | atEnd
  | next
  deriving DecidableEq, Repr

/-- The reply to a call. -/
inductive Reply where
  | atEnd (flag : Bool)
  | next (item : Option Walk.Item)

/-- Makes one call. -/
def Walk.reply (w : Walk κ) : Ask → m (Reply × Walk κ)
  | .atEnd => do
      let (flag, w) ← w.atEnd
      return (.atEnd flag, w)
  | .next => do
      let (item, w) ← w.next
      return (.next item, w)

/-- Makes some calls one after the other. -/
def Walk.replies : List Ask → Walk κ → m (List Reply × Walk κ)
  | [], w => return ([], w)
  | ask :: asks, w => do
      let (reply, w) ← w.reply ask
      let (replies, w) ← Walk.replies asks w
      return (reply :: replies, w)

/-- What the replies are while some entries are left. Asking for the end takes none of
them away. -/
def repliesOf : List Entry → List Ask → List Reply
  | _, [] => []
  | entries, .atEnd :: asks => .atEnd entries.isEmpty :: repliesOf entries asks
  | entries, .next :: asks => .next (entries.head?.map .ok) :: repliesOf entries.tail asks

theorem Faithful.atEnd (h : Faithful m contents shows)
    (hstands : Stands contents shows w entries) :
    Ensures (w.atEnd (m := m)) fun outcome =>
      outcome.1 = entries.isEmpty ∧ Stands contents shows outcome.2 entries := by
  apply (h.peek hstands).bind
  rintro w' ⟨hstands', hread⟩
  refine Ensures.pure ⟨?_, hstands'⟩
  cases hstands' with
  | unread hahead => exact absurd hahead hread
  | entry hahead => simp [hahead]
  | nothing hahead => simp [hahead]

theorem Faithful.next (h : Faithful m contents shows)
    (hstands : Stands contents shows w entries) :
    Ensures (w.next (m := m)) fun outcome =>
      outcome.1 = entries.head?.map .ok ∧ Stands contents shows outcome.2 entries.tail := by
  apply (h.peek hstands).bind
  rintro w' ⟨hstands', hread⟩
  cases hstands' with
  | unread hahead => exact absurd hahead hread
  | entry hahead hleft =>
      rw [hahead]
      refine Ensures.pure ⟨rfl, .unread rfl ?_⟩
      exact ⟨hleft.nonempty, hleft.keys, hleft.unopened, hleft.opened⟩
  | nothing hahead =>
      rw [hahead]
      exact Ensures.pure ⟨rfl, .nothing rfl⟩

theorem Faithful.replies (h : Faithful m contents shows)
    (hstands : Stands contents shows w entries) (asks : List Ask) :
    Ensures (Walk.replies (m := m) asks w) fun outcome => outcome.1 = repliesOf entries asks := by
  induction asks generalizing w entries with
  | nil => exact Ensures.pure rfl
  | cons ask asks ih =>
      have hreply : Ensures (w.reply (m := m) ask) fun outcome =>
          ∃ entries', Stands contents shows outcome.2 entries' ∧
            repliesOf entries (ask :: asks) = outcome.1 :: repliesOf entries' asks := by
        cases ask with
        | atEnd =>
            apply (h.atEnd hstands).bind
            rintro ⟨flag, w'⟩ ⟨rfl, hstands'⟩
            exact Ensures.pure ⟨entries, hstands', rfl⟩
        | next =>
            apply (h.next hstands).bind
            rintro ⟨item, w'⟩ ⟨rfl, hstands'⟩
            exact Ensures.pure ⟨entries.tail, hstands', rfl⟩
      apply hreply.bind
      rintro ⟨reply, w'⟩ ⟨entries', hstands', hreplies⟩
      apply (ih hstands').bind
      rintro ⟨replies, w''⟩ rfl
      exact Ensures.pure hreplies.symm

theorem Faithful.take (h : Faithful m contents shows)
    (hstands : Stands contents shows w entries) (limit : Nat) :
    Ensures (Walk.take (m := m) limit w) fun outcome =>
      outcome.1 = (entries.take limit).map .ok := by
  induction limit generalizing w entries with
  | zero => exact Ensures.pure (by simp)
  | succ limit ih =>
      apply (h.next hstands).bind
      rintro ⟨item, w'⟩ ⟨rfl, hstands'⟩
      cases entries with
      | nil => exact Ensures.pure rfl
      | cons entry rest =>
          apply (ih hstands').bind
          rintro ⟨items, w''⟩ rfl
          exact Ensures.pure rfl

theorem Faithful.drain (h : Faithful m contents shows)
    (hstands : Stands contents shows w entries)
    (hextent : entries.length ≤ CursorState.extent (m := m) w.cursor.state) :
    Ensures (w.drain (m := m)) fun items => items = entries.map .ok := by
  apply (h.take hstands _).bind
  rintro ⟨items, w'⟩ rfl
  refine (ensures_true _).bind fun _ _ => ?_
  exact Ensures.pure (by rw [List.take_of_length_le (Nat.le_add_right_of_le hextent)])

/-- A walk that has not begun has all entries still to hand out. -/
theorem stands_ofState (hnonempty : ∀ b ∈ contents, b.2 ≠ []) {state : κ}
    (hshows : shows state none) (scope : Scope) (wantValues : Bool) :
    Stands contents shows (.ofState scope wantValues state)
      (contents.entries wantValues scope) := by
  refine .unread rfl ⟨hnonempty, ?_, ?_, ?_⟩
  · rintro rfl
    simp [Walk.ofState]
  · intro _
    refine ⟨hshows, ?_⟩
    cases scope with
    | keys => rfl
    | pairs => exact congrArg (contents.entries · _) (Bool.and_true wantValues).symm
    | valuesOf key => exact congrArg (contents.entries · _) (Bool.and_true wantValues).symm
  · exact fun hopened => absurd hopened Bool.false_ne_true

/-- A walk hands out some entries and then comes to its end: its replies are those of
a list, and a loop that takes items as long as there are any gets them all. -/
def Enumerates (m : Type → Type) {κ : Type} [Monad m] [CursorState m κ] (w : Walk κ)
    (entries : List Entry) : Prop :=
  (∀ asks, Ensures (Walk.replies (m := m) asks w) fun outcome =>
    outcome.1 = repliesOf entries asks) ∧
  ∀ limit, Ensures (Walk.take (m := m) limit w) fun outcome =>
    outcome.1 = (entries.take limit).map .ok

theorem Faithful.enumerates (h : Faithful m contents shows)
    (hnonempty : ∀ b ∈ contents, b.2 ≠ []) {state : κ} (hshows : shows state none)
    (scope : Scope) (wantValues : Bool) :
    Enumerates m (.ofState scope wantValues state) (contents.entries wantValues scope) :=
  ⟨h.replies (stands_ofState hnonempty hshows scope wantValues),
    h.take (stands_ofState hnonempty hshows scope wantValues)⟩

end Multimap.Traversal
