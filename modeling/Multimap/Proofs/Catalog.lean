import Multimap.Catalog
import Multimap.Proofs.Effects

/-!
# Catalogs — what is known after any registrations

A catalog keeps its factories in two places, a list and an index of the names. Whatever
is registered, and however often a name is refused that is taken, the two say the same,
and they say what the registrations alone would tell.

* `Run` is a catalog together with the registrations that led to it and their answers;
* `Indexed`, that the index knows each factory of the list by its name, is kept by every
  registration (`Indexed.append`);
* `Consistent` puts everything that a catalog says in terms of the registrations, and
  holds after every run (`runs_consistent`).
-/

namespace Multimap.Catalog

variable {m : Type → Type} {σ : Type} {c : Catalog m σ} {factory : Factory m σ}

/-! ## Registrations -/

/-- A factory that was to be registered, and the answer. -/
abbrev Registration (m : Type → Type) (σ : Type) := Factory m σ × Except Misuse Unit

/-- A catalog that some registrations lead to, from none at all or from the standard
catalog. -/
inductive Run [Monad m] : List (Registration m σ) → Catalog m σ → Prop where
  | empty : Run [] .empty
  | standard {tuning : Chained.Tuning} {wrap : Chained.Table → σ} {first : Factory m σ}
      {c : Catalog m σ} : Chained.factory "memory" tuning wrap = .ok first →
      Catalog.standard tuning wrap = .ok c → Run [(first, .ok ())] c
  | register {history : List (Registration m σ)} {c : Catalog m σ} (factory : Factory m σ) :
      Run history c → Run (history ++ [(factory, (c.register factory).1)]) (c.register factory).2

/-- The names in the order in which they were given first. -/
def namesOf (history : List (Registration m σ)) : List String :=
  (history.map fun registration => registration.1.name).eraseDups

/-- The factory that was registered first under a name, or the last one that was
accepted. -/
def found? (history : List (Registration m σ)) : Option String → Option (Factory m σ)
  | some name => (history.map Prod.fst).find? (·.name == name)
  | none => ((history.filter (·.2.isOk)).map Prod.fst).getLast?

/-- The answer to a registration behind others: a name is given once. -/
def answerAfter (earlier : List (Registration m σ)) (name : String) : Except Misuse Unit :=
  if name ∈ namesOf earlier then .error (.duplicateFactory name) else .ok ()

/-! ## The list and the index -/

/-- The index knows the factories of the list by their names, and nothing else. -/
def Indexed (c : Catalog m σ) : Prop :=
  ∀ (name : String) (i : Nat),
    c.index[name]? = some i ↔ ∃ factory, c.factories[i]? = some factory ∧ factory.name = name

theorem indexed_empty : Indexed (.empty : Catalog m σ) := by
  intro name i
  simp [empty]

@[simp]
theorem names_append (c : Catalog m σ) (factory : Factory m σ) :
    (c.append factory).names = c.names ++ [factory.name] := by
  simp [names, append]

theorem Indexed.contains_iff (h : Indexed c) (name : String) :
    c.index.contains name = true ↔ name ∈ c.names := by
  rw [Std.HashMap.contains_eq_isSome_getElem?, Option.isSome_iff_exists, names, List.mem_map]
  constructor
  · intro hindex
    rcases hindex with ⟨i, hi⟩
    rcases (h name i).1 hi with ⟨factory, hfactory, hname⟩
    exact ⟨factory, Array.mem_toList_iff.2 (Array.mem_of_getElem? hfactory), hname⟩
  · intro hmem
    rcases hmem with ⟨factory, hfactory, hname⟩
    rcases Array.mem_iff_getElem?.1 (Array.mem_toList_iff.1 hfactory) with ⟨i, hi⟩
    exact ⟨i, (h name i).2 ⟨factory, hi, hname⟩⟩

theorem Indexed.register_of_mem (h : Indexed c) (hmem : factory.name ∈ c.names) :
    c.register factory = (.error (.duplicateFactory factory.name), c) :=
  if_pos ((h.contains_iff _).2 hmem)

theorem Indexed.register_of_notMem (h : Indexed c) (hnew : factory.name ∉ c.names) :
    c.register factory = (.ok (), c.append factory) :=
  if_neg fun hcontains => hnew ((h.contains_iff _).1 hcontains)

/-- A factory under a new name takes the next position in both places. -/
theorem Indexed.append (h : Indexed c) (hnew : factory.name ∉ c.names) :
    Indexed (c.append factory) := by
  intro name i
  rw [Catalog.append, Std.HashMap.getElem?_insert, Array.getElem?_push]
  by_cases hname : factory.name = name
  · -- The new name: nothing in the list had it, so only the new position does.
    subst hname
    have hother : ∀ other, c.factories[i]? = some other → other.name ≠ factory.name := by
      intro other hget heq
      have hmem : other ∈ c.factories.toList :=
        Array.mem_toList_iff.2 (Array.mem_of_getElem? hget)
      exact hnew (heq ▸ List.mem_map_of_mem hmem)
    by_cases hi : i = c.factories.size
    · simp [hi]
    · simp only [BEq.rfl, if_true, hi, if_false]
      constructor
      · intro hsome
        cases hsome
        exact absurd rfl hi
      · intro hget
        rcases hget with ⟨other, hget, heq⟩
        exact absurd heq (hother other hget)
  · have hbeq : (factory.name == name) = false := beq_eq_false_iff_ne.2 hname
    -- Another name: the new position is none of its own.
    rw [hbeq, if_neg Bool.false_ne_true, h name i]
    by_cases hi : i = c.factories.size
    · subst hi
      simp [hname]
    · rw [if_neg hi]

/-! ## Looking up -/

theorem Indexed.lookup?_eq_none (h : Indexed c) {name : String} (hnew : name ∉ c.names) :
    c.lookup? (some name) = none := by
  have hindex : c.index[name]? = none := by
    rw [← Option.not_isSome_iff_eq_none, ← Std.HashMap.contains_eq_isSome_getElem?]
    exact fun hcontains => hnew ((h.contains_iff name).1 hcontains)
  rw [lookup?, hindex]
  rfl

theorem Indexed.lookup?_append (h : Indexed c) (hnew : factory.name ∉ c.names) (name : String) :
    (c.append factory).lookup? (some name) =
      (c.lookup? (some name)).or (if factory.name == name then some factory else none) := by
  by_cases hname : factory.name = name
  · subst hname
    rw [h.lookup?_eq_none hnew]
    simp [lookup?, Catalog.append]
  · have hbeq : (factory.name == name) = false := beq_eq_false_iff_ne.2 hname
    simp only [lookup?, Catalog.append, Std.HashMap.getElem?_insert, hbeq,
      if_neg Bool.false_ne_true, Option.or_none]
    cases hindex : c.index[name]? with
    | none => rfl
    | some i =>
        rcases (h name i).1 hindex with ⟨other, hget, -⟩
        have hi : i < c.factories.size := (Array.getElem?_eq_some_iff.1 hget).1
        simp [Array.getElem?_push, Nat.ne_of_lt hi]

theorem Indexed.lookup?_isSome (h : Indexed c) {name : String} (hmem : name ∈ c.names) :
    (c.lookup? (some name)).isSome := by
  rcases List.mem_map.1 hmem with ⟨factory, hfactory, hname⟩
  rcases Array.mem_iff_getElem?.1 (Array.mem_toList_iff.1 hfactory) with ⟨i, hi⟩
  have hindex := (h name i).2 ⟨factory, hi, hname⟩
  simp [lookup?, hindex, hi]

/-! ## One registration more -/

section Steps

variable {history : List (Registration m σ)}

theorem namesOf_concat (history : List (Registration m σ)) (last : Registration m σ) :
    namesOf (history ++ [last]) =
      if last.1.name ∈ namesOf history then namesOf history
      else namesOf history ++ [last.1.name] := by
  rw [namesOf, List.map_append, List.eraseDups_append]
  by_cases hmem : last.1.name ∈ namesOf history
  · rw [if_pos hmem]
    have hlater := List.mem_eraseDups.1 hmem
    simp [List.removeAll, hlater, namesOf]
  · rw [if_neg hmem]
    have hfirst := fun hlater => hmem (List.mem_eraseDups.2 hlater)
    rw [List.map_singleton, List.removeAll, List.filter_cons_of_pos (by simpa using hfirst)]
    simp [List.eraseDups_cons, namesOf]

theorem found?_concat (history : List (Registration m σ)) (last : Registration m σ)
    (name : String) :
    found? (history ++ [last]) (some name) =
      (found? history (some name)).or (if last.1.name == name then some last.1 else none) := by
  rw [found?, List.map_append, List.find?_append]
  cases hname : last.1.name == name <;> simp [found?, hname]

/-- Every registration was answered as its place among the others demands. -/
def Answered (history : List (Registration m σ)) : Prop :=
  ∀ earlier registration later, history = earlier ++ registration :: later →
    registration.2 = answerAfter earlier registration.1.name

theorem Answered.concat (h : Answered history) {last : Registration m σ}
    (hlast : last.2 = answerAfter history last.1.name) : Answered (history ++ [last]) := by
  intro earlier registration later heq
  -- Either the registration is the last one, or the last one comes later.
  rcases List.eq_nil_or_concat later with rfl | ⟨between, final, rfl⟩
  · rcases List.append_inj' heq rfl with ⟨rfl, hsame⟩
    cases hsame
    exact hlast
  · rw [List.concat_eq_append, ← List.cons_append, ← List.append_assoc] at heq
    exact h earlier registration between (List.append_inj' heq rfl).1

/-- A catalog holds what was registered: the factories that were accepted, each found
under the name that it was the first to have. -/
structure Recorded (history : List (Registration m σ)) (c : Catalog m σ) : Prop where
  /-- The index points at each factory by its name, and at nothing else. -/
  indexed : Indexed c
  factories_eq : c.factories.toList = (history.filter (·.2.isOk)).map Prod.fst
  names_eq : c.names = namesOf history
  lookup_name_eq : ∀ name, c.lookup? (some name) = found? history (some name)
  /-- A registration was refused where its name had been given before, and only there. -/
  answered : Answered history

theorem recorded_empty : Recorded [] (.empty : Catalog m σ) where
  indexed := indexed_empty
  factories_eq := rfl
  names_eq := rfl
  lookup_name_eq _ := indexed_empty.lookup?_eq_none List.not_mem_nil
  answered _ _ _ heq := by simp at heq

/-- A registration that is refused leaves the catalog as it is. -/
theorem Recorded.refuse (h : Recorded history c) (hmem : factory.name ∈ c.names) :
    Recorded (history ++ [(factory, .error (.duplicateFactory factory.name))]) c where
  indexed := h.indexed
  factories_eq := by simpa [Except.isOk, Except.toBool] using h.factories_eq
  names_eq := by rw [namesOf_concat, if_pos (h.names_eq ▸ hmem), h.names_eq]
  lookup_name_eq name := by
    rw [found?_concat, ← h.lookup_name_eq name]
    by_cases hname : factory.name = name
    · -- The first factory of the name is found as before.
      subst hname
      rw [Option.or_of_isSome (h.indexed.lookup?_isSome hmem)]
    · rw [if_neg (by simpa using hname), Option.or_none]
  answered := h.answered.concat (if_pos (h.names_eq ▸ hmem)).symm

theorem Recorded.accept (h : Recorded history c) (hnew : factory.name ∉ c.names) :
    Recorded (history ++ [(factory, .ok ())]) (c.append factory) where
  indexed := h.indexed.append hnew
  factories_eq := by simpa [append, Except.isOk, Except.toBool] using h.factories_eq
  names_eq := by rw [namesOf_concat, if_neg (h.names_eq ▸ hnew), names_append, h.names_eq]
  lookup_name_eq name := by
    rw [found?_concat, ← h.lookup_name_eq name, h.indexed.lookup?_append hnew]
  answered := h.answered.concat (if_neg (h.names_eq ▸ hnew)).symm

theorem Recorded.register (h : Recorded history c) (factory : Factory m σ) :
    Recorded (history ++ [(factory, (c.register factory).1)]) (c.register factory).2 := by
  by_cases hmem : factory.name ∈ c.names
  · rw [h.indexed.register_of_mem hmem]
    exact h.refuse hmem
  · rw [h.indexed.register_of_notMem hmem]
    exact h.accept hmem

variable [Monad m]

/-- The standard catalog is the one with a single registration. -/
theorem standard_eq {tuning : Chained.Tuning} {wrap : Chained.Table → σ}
    (hfactory : Chained.factory "memory" tuning wrap = .ok factory) :
    Catalog.standard tuning wrap = .ok (empty.append factory) := by
  rw [standard, hfactory]
  rfl

theorem Run.recorded (h : Run history c) : Recorded history c := by
  induction h with
  | empty => exact recorded_empty
  | standard hfactory hstandard =>
      rw [standard_eq hfactory] at hstandard
      cases hstandard
      exact recorded_empty.accept List.not_mem_nil
  | register factory hrun ih => exact ih.register factory

end Steps

/-! ## What a catalog says -/

/-- Everything that a catalog says, in terms of the registrations that led to it. -/
structure Consistent [Monad m] (history : List (Registration m σ)) (c : Catalog m σ) : Prop
    extends Recorded history c where
  size_eq : c.size = (namesOf history).length
  isEmpty_iff : c.isEmpty = true ↔ namesOf history = []
  lookup_eq : ∀ name, c.lookup? name = found? history name
  /-- What is found was accepted. -/
  lookup_accepted : ∀ name factory, c.lookup? name = some factory → (factory, .ok ()) ∈ history
  /-- A handle is made by the factory that is found, which it keeps. -/
  handle_eq : ∀ name, c.handle? name = (found? history name).map Handle.create
  handle_factory : ∀ name fresh, c.handle? name = some fresh → Yields fresh fun h =>
    some h.factory = found? history name ∧ h.identifier = none ∧ h.isOpen = false
  /-- Its store is what that factory creates, and it fails where the factory does. -/
  handle_store : ∀ name fresh, c.handle? name = some fresh →
    ∃ factory, found? history name = some factory ∧ Handle.store <$> fresh = factory.create
  /-- A registration under a name that was given before changes nothing at all. -/
  refused : ∀ factory : Factory m σ, factory.name ∈ namesOf history →
    c.register factory = (.error (.duplicateFactory factory.name), c)
  accepted : ∀ factory : Factory m σ, factory.name ∉ namesOf history →
    (c.register factory).1 = .ok ()

section Results

variable {history : List (Registration m σ)} [Monad m]

omit [Monad m] in
theorem Recorded.lookup_eq (h : Recorded history c) (name : Option String) :
    c.lookup? name = found? history name := by
  cases name with
  | some name => exact h.lookup_name_eq name
  | none => rw [lookup?, ← Array.getLast?_toList, h.factories_eq, found?]

omit [Monad m] in
theorem Recorded.lookup_accepted (h : Recorded history c) {name : Option String}
    (hlookup : c.lookup? name = some factory) : (factory, .ok ()) ∈ history := by
  have hmem : factory ∈ c.factories.toList := by
    cases name with
    | none =>
        rw [lookup?, ← Array.getLast?_toList] at hlookup
        exact List.mem_of_getLast? hlookup
    | some name =>
        rcases Option.bind_eq_some_iff.1 hlookup with ⟨i, -, hget⟩
        exact Array.mem_toList_iff.2 (Array.mem_of_getElem? hget)
  rw [h.factories_eq] at hmem
  rcases List.mem_map.1 hmem with ⟨⟨given, answer⟩, hfilter, rfl⟩
  rcases List.mem_filter.1 hfilter with ⟨hmem, hok⟩
  cases answer with
  | error misuse => cases hok
  | ok _ => exact hmem

/-- A handle comes from the factory that is found. -/
theorem Recorded.exists_create (h : Recorded history c) {name : Option String}
    {fresh : Query m (Handle m σ)} (hfresh : c.handle? name = some fresh) :
    ∃ factory, found? history name = some factory ∧ Handle.create factory = fresh := by
  rw [handle?, h.lookup_eq] at hfresh
  exact Option.map_eq_some_iff.1 hfresh

theorem yields_create [LawfulMonad m] (factory : Factory m σ) :
    Yields (Handle.create factory) fun h =>
      h.factory = factory ∧ h.identifier = none ∧ h.isOpen = false :=
  (yields_true factory.create).bind fun _ _ => .pure ⟨rfl, rfl, rfl⟩

theorem store_create [LawfulMonad m] (factory : Factory m σ) :
    Handle.store <$> Handle.create factory = factory.create := by
  rw [Handle.create, map_bind]
  simp only [map_pure, bind_pure]

/-- Whatever was registered, under new names or under names that are taken, a catalog says
what the registrations tell. -/
theorem runs_consistent [LawfulMonad m] (hrun : Run history c) : Consistent history c := by
  have h := hrun.recorded
  refine { h with
    size_eq := ?_, isEmpty_iff := ?_, lookup_eq := h.lookup_eq, lookup_accepted := ?_,
    handle_eq := ?_, handle_factory := ?_, handle_store := ?_, refused := ?_, accepted := ?_ }
  · rw [← h.names_eq, names, List.length_map, Array.length_toList, size]
  · rw [← h.names_eq, names, List.map_eq_nil_iff, Array.toList_eq_nil_iff]
    exact Array.isEmpty_iff
  · exact fun name factory => h.lookup_accepted
  · intro name
    rw [handle?, h.lookup_eq]
  · intro name fresh hfresh
    rcases h.exists_create hfresh with ⟨factory, hfound, rfl⟩
    rw [hfound]
    exact (yields_create factory).mono fun _ hanswer h heq =>
      (hanswer h heq).imp_left (congrArg some)
  · intro name fresh hfresh
    rcases h.exists_create hfresh with ⟨factory, hfound, rfl⟩
    exact ⟨factory, hfound, store_create factory⟩
  · exact fun factory hmem => h.indexed.register_of_mem (h.names_eq ▸ hmem)
  · intro factory hnew
    rw [h.indexed.register_of_notMem (h.names_eq ▸ hnew)]

/-- A second factory called `memory` is refused, and the first one is still found. -/
theorem consistent_behind_refusal :
    let first : Factory Id Chained.Table :=
      { name := "memory", storeSize := Chained.tableSize, cursorSize := Chained.cursorSize,
        create := pure .standard }
    let other := { first with name := "other" }
    let again := { first with storeSize := 0 }
    let history := [(first, .ok ()), (other, .ok ()), (again, .error (.duplicateFactory "memory"))]
    let c := (((empty.append first).register other).2.register again).2
    Run history c ∧ Consistent history c ∧ c.names = ["memory", "other"] ∧
      (c.lookup? (some "memory")).map Factory.storeSize = some Chained.tableSize := by
  intro first other again history c
  have hfirst : Run [(first, .ok ())] (empty.append first) :=
    @Run.standard _ _ _ {} id _ _ rfl rfl
  have hadded : (empty.append first).register other = (.ok (), (empty.append first).append other) :=
    hfirst.recorded.indexed.register_of_notMem (by decide)
  have hrefused : ((empty.append first).register other).2.register again =
      (.error (.duplicateFactory "memory"), ((empty.append first).register other).2) :=
    (hfirst.register other).recorded.indexed.register_of_mem (by rw [hadded]; decide)
  have hhistory : history = [(first, .ok ())] ++
      [(other, ((empty.append first).register other).1)] ++
      [(again, (((empty.append first).register other).2.register again).1)] := by
    rw [hrefused, hadded]
    rfl
  have hrun : Run history c := by
    rw [hhistory]
    exact (hfirst.register other).register again
  have hconsistent := runs_consistent hrun
  refine ⟨hrun, hconsistent, hconsistent.names_eq, ?_⟩
  rw [hconsistent.lookup_eq]
  rfl

end Results

end Multimap.Catalog
