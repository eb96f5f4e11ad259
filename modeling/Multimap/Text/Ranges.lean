/-!
# Sets of code points

A property of characters is kept as the inclusive ranges of the code points that
have it, ascending and apart, and is looked up by halving the ranges that are left.

Main definitions:
1. `Ranges`, a set of code points;
2. `Ranges.contains`, the look-up.

`contains_iff` says that a code point is found exactly when one of the ranges
holds it.
-/

namespace Multimap.Text

/-- No range is empty, and a gap stands between each of them and the next. -/
def ascending : List (Nat × Nat) → Bool
  | [] => true
  | [(least, greatest)] => least ≤ greatest
  | (least, greatest) :: (next, last) :: rest =>
      least ≤ greatest && greatest + 1 < next && ascending ((next, last) :: rest)

/-- A set of code points, as ascending inclusive ranges. -/
structure Ranges where
  /-- The least and the greatest code point of each range. -/
  spans : Array (Nat × Nat)
  /-- The order that the look-up relies on. -/
  spans_ascending : ascending spans.toList = true := by decide +kernel

namespace Ranges

/-! ## Look-up -/

/-- Whether a range at a position from `lo` up to, but not including, `hi` holds
the code point. -/
def search (spans : Array (Nat × Nat)) (c lo hi : Nat) (bound : hi ≤ spans.size) : Bool :=
  if h : lo < hi then
    let mid := lo + (hi - lo) / 2
    if c < spans[mid].1 then search spans c lo mid (by omega)
    else if spans[mid].2 < c then search spans c (mid + 1) hi bound
    else true
  else
    false
termination_by hi - lo

/-- Whether a code point belongs to the set. -/
def contains (r : Ranges) (c : Nat) : Bool :=
  search r.spans c 0 r.spans.size (Nat.le_refl _)

/-! ## What the look-up finds -/

/-- A range that precedes another lies below it. -/
theorem pairwise_of_ascending {spans : List (Nat × Nat)} (h : ascending spans = true) :
    spans.Pairwise fun r s => r.1 ≤ r.2 ∧ r.2 < s.1 := by
  fun_induction ascending spans with
  | case1 => exact .nil
  | case2 => simp
  | case3 least greatest next last rest ih =>
    simp only [Bool.and_eq_true, decide_eq_true_eq] at h
    have later := ih h.2
    have nonempty : next ≤ last := by
      cases rest <;> simp_all [ascending]
    refine .cons (fun s hs => ?_) later
    rcases List.mem_cons.mp hs with rfl | hs
    · simp only
      omega
    -- whatever follows the next range begins above its end
    · have := ((List.pairwise_cons.mp later).1 s hs).2
      simp only at this ⊢
      omega

/-- The same, by position. -/
theorem below_of_ascending {spans : Array (Nat × Nat)} (sorted : ascending spans.toList = true)
    {i j : Nat} (hij : i < j) (hj : j < spans.size) :
    spans[i].1 ≤ spans[i].2 ∧ spans[i].2 < spans[j].1 := by
  have := List.pairwise_iff_getElem.mp (pairwise_of_ascending sorted) i j
    (by simpa using Nat.lt_trans hij hj) (by simpa using hj) hij
  simpa using this

/-- What is found lies in one of the ranges, in whatever order they stand. -/
theorem exists_of_search {spans : Array (Nat × Nat)} {c lo hi : Nat} {bound : hi ≤ spans.size}
    (h : search spans c lo hi bound = true) : ∃ s ∈ spans, s.1 ≤ c ∧ c ≤ s.2 := by
  fun_induction search spans c lo hi bound with
  | case1 lo hi bound hlt mid hc ih => exact ih h
  | case2 lo hi bound hlt mid hc hd ih => exact ih h
  | case3 lo hi bound hlt mid hc hd =>
    exact ⟨spans[mid], Array.getElem_mem _, Nat.le_of_not_lt hc, Nat.le_of_not_lt hd⟩
  | case4 => simp at h

/-- Among ascending ranges, a position whose range holds the code point is not passed by. -/
theorem search_of_getElem {spans : Array (Nat × Nat)} (sorted : ascending spans.toList = true)
    {c lo hi k : Nat} {bound : hi ≤ spans.size} (hk : k < spans.size) (hlo : lo ≤ k)
    (hhi : k < hi) (least : spans[k].1 ≤ c) (greatest : c ≤ spans[k].2) :
    search spans c lo hi bound = true := by
  fun_induction search spans c lo hi bound with
  | case1 lo hi bound hlt mid hc ih =>
    -- the code point is below the middle range, hence below all that follow it
    refine ih hlo (Nat.lt_of_not_le fun hmk => ?_)
    rcases Nat.lt_or_eq_of_le hmk with hmk | rfl
    · have := below_of_ascending sorted hmk (by omega)
      omega
    · omega
  | case2 lo hi bound hlt mid hc hd ih =>
    -- the code point is above the middle range, hence above all that precede it
    refine ih (Nat.lt_of_not_le fun hkm => ?_) hhi
    rcases Nat.lt_or_eq_of_le hkm with hkm | rfl
    · have := below_of_ascending sorted hkm (by omega)
      omega
    · omega
  | case3 => rfl
  | case4 lo hi bound hlt => omega

/-- A code point belongs to the set exactly when one of the ranges holds it. -/
theorem contains_iff {r : Ranges} {c : Nat} :
    r.contains c = true ↔ ∃ s ∈ r.spans, s.1 ≤ c ∧ c ≤ s.2 := by
  constructor
  · exact exists_of_search
  · rintro ⟨s, hs, least, greatest⟩
    obtain ⟨k, hk, rfl⟩ := Array.mem_iff_getElem.mp hs
    exact search_of_getElem r.spans_ascending hk (Nat.zero_le k) hk least greatest

end Ranges

end Multimap.Text
