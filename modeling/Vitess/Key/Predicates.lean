import Vitess.Key.Span

/-!
# The key-range predicates against the ids they denote

Each predicate of `key.go` is first read as a comparison of interval ends
(`keyRangeIntersect_iff`, `keyRangeContainsKeyRange_iff`, `keyRangeAdd_cases`);
the ends are then compared with the sets of ids of the two ranges
(`exists_common_id_iff`, `forall_ids_iff`, `span_union`). The empty-bound
branches of the Go code all land in the same statements: an empty `Start` is
the empty point, an empty `End` is `⊤`.
-/

namespace Vitess.Key

/-! ### Bounds as points -/

theorem start_isMinimum_iff (keyRange : Option KeyRange) :
    (keyRange.all fun kr => empty kr.Start) = true ↔ keyPoint (rangeStart keyRange) = [] := by
  cases keyRange <;> simp [keyPoint_eq_nil_iff]

theorem end_isMaximum_iff (keyRange : Option KeyRange) :
    (keyRange.all fun kr => empty kr.End) = true ↔ endPoint keyRange = ⊤ := by
  cases keyRange with
  | none => simp
  | some kr => cases isEmpty : empty kr.End <;> simp [endBound, isEmpty]

/-- An end that is not `⊤` is the point of some id. -/
theorem endPoint_cases (keyRange : Option KeyRange) :
    endPoint keyRange = ⊤ ∨ ∃ bound, endPoint keyRange = ↑(keyPoint bound) := by
  cases keyRange with
  | none => exact Or.inl rfl
  | some kr =>
    cases isEmpty : empty kr.End
    · exact Or.inr ⟨kr.End, by simp [endBound, isEmpty]⟩
    · exact Or.inl (by simp [endBound, isEmpty])

theorem less_test_iff (bound id : Bytes) :
    (empty bound || less id bound) = true ↔ ↑(keyPoint id) < endBound bound := by
  simpa [less] using end_test_iff bound id

/-! ### The Go predicates as comparisons of interval ends -/

/-- `KeyRangeStartCompare(a, b) >= 0` compares the starts as points. -/
theorem keyRangeStartCompare_nonneg_iff (a b : Option KeyRange) :
    0 ≤ keyRangeStartCompare a b ↔ startPoint b ≤ startPoint a := by
  have aMinimum := start_isMinimum_iff a
  have bMinimum := start_isMinimum_iff b
  simp only [keyRangeStartCompare, startPoint, WithTop.coe_le_coe]
  cases aFlag : (a.all fun kr => empty kr.Start) <;>
    cases bFlag : (b.all fun kr => empty kr.Start)
  · simp [compare_nonneg_iff, rangeStart]
  · simp [bMinimum.mp bFlag]
  · have aBottom := aMinimum.mp aFlag
    have bAbove : keyPoint (rangeStart b) ≠ [] := fun atBottom => by
      simp [bMinimum.mpr atBottom] at bFlag
    simp [aBottom, points_le_nil_iff, bAbove]
  · simp [bMinimum.mp bFlag]

/-- `KeyRangeEndCompare(a, b) <= 0` compares the ends, `⊤` for an empty `End`. -/
theorem keyRangeEndCompare_nonpos_iff (a b : Option KeyRange) :
    keyRangeEndCompare a b ≤ 0 ↔ endPoint a ≤ endPoint b := by
  have aMaximum := end_isMaximum_iff a
  have bMaximum := end_isMaximum_iff b
  simp only [keyRangeEndCompare]
  cases aFlag : (a.all fun kr => empty kr.End) <;>
    cases bFlag : (b.all fun kr => empty kr.End)
  · have aFinite : endPoint a ≠ ⊤ := fun atTop => by simp [aMaximum.mpr atTop] at aFlag
    have bFinite : endPoint b ≠ ⊤ := fun atTop => by simp [bMaximum.mpr atTop] at bFlag
    cases a with
    | none => exact absurd rfl aFinite
    | some ka =>
      cases b with
      | none => exact absurd rfl bFinite
      | some kb =>
        have aNotEmpty : empty ka.End = false := by simpa using aFlag
        have bNotEmpty : empty kb.End = false := by simpa using bFlag
        simp [endBound, aNotEmpty, bNotEmpty, compare_nonpos_iff]
  · simp [bMaximum.mp bFlag]
  · have aTop := aMaximum.mp aFlag
    have bFinite : endPoint b ≠ ⊤ := fun atTop => by simp [bMaximum.mpr atTop] at bFlag
    simp [aTop, bFinite]
  · simp [aMaximum.mp aFlag, bMaximum.mp bFlag]

/-- `KeyRangeIntersect` of well-formed ranges is the interval overlap test. -/
theorem keyRangeIntersect_iff {a b : Option KeyRange}
    (wellFormedA : WellFormed a) (wellFormedB : WellFormed b) :
    keyRangeIntersect a b = true ↔ startPoint b < endPoint a ∧ startPoint a < endPoint b := by
  have nonemptyA := startPoint_lt_endPoint wellFormedA
  have nonemptyB := startPoint_lt_endPoint wellFormedB
  -- A complete range starts at the bottom and ends at `⊤`: the test then only
  -- needs the other range to be nonempty.
  have completeLeft : keyRangeIsComplete a = true →
      (startPoint b < endPoint a ∧ startPoint a < endPoint b) := by
    intro complete
    obtain ⟨atBottom, atTop⟩ := (keyRangeIsComplete_iff a).mp complete
    rw [atBottom, atTop]
    exact ⟨startPoint_lt_top b,
      lt_of_le_of_lt (WithTop.coe_le_coe.mpr (nil_le_keyPoint _)) nonemptyB⟩
  have completeRight : keyRangeIsComplete b = true →
      (startPoint b < endPoint a ∧ startPoint a < endPoint b) := by
    intro complete
    obtain ⟨atBottom, atTop⟩ := (keyRangeIsComplete_iff b).mp complete
    rw [atBottom, atTop]
    exact ⟨lt_of_le_of_lt (WithTop.coe_le_coe.mpr (nil_le_keyPoint _)) nonemptyA,
      startPoint_lt_top a⟩
  cases a with
  | none => simpa [keyRangeIntersect] using completeLeft rfl
  | some ka =>
    cases b with
    | none => simpa [keyRangeIntersect] using completeRight rfl
    | some kb =>
      by_cases complete : keyRangeIsComplete (some ka) = true ∨ keyRangeIsComplete (some kb) = true
      · have holds := complete.elim completeLeft completeRight
        have flag : (keyRangeIsComplete (some ka) || keyRangeIsComplete (some kb)) = true := by
          simpa using complete
        have intersects : keyRangeIntersect (some ka) (some kb) = true := by
          simp only [keyRangeIntersect, flag, if_true]
        exact iff_of_true intersects holds
      · have flag : (keyRangeIsComplete (some ka) || keyRangeIsComplete (some kb)) = false := by
          simpa using complete
        simp only [keyRangeIntersect, flag, Bool.false_eq_true, if_false, Bool.and_eq_true,
          less_test_iff, endPoint_some, startPoint, rangeStart_some]

/-- `KeyRangeContainsKeyRange` compares both ends, given a nonempty `b`. -/
theorem keyRangeContainsKeyRange_iff (a : Option KeyRange) {b : Option KeyRange}
    (wellFormedB : WellFormed b) :
    keyRangeContainsKeyRange a b = true ↔
      startPoint a ≤ startPoint b ∧ endPoint b ≤ endPoint a := by
  have nonemptyB := startPoint_lt_endPoint wellFormedB
  by_cases completeA : keyRangeIsComplete a = true
  · obtain ⟨atBottom, atTop⟩ := (keyRangeIsComplete_iff a).mp completeA
    rw [atBottom, atTop]
    simp [keyRangeContainsKeyRange, completeA, startPoint]
  · by_cases completeB : keyRangeIsComplete b = true
    · -- `b` is everything, so `a` would have to be complete as well.
      obtain ⟨atBottom, atTop⟩ := (keyRangeIsComplete_iff b).mp completeB
      have notBoth : startPoint a ≤ ↑([] : List ℕ) → endPoint a ≠ ⊤ := by
        intro startBelow endAtTop
        apply completeA
        refine (keyRangeIsComplete_iff a).mpr ⟨?_, endAtTop⟩
        have startNil : keyPoint (rangeStart a) = [] :=
          points_le_nil_iff.mp (WithTop.coe_le_coe.mp startBelow)
        simp [startPoint, startNil]
      simpa [keyRangeContainsKeyRange, completeA, completeB, atBottom, atTop] using notBoth
    · simp [keyRangeContainsKeyRange, completeA, completeB,
        keyRangeStartCompare_nonneg_iff, keyRangeEndCompare_nonpos_iff]

/-- What `KeyRangeAdd` returns when it succeeds: the outer bounds of two ranges
whose inner bounds are the same nonempty id. -/
theorem keyRangeAdd_cases {a b : Option KeyRange} {c : KeyRange}
    (added : keyRangeAdd a b = (some c, true)) :
    ∃ ka kb, a = some ka ∧ b = some kb ∧
      ((empty ka.End = false ∧ equal ka.End kb.Start = true ∧ c = ⟨ka.Start, kb.End⟩) ∨
        (empty kb.End = false ∧ equal kb.End ka.Start = true ∧ c = ⟨kb.Start, ka.End⟩)) := by
  cases a with
  | none => simp [keyRangeAdd] at added
  | some ka =>
    cases b with
    | none => simp [keyRangeAdd] at added
    | some kb =>
      refine ⟨ka, kb, rfl, rfl, ?_⟩
      simp only [keyRangeAdd] at added
      split_ifs at added with first second
      · simp only [Bool.and_eq_true, Bool.not_eq_true'] at first
        exact Or.inl ⟨first.1, first.2, (Option.some.inj (Prod.mk.inj added).1).symm⟩
      · simp only [Bool.and_eq_true, Bool.not_eq_true'] at second
        exact Or.inr ⟨second.1, second.2, (Option.some.inj (Prod.mk.inj added).1).symm⟩
      · simp at added

/-! ### Interval ends against the sets of ids -/

/-- Two nonempty ranges share an id exactly when each starts before the other
ends; the later of the two starts is then such an id. -/
theorem exists_common_id_iff {a b : Option KeyRange}
    (nonemptyA : startPoint a < endPoint a) (nonemptyB : startPoint b < endPoint b) :
    (∃ id, ↑(keyPoint id) ∈ span a ∧ ↑(keyPoint id) ∈ span b) ↔
      startPoint b < endPoint a ∧ startPoint a < endPoint b := by
  constructor
  · rintro ⟨id, ⟨aBelow, aAbove⟩, ⟨bBelow, bAbove⟩⟩
    exact ⟨lt_of_le_of_lt bBelow aAbove, lt_of_le_of_lt aBelow bAbove⟩
  · rintro ⟨bBeforeA, aBeforeB⟩
    rcases le_total (startPoint a) (startPoint b) with aFirst | bFirst
    · exact ⟨rangeStart b, ⟨aFirst, bBeforeA⟩, ⟨le_refl _, nonemptyB⟩⟩
    · exact ⟨rangeStart a, ⟨le_refl _, nonemptyA⟩, ⟨bFirst, aBeforeB⟩⟩

/-- Every id of a nonempty `b` is in `a` exactly when `a` starts no later and
ends no earlier. When `a` ends first, the later of its end and `b`'s start is an
id of `b` outside `a`. -/
theorem forall_ids_iff {a b : Option KeyRange} (nonemptyB : startPoint b < endPoint b) :
    (∀ id, ↑(keyPoint id) ∈ span b → ↑(keyPoint id) ∈ span a) ↔
      startPoint a ≤ startPoint b ∧ endPoint b ≤ endPoint a := by
  constructor
  · intro inside
    have startInside := inside (rangeStart b) ⟨le_refl _, nonemptyB⟩
    refine ⟨startInside.1, ?_⟩
    by_contra endsLater
    have aEndsFirst : endPoint a < endPoint b := lt_of_not_ge endsLater
    rcases endPoint_cases a with atTop | ⟨bound, atBound⟩
    · rw [atTop] at aEndsFirst
      exact not_top_lt aEndsFirst
    · rcases le_total (endPoint a) (startPoint b) with aEndsBefore | aEndsAfter
      · exact absurd startInside.2 (not_lt.mpr aEndsBefore)
      · have boundInB : ↑(keyPoint bound) ∈ span b :=
          ⟨atBound ▸ aEndsAfter, atBound ▸ aEndsFirst⟩
        have boundBelowEnd := (inside bound boundInB).2
        rw [← atBound] at boundBelowEnd
        exact lt_irrefl _ boundBelowEnd
  · rintro ⟨startsBefore, endsAfter⟩ id ⟨idAbove, idBelow⟩
    exact ⟨le_trans startsBefore idAbove, lt_of_lt_of_le idBelow endsAfter⟩

/-- Two nonempty ranges that meet join into one: `[s, m) ∪ [m, e) = [s, e)`. -/
theorem span_join {a b : Option KeyRange} {c : KeyRange}
    (nonemptyA : startPoint a < endPoint a) (nonemptyB : startPoint b < endPoint b)
    (meet : endPoint a = startPoint b) (start : startPoint (some c) = startPoint a)
    (stop : endPoint (some c) = endPoint b) :
    span (some c) = span a ∪ span b := by
  rw [span, span, span, start, stop, ← meet]
  exact (Set.Ico_union_Ico_eq_Ico nonemptyA.le (meet ▸ nonemptyB.le)).symm

/-- The range `KeyRangeAdd` returns holds the ids of both of its arguments. -/
theorem keyRangeAdd_span {a b : Option KeyRange} {c : KeyRange}
    (added : keyRangeAdd a b = (some c, true))
    (nonemptyA : startPoint a < endPoint a) (nonemptyB : startPoint b < endPoint b) :
    span (some c) = span a ∪ span b := by
  obtain ⟨ka, kb, rfl, rfl, joined⟩ := keyRangeAdd_cases added
  rcases joined with ⟨notEmpty, meet, rfl⟩ | ⟨notEmpty, meet, rfl⟩
  · have meetPoint : endPoint (some ka) = startPoint (some kb) := by
      simp [endBound, notEmpty, startPoint, equal_iff.mp meet]
    exact span_join nonemptyA nonemptyB meetPoint rfl rfl
  · have meetPoint : endPoint (some kb) = startPoint (some ka) := by
      simp [endBound, notEmpty, startPoint, equal_iff.mp meet]
    rw [Set.union_comm]
    exact span_join nonemptyB nonemptyA meetPoint rfl rfl

/-! ### The predicates agree with the ids they denote -/

/-- For well-formed ranges, `KeyRangeIntersect` holds exactly when some id is in
both, `KeyRangeContainsKeyRange a b` exactly when every id of `b` is in `a`, and
a successful `KeyRangeAdd` returns a range holding exactly the ids of `a` and of
`b`. -/
theorem keyRange_predicates_match_ids {a b : Option KeyRange}
    (wellFormedA : WellFormed a) (wellFormedB : WellFormed b) :
    (keyRangeIntersect a b = true ↔
      ∃ id, keyRangeContains a id = true ∧ keyRangeContains b id = true) ∧
    (keyRangeContainsKeyRange a b = true ↔
      ∀ id, keyRangeContains b id = true → keyRangeContains a id = true) ∧
    ∀ c, keyRangeAdd a b = (some c, true) →
      ∀ id, keyRangeContains (some c) id = true ↔
        keyRangeContains a id = true ∨ keyRangeContains b id = true := by
  have nonemptyA := startPoint_lt_endPoint wellFormedA
  have nonemptyB := startPoint_lt_endPoint wellFormedB
  refine ⟨?_, ?_, ?_⟩
  · simp only [keyRangeContains_iff]
    rw [keyRangeIntersect_iff wellFormedA wellFormedB, exists_common_id_iff nonemptyA nonemptyB]
  · simp only [keyRangeContains_iff]
    rw [keyRangeContainsKeyRange_iff a wellFormedB, forall_ids_iff nonemptyB]
  · intro c added id
    simp only [keyRangeContains_iff, keyRangeAdd_span added nonemptyA nonemptyB, Set.mem_union]

/-- The two halves `-80` and `80-` of a keyspace. -/
theorem keyRange_predicates_match_ids_halves :
    WellFormed (some ⟨[], [0x80]⟩) ∧ WellFormed (some ⟨[0x80], []⟩) ∧
    ((keyRangeIntersect (some ⟨[], [0x80]⟩) (some ⟨[0x80], []⟩) = true ↔
      ∃ id, keyRangeContains (some ⟨[], [0x80]⟩) id = true ∧
        keyRangeContains (some ⟨[0x80], []⟩) id = true) ∧
    (keyRangeContainsKeyRange (some ⟨[], [0x80]⟩) (some ⟨[0x80], []⟩) = true ↔
      ∀ id, keyRangeContains (some ⟨[0x80], []⟩) id = true →
        keyRangeContains (some ⟨[], [0x80]⟩) id = true) ∧
    ∀ c, keyRangeAdd (some ⟨[], [0x80]⟩) (some ⟨[0x80], []⟩) = (some c, true) →
      ∀ id, keyRangeContains (some c) id = true ↔
        keyRangeContains (some ⟨[], [0x80]⟩) id = true ∨
          keyRangeContains (some ⟨[0x80], []⟩) id = true) :=
  ⟨by decide, by decide, keyRange_predicates_match_ids (by decide) (by decide)⟩

end Vitess.Key
