import Mathlib.Data.List.Pairwise
import Mathlib.Data.Int.Order.Basic
import Mathlib.Tactic.Tauto

/-!
# Lists of closed integer intervals

A list of closed intervals `[start, stop]` denotes the union of its members. A
list is `Canonical` when every member is nonempty and any earlier member ends
more than one before any later member starts: sorted, disjoint and never
touching. Two facts about canonical lists carry the set-level reading of
interval algorithms:

* `Canonical.covers_of_subset`: a nonempty interval whose points all lie in a
  canonical list lies inside a single member, since the gaps between members
  cannot be bridged;
* `Canonical.eq_of_denotes`: a set has at most one canonical list, so comparing
  canonical lists member by member decides equality of the sets.

A list is `Ordered` when its members are nonempty, sorted and disjoint, but may
touch. Algorithms that walk an ordered list cut and drop pieces of one member at
a time; `Ordered.replace_within` says that putting pieces of a member in its
place keeps the list ordered.
-/

namespace Vitess.IntervalList

/-- A closed interval of integers; it is empty when `stop < start`. -/
structure Interval where
  start : ℤ
  stop : ℤ
  deriving DecidableEq, Repr

namespace Interval

/-- `x` lies in the interval. -/
def Mem (iv : Interval) (x : ℤ) : Prop :=
  iv.start ≤ x ∧ x ≤ iv.stop

instance (iv : Interval) (x : ℤ) : Decidable (iv.Mem x) :=
  inferInstanceAs (Decidable (_ ∧ _))

/-- The interval holds some point. -/
def Nonempty (iv : Interval) : Prop :=
  iv.start ≤ iv.stop

/-- `outer` includes every point of `inner`. -/
def Covers (outer inner : Interval) : Prop :=
  outer.start ≤ inner.start ∧ inner.stop ≤ outer.stop

theorem Covers.mem {outer inner : Interval} (covers : outer.Covers inner) {x : ℤ}
    (inside : inner.Mem x) : outer.Mem x :=
  ⟨le_trans covers.1 inside.1, le_trans inside.2 covers.2⟩

end Interval

/-- The integers a list of intervals denotes. -/
def Denotes (ivs : List Interval) (x : ℤ) : Prop :=
  ∃ iv ∈ ivs, iv.Mem x

/-- `earlier` ends more than one before `later` starts. -/
def Separated (earlier later : Interval) : Prop :=
  earlier.stop + 1 < later.start

/-- Nonempty members, each separated from every later member. -/
def Canonical (ivs : List Interval) : Prop :=
  (∀ iv ∈ ivs, iv.Nonempty) ∧ ivs.Pairwise Separated

theorem Interval.mem_start {iv : Interval} (nonempty : iv.Nonempty) : iv.Mem iv.start :=
  ⟨le_refl _, nonempty⟩

@[simp] theorem denotes_nil (x : ℤ) : ¬ Denotes [] x := by
  simp [Denotes]

@[simp] theorem denotes_cons {iv : Interval} {rest : List Interval} {x : ℤ} :
    Denotes (iv :: rest) x ↔ iv.Mem x ∨ Denotes rest x := by
  simp [Denotes]

theorem Canonical.cons_iff {iv : Interval} {rest : List Interval} :
    Canonical (iv :: rest) ↔
      iv.Nonempty ∧ (∀ later ∈ rest, Separated iv later) ∧ Canonical rest := by
  simp only [Canonical, List.mem_cons, forall_eq_or_imp, List.pairwise_cons]
  tauto

theorem Canonical.append_iff {ivs others : List Interval} :
    Canonical (ivs ++ others) ↔
      Canonical ivs ∧ Canonical others ∧ ∀ a ∈ ivs, ∀ b ∈ others, Separated a b := by
  simp only [Canonical, List.mem_append, List.pairwise_append]
  constructor
  · rintro ⟨nonempty, pairwise, pairwiseOthers, across⟩
    exact ⟨⟨fun iv member => nonempty iv (.inl member), pairwise⟩,
      ⟨fun iv member => nonempty iv (.inr member), pairwiseOthers⟩, across⟩
  · rintro ⟨⟨nonempty, pairwise⟩, ⟨nonemptyOthers, pairwiseOthers⟩, across⟩
    refine ⟨?_, pairwise, pairwiseOthers, across⟩
    rintro iv (member | member)
    · exact nonempty iv member
    · exact nonemptyOthers iv member

/-- A list built last first, as loops that may still extend their last member
keep it, is canonical with a new last member when that member is nonempty and
separated from all before it. -/
theorem canonical_reverse_cons {iv : Interval} {ivs : List Interval} :
    Canonical (iv :: ivs).reverse ↔
      Canonical ivs.reverse ∧ iv.Nonempty ∧ ∀ earlier ∈ ivs, Separated earlier iv := by
  rw [List.reverse_cons, Canonical.append_iff]
  simp only [List.mem_reverse, List.mem_singleton, forall_eq]
  constructor
  · rintro ⟨canonical, single, across⟩
    exact ⟨canonical, single.1 iv (List.mem_singleton_self iv), across⟩
  · rintro ⟨canonical, nonempty, across⟩
    refine ⟨canonical, ⟨?_, List.pairwise_singleton _ _⟩, across⟩
    simpa using nonempty

/-- A list of nonempty intervals whose points all lie in a list with positive
starts has positive starts: each start is one of its points. -/
theorem start_pos_of_subset {ivs others : List Interval} (nonempty : ∀ iv ∈ ivs, iv.Nonempty)
    (within : ∀ x, Denotes ivs x → Denotes others x) (positive : ∀ iv ∈ others, 1 ≤ iv.start) :
    ∀ iv ∈ ivs, 1 ≤ iv.start := by
  intro iv member
  obtain ⟨other, isOther, inside⟩ :=
    within iv.start ⟨iv, member, Interval.mem_start (nonempty iv member)⟩
  exact le_trans (positive other isOther) inside.1

/-- A canonical list is sorted by start. -/
theorem Canonical.sorted {ivs : List Interval} (canonical : Canonical ivs) :
    ivs.Pairwise fun a b => a.start ≤ b.start :=
  canonical.2.imp_of_mem fun {a _} isMember _ separated => by
    have nonempty := canonical.1 a isMember
    unfold Interval.Nonempty at nonempty
    unfold Separated at separated
    omega

theorem Canonical.tail {iv : Interval} {rest : List Interval}
    (canonical : Canonical (iv :: rest)) : Canonical rest :=
  (Canonical.cons_iff.mp canonical).2.2

/-- Every point of the later members lies more than one past the first member. -/
theorem Canonical.later_point_gt {iv : Interval} {rest : List Interval}
    (canonical : Canonical (iv :: rest)) {x : ℤ} (later : Denotes rest x) :
    iv.stop + 1 < x := by
  obtain ⟨member, isMember, inside⟩ := later
  have separated := (Canonical.cons_iff.mp canonical).2.1 member isMember
  exact lt_of_lt_of_le separated inside.1

/-- The first member starts at the least point. -/
theorem Canonical.start_le {iv : Interval} {rest : List Interval}
    (canonical : Canonical (iv :: rest)) {x : ℤ} (point : Denotes (iv :: rest) x) :
    iv.start ≤ x := by
  rcases denotes_cons.mp point with first | later
  · exact first.1
  · have beyond := canonical.later_point_gt later
    have nonempty := (Canonical.cons_iff.mp canonical).1
    unfold Interval.Nonempty at nonempty
    omega

/-- A nonempty interval all of whose points a canonical list denotes lies inside
one member: the member holding its start also reaches its stop, since the next
point past that member is in no member. -/
theorem Canonical.covers_of_subset {ivs : List Interval} (canonical : Canonical ivs)
    {target : Interval} (nonempty : target.Nonempty)
    (inside : ∀ x, target.Mem x → Denotes ivs x) :
    ∃ iv ∈ ivs, iv.Covers target := by
  induction ivs with
  | nil => exact absurd (inside target.start ⟨le_refl _, nonempty⟩) (denotes_nil _)
  | cons first rest inductionHypothesis =>
    rcases denotes_cons.mp (inside target.start ⟨le_refl _, nonempty⟩) with startFirst | startLater
    · -- `target` starts in `first`; if it ran past `first.stop`, the next point
      -- would be in neither `first` nor a later member.
      refine ⟨first, List.mem_cons_self .., startFirst.1, ?_⟩
      by_contra runsPast
      have nextInside : target.Mem (first.stop + 1) := ⟨by have := startFirst.2; omega, by omega⟩
      rcases denotes_cons.mp (inside _ nextInside) with inFirst | inLater
      · exact absurd inFirst.2 (by omega)
      · exact absurd (canonical.later_point_gt inLater) (lt_irrefl _)
    · -- `target` starts past `first`, so all of it lies in the later members.
      have startAbove := canonical.later_point_gt startLater
      have laterInside : ∀ x, target.Mem x → Denotes rest x := by
        intro x member
        rcases denotes_cons.mp (inside x member) with inFirst | inLater
        · exact absurd inFirst.2 (by have := member.1; omega)
        · exact inLater
      obtain ⟨iv, isMember, covers⟩ := inductionHypothesis canonical.tail laterInside
      exact ⟨iv, List.mem_cons_of_mem first isMember, covers⟩

/-- Two canonical lists that denote the same set are equal. The first members
start at the least point and stop just before the first missing point above it;
what remains of the two sets is denoted by the tails. -/
theorem Canonical.eq_of_denotes {ivs others : List Interval} (canonical : Canonical ivs)
    (canonicalOthers : Canonical others) (same : ∀ x, Denotes ivs x ↔ Denotes others x) :
    ivs = others := by
  induction ivs generalizing others with
  | nil =>
    cases others with
    | nil => rfl
    | cons other rest =>
      have nonempty := (Canonical.cons_iff.mp canonicalOthers).1
      exact absurd ((same other.start).mpr (denotes_cons.mpr (Or.inl ⟨le_refl _, nonempty⟩)))
        (denotes_nil _)
  | cons first rest inductionHypothesis =>
    cases others with
    | nil =>
      have nonempty := (Canonical.cons_iff.mp canonical).1
      exact absurd ((same first.start).mp (denotes_cons.mpr (Or.inl ⟨le_refl _, nonempty⟩)))
        (denotes_nil _)
    | cons other otherRest =>
      have firstNonempty := (Canonical.cons_iff.mp canonical).1
      have otherNonempty := (Canonical.cons_iff.mp canonicalOthers).1
      have firstPoint : Denotes (first :: rest) first.start :=
        denotes_cons.mpr (Or.inl ⟨le_refl _, firstNonempty⟩)
      have otherPoint : Denotes (other :: otherRest) other.start :=
        denotes_cons.mpr (Or.inl ⟨le_refl _, otherNonempty⟩)
      have startsEqual : first.start = other.start :=
        le_antisymm (canonical.start_le ((same _).mpr otherPoint))
          (canonicalOthers.start_le ((same _).mp firstPoint))
      -- A point past `first.stop` from `other` would be the missing point `first.stop + 1`.
      have stopsLe : ∀ {a b : Interval} {aRest bRest : List Interval},
          Canonical (a :: aRest) → Canonical (b :: bRest) → a.start = b.start →
          (∀ x, Denotes (a :: aRest) x ↔ Denotes (b :: bRest) x) → b.stop ≤ a.stop := by
        intro a b aRest bRest aCanonical bCanonical sameStart sameSet
        by_contra longer
        have aNonempty := (Canonical.cons_iff.mp aCanonical).1
        have nextInB : Denotes (b :: bRest) (a.stop + 1) :=
          denotes_cons.mpr (Or.inl ⟨by unfold Interval.Nonempty at aNonempty; omega, by omega⟩)
        rcases denotes_cons.mp ((sameSet _).mpr nextInB) with inA | inLater
        · exact absurd inA.2 (by omega)
        · exact absurd (aCanonical.later_point_gt inLater) (lt_irrefl _)
      have stopsEqual : first.stop = other.stop :=
        le_antisymm (stopsLe canonicalOthers canonical startsEqual.symm fun x => (same x).symm)
          (stopsLe canonical canonicalOthers startsEqual same)
      have headsEqual : first = other := by
        cases first
        cases other
        simp_all
      subst headsEqual
      -- The first member takes the same points from both sets; the tails hold the rest.
      have tailsSame : ∀ x, Denotes rest x ↔ Denotes otherRest x := by
        intro x
        constructor
        · intro inRest
          have beyond := canonical.later_point_gt inRest
          rcases denotes_cons.mp ((same x).mp (denotes_cons.mpr (Or.inr inRest))) with
            inFirst | inOther
          · exact absurd inFirst.2 (by omega)
          · exact inOther
        · intro inOther
          have beyond := canonicalOthers.later_point_gt inOther
          rcases denotes_cons.mp ((same x).mpr (denotes_cons.mpr (Or.inr inOther))) with
            inFirst | inRest
          · exact absurd inFirst.2 (by omega)
          · exact inRest
      rw [inductionHypothesis canonical.tail canonicalOthers.tail tailsSame]

/-! ### Sorted, disjoint lists -/

/-- `earlier` ends before `later` starts. -/
def Before (earlier later : Interval) : Prop :=
  earlier.stop < later.start

/-- Nonempty members, each ending before every later member starts: sorted by
start and pairwise disjoint. -/
def Ordered (ivs : List Interval) : Prop :=
  (∀ iv ∈ ivs, iv.Nonempty) ∧ ivs.Pairwise Before

instance (iv : Interval) : Decidable iv.Nonempty :=
  inferInstanceAs (Decidable (_ ≤ _))

instance (earlier later : Interval) : Decidable (Before earlier later) :=
  inferInstanceAs (Decidable (_ < _))

instance (ivs : List Interval) : Decidable (Ordered ivs) :=
  inferInstanceAs (Decidable (_ ∧ _))

instance (earlier later : Interval) : Decidable (Separated earlier later) :=
  inferInstanceAs (Decidable (_ < _))

instance (ivs : List Interval) : Decidable (Canonical ivs) :=
  inferInstanceAs (Decidable (_ ∧ _))

@[simp] theorem denotes_append {ivs others : List Interval} {x : ℤ} :
    Denotes (ivs ++ others) x ↔ Denotes ivs x ∨ Denotes others x := by
  simp [Denotes, or_and_right, exists_or]

@[simp] theorem denotes_reverse {ivs : List Interval} {x : ℤ} :
    Denotes ivs.reverse x ↔ Denotes ivs x := by
  simp [Denotes]

theorem denotes_perm {ivs others : List Interval} (perm : ivs.Perm others) {x : ℤ} :
    Denotes ivs x ↔ Denotes others x := by
  simp only [Denotes, perm.mem_iff]

@[simp] theorem ordered_nil : Ordered [] :=
  ⟨by simp, List.Pairwise.nil⟩

theorem Ordered.cons_iff {iv : Interval} {rest : List Interval} :
    Ordered (iv :: rest) ↔ iv.Nonempty ∧ (∀ later ∈ rest, Before iv later) ∧ Ordered rest := by
  simp only [Ordered, List.mem_cons, forall_eq_or_imp, List.pairwise_cons]
  tauto

@[simp] theorem ordered_singleton {iv : Interval} : Ordered [iv] ↔ iv.Nonempty := by
  simp [Ordered.cons_iff]

theorem Ordered.append_iff {ivs others : List Interval} :
    Ordered (ivs ++ others) ↔
      Ordered ivs ∧ Ordered others ∧ ∀ a ∈ ivs, ∀ b ∈ others, Before a b := by
  simp only [Ordered, List.mem_append, List.pairwise_append]
  constructor
  · rintro ⟨nonempty, pairwise, pairwiseOthers, across⟩
    exact ⟨⟨fun iv member => nonempty iv (.inl member), pairwise⟩,
      ⟨fun iv member => nonempty iv (.inr member), pairwiseOthers⟩, across⟩
  · rintro ⟨⟨nonempty, pairwise⟩, ⟨nonemptyOthers, pairwiseOthers⟩, across⟩
    refine ⟨?_, pairwise, pairwiseOthers, across⟩
    rintro iv (member | member)
    · exact nonempty iv member
    · exact nonemptyOthers iv member

theorem Ordered.tail {iv : Interval} {rest : List Interval}
    (ordered : Ordered (iv :: rest)) : Ordered rest :=
  (Ordered.cons_iff.mp ordered).2.2

/-- Every point of the later members lies past the first member. -/
theorem Ordered.later_point_gt {iv : Interval} {rest : List Interval}
    (ordered : Ordered (iv :: rest)) {x : ℤ} (later : Denotes rest x) : iv.stop < x := by
  obtain ⟨member, isMember, inside⟩ := later
  exact lt_of_lt_of_le ((Ordered.cons_iff.mp ordered).2.1 member isMember) inside.1

/-- The first member starts at or below every point. -/
theorem Ordered.start_le {iv : Interval} {rest : List Interval}
    (ordered : Ordered (iv :: rest)) {x : ℤ} (point : Denotes (iv :: rest) x) :
    iv.start ≤ x := by
  rcases denotes_cons.mp point with first | later
  · exact first.1
  · have beyond := ordered.later_point_gt later
    have nonempty := (Ordered.cons_iff.mp ordered).1
    unfold Interval.Nonempty at nonempty
    omega

/-- In an ordered list the starts strictly increase. -/
theorem Ordered.starts_lt {ivs : List Interval} (ordered : Ordered ivs) :
    ivs.Pairwise fun a b => a.start < b.start :=
  ordered.2.imp_of_mem fun {a _} isMember _ before => by
    have nonempty := ordered.1 a isMember
    unfold Interval.Nonempty at nonempty
    unfold Before at before
    omega

/-- An ordered list inside `lo .. hi - 1` has at most `hi - lo` members: each
holds a point, and the next starts past it. -/
theorem Ordered.length_le {hi : ℤ} :
    ∀ {ivs : List Interval} {lo : ℤ}, Ordered ivs → (∀ iv ∈ ivs, lo ≤ iv.start ∧ iv.stop < hi) →
      lo + ivs.length ≤ max lo hi
  | [], lo, _, _ => by simp only [List.length_nil, Int.natCast_zero, Int.add_zero]; omega
  | iv :: rest, lo, ordered, inside => by
    obtain ⟨nonempty, before, orderedRest⟩ := Ordered.cons_iff.mp ordered
    have first := inside iv List.mem_cons_self
    -- the rest lies inside `iv.stop + 1 .. hi - 1`
    have restInside : ∀ later ∈ rest, iv.stop + 1 ≤ later.start ∧ later.stop < hi :=
      fun later member => ⟨before later member, (inside later (List.mem_cons_of_mem iv member)).2⟩
    have restBound := Ordered.length_le orderedRest restInside
    unfold Interval.Nonempty at nonempty
    simp only [List.length_cons, Int.natCast_add, Int.natCast_one]
    omega

/-- A list whose starts strictly increase is the only arrangement of its members
sorted by start: the first member of any such arrangement has the least start,
which only the list's own first member has. -/
theorem eq_of_perm_of_sorted_start {ivs : List Interval} :
    ∀ {arranged : List Interval}, arranged.Perm ivs →
      arranged.Pairwise (fun a b => a.start ≤ b.start) →
      ivs.Pairwise (fun a b => a.start < b.start) → arranged = ivs := by
  induction ivs with
  | nil => exact fun perm _ _ => perm.eq_nil
  | cons first rest inductionHypothesis =>
    intro arranged perm sorted strict
    cases arranged with
    | nil => exact absurd perm.length_eq (by simp)
    | cons least arrangedRest =>
      have sameFirst : least = first := by
        by_contra different
        have leastLater : least ∈ rest := by
          have := perm.subset List.mem_cons_self
          rcases List.mem_cons.mp this with same | later
          · exact absurd same different
          · exact later
        have firstLater : first ∈ arrangedRest := by
          have := perm.symm.subset List.mem_cons_self
          rcases List.mem_cons.mp this with same | later
          · exact absurd same.symm different
          · exact later
        have below := (List.pairwise_cons.mp strict).1 least leastLater
        have above := (List.pairwise_cons.mp sorted).1 first firstLater
        omega
      subst sameFirst
      rw [inductionHypothesis (List.Perm.cons_inv perm) (List.pairwise_cons.mp sorted).2
        (List.pairwise_cons.mp strict).2]

/-- Putting ordered pieces of a member in its place keeps a list ordered: what
ended before the member ends before each piece, and each piece ends before what
started after the member. -/
theorem Ordered.replace_within {ivs rest pieces : List Interval} {iv : Interval}
    (ordered : Ordered (ivs ++ iv :: rest)) (piecesOrdered : Ordered pieces)
    (within : ∀ piece ∈ pieces, iv.Covers piece) : Ordered (ivs ++ pieces ++ rest) := by
  obtain ⟨earlier, ordered, across⟩ := Ordered.append_iff.mp ordered
  obtain ⟨-, beforeRest, restOrdered⟩ := Ordered.cons_iff.mp ordered
  refine Ordered.append_iff.mpr ⟨Ordered.append_iff.mpr ⟨earlier, piecesOrdered, ?_⟩,
    restOrdered, ?_⟩
  · intro a isEarlier piece isPiece
    have beforeMember := across a isEarlier iv (List.mem_cons_self ..)
    have covers := within piece isPiece
    unfold Before at beforeMember ⊢
    unfold Interval.Covers at covers
    omega
  · intro a member b isLater
    rcases List.mem_append.mp member with isEarlier | isPiece
    · exact across a isEarlier b (List.mem_cons_of_mem iv isLater)
    · have memberBefore := beforeRest b isLater
      have covers := within a isPiece
      unfold Before at memberBefore ⊢
      unfold Interval.Covers at covers
      omega

end Vitess.IntervalList
