import Mathlib.Data.List.Pairwise
import Mathlib.Order.Basic
import Mathlib.Order.Lattice

/-!
# Tallies of two keyed lists

Two lists of rows, each strictly increasing in a key, are compared key by key:
a key in both lists is a match or a mismatch according to the payloads, and a
key in one list only is an extra row on that side. `tally` counts the four
kinds directly from membership. The lemmas `tally_cons_lt`, `tally_cons_gt` and
`tally_cons_eq` say how the tally splits off the smaller head, which is what a
two-pointer merge does in one step; `tally_nil_left` and `tally_nil_right` are
the drains at the end.
-/

namespace Vitess.MergeCount

/-- The four counts of a comparison. -/
structure Tally where
  matching : ℕ
  mismatched : ℕ
  onlyLeft : ℕ
  onlyRight : ℕ
  deriving DecidableEq, Repr

instance : Add Tally where
  add a b := ⟨a.matching + b.matching, a.mismatched + b.mismatched,
    a.onlyLeft + b.onlyLeft, a.onlyRight + b.onlyRight⟩

@[simp] theorem add_matching (a b : Tally) : (a + b).matching = a.matching + b.matching := rfl
@[simp] theorem add_mismatched (a b : Tally) : (a + b).mismatched = a.mismatched + b.mismatched := rfl
@[simp] theorem add_onlyLeft (a b : Tally) : (a + b).onlyLeft = a.onlyLeft + b.onlyLeft := rfl
@[simp] theorem add_onlyRight (a b : Tally) : (a + b).onlyRight = a.onlyRight + b.onlyRight := rfl

variable {Row Key : Type*} [LinearOrder Key] (key : Row → Key) (same : Row → Row → Bool)

/-- Count the rows of `left` by what `right` holds at their key, and the rows of
`right` whose key `left` lacks. -/
def tally (left right : List Row) : Tally where
  matching := left.countP fun l => right.any fun r => key r == key l && same l r
  mismatched := left.countP fun l => right.any fun r => key r == key l && !same l r
  onlyLeft := left.countP fun l => right.all fun r => key r != key l
  onlyRight := right.countP fun r => left.all fun l => key l != key r

/-- A list strictly increasing in the key. -/
abbrev Ascending (rows : List Row) : Prop :=
  rows.Pairwise fun a b => key a < key b

variable {key same}

theorem tally_nil_left (right : List Row) :
    tally key same [] right = ⟨0, 0, 0, right.length⟩ := by
  simp [tally]

theorem tally_nil_right (left : List Row) :
    tally key same left [] = ⟨0, 0, left.length, 0⟩ := by
  simp [tally]

/-- No row of an ascending list starting at `first` has a key below `first`'s. -/
theorem key_ne_of_lt_head {first : Row} {rest : List Row} (ascending : Ascending key (first :: rest))
    {k : Key} (below : k < key first) : ∀ r ∈ first :: rest, key r ≠ k := by
  intro r member
  rcases List.mem_cons.mp member with rfl | later
  · exact ne_of_gt below
  · exact ne_of_gt (lt_trans below (List.rel_of_pairwise_cons ascending later))

/-- A row whose key differs from `k` adds nothing to a search for `k`. -/
theorem any_cons_of_key_ne {r : Row} {rs : List Row} {k : Key} (q : Row → Bool)
    (different : key r ≠ k) :
    ((r :: rs).any fun r' => key r' == k && q r') = rs.any fun r' => key r' == k && q r' := by
  have keyTest : (key r == k) = false := by simpa using different
  rw [List.any_cons, keyTest, Bool.false_and, Bool.false_or]

theorem all_cons_of_key_ne {r : Row} {rs : List Row} {k : Key} (different : key r ≠ k) :
    ((r :: rs).all fun r' => key r' != k) = rs.all fun r' => key r' != k := by
  have keyTest : (key r != k) = true := by simpa using different
  rw [List.all_cons, keyTest, Bool.true_and]

/-- A list without the key `k` has no row for it. -/
theorem any_eq_false_of_absent {rs : List Row} {k : Key} (q : Row → Bool)
    (absent : ∀ r ∈ rs, key r ≠ k) : (rs.any fun r' => key r' == k && q r') = false := by
  rw [List.any_eq_false]
  intro r member
  simp [absent r member]

theorem all_eq_true_of_absent {rs : List Row} {k : Key} (absent : ∀ r ∈ rs, key r ≠ k) :
    (rs.all fun r' => key r' != k) = true := by
  rw [List.all_eq_true]
  intro r member
  simp [absent r member]

/-- The smaller head on the left is an extra row of the left list. -/
theorem tally_cons_lt {l r : Row} {ls rs : List Row} (ascendingRight : Ascending key (r :: rs))
    (below : key l < key r) :
    tally key same (l :: ls) (r :: rs) = tally key same ls (r :: rs) + ⟨0, 0, 1, 0⟩ := by
  have absent := key_ne_of_lt_head ascendingRight below
  have rightUnchanged : ((r :: rs).countP fun r' => (l :: ls).all fun l' => key l' != key r') =
      (r :: rs).countP fun r' => ls.all fun l' => key l' != key r' := by
    apply List.countP_congr
    intro r' member
    rw [all_cons_of_key_ne (Ne.symm (absent r' member))]
  simp only [tally, List.countP_cons, any_eq_false_of_absent _ absent,
    all_eq_true_of_absent absent, rightUnchanged]
  rfl

/-- The smaller head on the right is an extra row of the right list. -/
theorem tally_cons_gt {l r : Row} {ls rs : List Row} (ascendingLeft : Ascending key (l :: ls))
    (above : key r < key l) :
    tally key same (l :: ls) (r :: rs) = tally key same (l :: ls) rs + ⟨0, 0, 0, 1⟩ := by
  have absent := key_ne_of_lt_head ascendingLeft above
  have leftUnchanged : ∀ q : Row → Row → Bool,
      ((l :: ls).countP fun l' => (r :: rs).any fun r' => key r' == key l' && q l' r') =
        (l :: ls).countP fun l' => rs.any fun r' => key r' == key l' && q l' r' := by
    intro q
    apply List.countP_congr
    intro l' member
    rw [any_cons_of_key_ne (q l') (Ne.symm (absent l' member))]
  have extraUnchanged : ((l :: ls).countP fun l' => (r :: rs).all fun r' => key r' != key l') =
      (l :: ls).countP fun l' => rs.all fun r' => key r' != key l' := by
    apply List.countP_congr
    intro l' member
    rw [all_cons_of_key_ne (Ne.symm (absent l' member))]
  simp only [tally, leftUnchanged (fun l' r' => same l' r'), leftUnchanged (fun l' r' => !same l' r'),
    extraUnchanged, List.countP_cons (l := rs), all_eq_true_of_absent absent]
  rfl

/-- Equal heads are a match or a mismatch, and no other row pairs with them. -/
theorem tally_cons_eq {l r : Row} {ls rs : List Row} (ascendingLeft : Ascending key (l :: ls))
    (ascendingRight : Ascending key (r :: rs)) (sameKey : key l = key r) :
    tally key same (l :: ls) (r :: rs) =
      tally key same ls rs + if same l r then ⟨1, 0, 0, 0⟩ else ⟨0, 1, 0, 0⟩ := by
  -- every later row on either side is past the common key
  have laterLeft : ∀ l' ∈ ls, key r ≠ key l' := fun l' member =>
    ne_of_lt (sameKey ▸ List.rel_of_pairwise_cons ascendingLeft member)
  have laterRight : ∀ r' ∈ rs, key r' ≠ key l := fun r' member =>
    ne_of_gt (sameKey.symm ▸ List.rel_of_pairwise_cons ascendingRight member)
  have restLeft : ∀ q : Row → Row → Bool,
      (ls.countP fun l' => (r :: rs).any fun r' => key r' == key l' && q l' r') =
        ls.countP fun l' => rs.any fun r' => key r' == key l' && q l' r' := by
    intro q
    apply List.countP_congr
    intro l' member
    rw [any_cons_of_key_ne (q l') (laterLeft l' member)]
  have restExtraLeft : (ls.countP fun l' => (r :: rs).all fun r' => key r' != key l') =
      ls.countP fun l' => rs.all fun r' => key r' != key l' := by
    apply List.countP_congr
    intro l' member
    rw [all_cons_of_key_ne (laterLeft l' member)]
  have restExtraRight : (rs.countP fun r' => (l :: ls).all fun l' => key l' != key r') =
      rs.countP fun r' => ls.all fun l' => key l' != key r' := by
    apply List.countP_congr
    intro r' member
    rw [all_cons_of_key_ne (Ne.symm (laterRight r' member))]
  have headPairs : ∀ q : Row → Row → Bool,
      ((r :: rs).any fun r' => key r' == key l && q l r') = q l r := by
    intro q
    rw [List.any_cons, any_eq_false_of_absent (q l) laterRight]
    simp [sameKey]
  have headNotExtra : ((r :: rs).all fun r' => key r' != key l) = false := by
    simp [sameKey]
  have otherHeadNotExtra : ((l :: ls).all fun l' => key l' != key r) = false := by
    simp [sameKey]
  simp only [tally, List.countP_cons, headPairs (fun l' r' => same l' r'),
    headPairs (fun l' r' => !same l' r'), headNotExtra, otherHeadNotExtra,
    restLeft (fun l' r' => same l' r'), restLeft (fun l' r' => !same l' r'),
    restExtraLeft, restExtraRight]
  cases same l r <;> rfl

end Vitess.MergeCount
