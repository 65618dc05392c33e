import Mathlib.Logic.Relation
import Mathlib.Logic.Function.Basic
import Mathlib.Tactic.SplitIfs

/-!
# Equivalence closures named by labels

A structure that keeps an equivalence relation as a label on each element it
knows, two elements being related exactly when their labels agree, represents
the equivalence closure of the pairs it was told to relate (`Represents`). Two
operations keep the representation: labelling a new element with a new label
(`Represents.insert_fresh`), and relating two known elements by moving every
element of the one's class to the other's label (`Represents.merge`), which
represents the closure with that pair added.
-/

namespace Vitess.EqvClosure

open Relation

variable {α κ : Type*}

/-- `R` with the pair `(a, b)` added. -/
def addEdge (R : α → α → Prop) (a b : α) : α → α → Prop :=
  fun x y => R x y ∨ (x = a ∧ y = b)

/-- A labelling that agrees on each pair of `R` agrees on its equivalence closure. -/
theorem eqvGen_label_eq {β : Type*} {R : α → α → Prop} {label : α → β}
    (agrees : ∀ x y, R x y → label x = label y) {x y : α} (joined : EqvGen R x y) :
    label x = label y := by
  induction joined with
  | rel x y related => exact agrees x y related
  | refl x => rfl
  | symm x y _ ih => exact ih.symm
  | trans x y z _ _ first second => exact first.trans second

theorem eqvGen_addEdge_of_eqvGen {R : α → α → Prop} {a b x y : α} (joined : EqvGen R x y) :
    EqvGen (addEdge R a b) x y :=
  joined.mono fun _ _ related => .inl related

/-- Adding `(a, b)` or `(b, a)` gives the same closure. -/
theorem eqvGen_addEdge_comm {R : α → α → Prop} {a b x y : α} (joined : EqvGen (addEdge R a b) x y) :
    EqvGen (addEdge R b a) x y := by
  induction joined with
  | rel x y related =>
    rcases related with related | ⟨rfl, rfl⟩
    · exact .rel _ _ (.inl related)
    · exact .symm _ _ (.rel _ _ (.inr ⟨rfl, rfl⟩))
  | refl x => exact .refl x
  | symm x y _ ih => exact .symm _ _ ih
  | trans x y z _ _ first second => exact .trans _ _ _ first second

/-- `label` names the classes of the equivalence closure of `R` among the labelled
elements, and `R` relates labelled elements only. -/
structure Represents (R : α → α → Prop) (label : α → Option κ) : Prop where
  related : ∀ x y, R x y → (label x).isSome ∧ (label y).isSome
  classes : ∀ x y, (label x).isSome → (label y).isSome → (label x = label y ↔ EqvGen R x y)

namespace Represents

variable {R : α → α → Prop} {label : α → Option κ}

theorem symm_addEdge {a b : α} (rep : Represents (addEdge R a b) label) :
    Represents (addEdge R b a) label where
  related x y related := by
    rcases related with related | ⟨rfl, rfl⟩
    · exact rep.related x y (.inl related)
    · exact (rep.related y x (.inr ⟨rfl, rfl⟩)).symm
  classes x y labelled labelled2 := by
    rw [rep.classes x y labelled labelled2]
    exact ⟨eqvGen_addEdge_comm, eqvGen_addEdge_comm⟩

/-- An element that `R` does not mention is related to itself alone. -/
theorem eq_of_eqvGen_of_unlabelled (rep : Represents R label) {e y : α} (unlabelled : label e = none)
    (joined : EqvGen R e y) : y = e := by
  have agrees : ∀ x z, R x z → (x = e) = (z = e) := by
    intro x z related
    obtain ⟨labelled, labelled2⟩ := rep.related x z related
    have known : x ≠ e := by rintro rfl; simp_all
    have known2 : z ≠ e := by rintro rfl; simp_all
    simp [known, known2]
  have same : (e = e) = (y = e) := @eqvGen_label_eq α Prop R (fun x => x = e) agrees e y joined
  exact cast same rfl

/-- A new element under a new label keeps the representation. -/
theorem insert_fresh [DecidableEq α] (rep : Represents R label) {e : α} {k : κ}
    (unlabelled : label e = none) (fresh : ∀ x, label x ≠ some k) :
    Represents R (Function.update label e (some k)) where
  related x y related := by
    obtain ⟨labelled, labelled2⟩ := rep.related x y related
    have known : x ≠ e := by rintro rfl; simp_all
    have known2 : y ≠ e := by rintro rfl; simp_all
    simp [Function.update_of_ne known, Function.update_of_ne known2, labelled, labelled2]
  classes x y labelled labelled2 := by
    by_cases first : x = e <;> by_cases second : y = e
    · subst first second
      simp only [EqvGen.refl]
    · -- the new element against an old one: different labels, and no chain joins them
      subst first
      rw [Function.update_of_ne second] at labelled2 ⊢
      rw [Function.update_self]
      constructor
      · intro same
        exact absurd same.symm (fresh y)
      · intro joined
        exact absurd (rep.eq_of_eqvGen_of_unlabelled unlabelled joined) second
    · subst second
      rw [Function.update_of_ne first] at labelled ⊢
      rw [Function.update_self]
      constructor
      · intro same
        exact absurd same (fresh x)
      · intro joined
        exact absurd (rep.eq_of_eqvGen_of_unlabelled unlabelled joined.symm) first
    · rw [Function.update_of_ne first] at labelled ⊢
      rw [Function.update_of_ne second] at labelled2 ⊢
      exact rep.classes x y labelled labelled2

/-- Relating two elements of one class changes nothing. -/
theorem addEdge_of_same (rep : Represents R label) {a b : α} (labelled : (label a).isSome)
    (same : label a = label b) : Represents (addEdge R a b) label where
  related x y related := by
    rcases related with related | ⟨rfl, rfl⟩
    · exact rep.related x y related
    · exact ⟨labelled, same ▸ labelled⟩
  classes x y labelledX labelledY := by
    constructor
    · intro sameXY
      exact eqvGen_addEdge_of_eqvGen ((rep.classes x y labelledX labelledY).mp sameXY)
    · refine eqvGen_label_eq ?_
      rintro x y (related | ⟨rfl, rfl⟩)
      · obtain ⟨labelled, labelled2⟩ := rep.related x y related
        exact (rep.classes x y labelled labelled2).mpr (.rel _ _ related)
      · exact same

/-- Moving the class of `b` to the label of `a` represents the closure with
`(a, b)` added. -/
theorem merge [DecidableEq κ] (rep : Represents R label) {a b : α} {ca cb : κ}
    (labelA : label a = some ca) (labelB : label b = some cb) :
    Represents (addEdge R a b) (fun x => if label x = some cb then some ca else label x) where
  related x y related := by
    rcases related with related | ⟨rfl, rfl⟩
    · obtain ⟨labelled, labelled2⟩ := rep.related x y related
      constructor <;> split_ifs <;> simp_all
    · simp [labelA, labelB]
  classes x y labelled labelled2 := by
    have known : (label x).isSome := by split_ifs at labelled <;> simp_all
    have known2 : (label y).isSome := by split_ifs at labelled2 <;> simp_all
    constructor
    · intro same
      -- both labels were already equal, or one was `ca` and the other `cb`
      by_cases before : label x = label y
      · exact eqvGen_addEdge_of_eqvGen ((rep.classes x y known known2).mp before)
      · have edge : EqvGen (addEdge R a b) a b := .rel _ _ (.inr ⟨rfl, rfl⟩)
        split_ifs at same with moved moved2 moved2
        · exact absurd (moved.trans moved2.symm) before
        · have toB := eqvGen_addEdge_of_eqvGen (a := a) (b := b)
            ((rep.classes x b known (by simp [labelB])).mp (moved.trans labelB.symm))
          have toA := eqvGen_addEdge_of_eqvGen (a := a) (b := b)
            ((rep.classes a y (by simp [labelA]) known2).mp (labelA.trans same))
          exact toB.trans _ _ _ (edge.symm.trans _ _ _ toA)
        · have toA := eqvGen_addEdge_of_eqvGen (a := a) (b := b)
            ((rep.classes x a known (by simp [labelA])).mp (same.trans labelA.symm))
          have toB := eqvGen_addEdge_of_eqvGen (a := a) (b := b)
            ((rep.classes b y (by simp [labelB]) known2).mp (labelB.trans moved2.symm))
          exact toA.trans _ _ _ (edge.trans _ _ _ toB)
        · exact absurd same before
    · intro joined
      refine @eqvGen_label_eq α (Option κ) (addEdge R a b)
        (fun x => if label x = some cb then some ca else label x) ?_ x y joined
      rintro x y (related | ⟨rfl, rfl⟩)
      · obtain ⟨labelled, labelled2⟩ := rep.related x y related
        have same := (rep.classes x y labelled labelled2).mpr (.rel _ _ related)
        simp only [same]
      · simp [labelA, labelB]

end Represents

end Vitess.EqvClosure
