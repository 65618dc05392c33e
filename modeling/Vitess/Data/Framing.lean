import Mathlib.Data.List.Basic
import Mathlib.Algebra.GroupWithZero.Nat

/-!
# Messages cut into frames

A channel whose frames hold at most `size` elements carries a longer message as
full frames of `size` followed by one frame shorter than `size`, which is empty
when `size` divides the message's length: the receiver tells the last frame by
its length alone. `split` is the sender's cut and `join` the receiver, which
concatenates frames up to and including the first short one and leaves the rest
of the stream for the next message. Joining what was split gives the message
back, in exactly `length / size + 1` frames, none longer than `size`.
-/

namespace Vitess.Framing

variable {α : Type*} (size : ℕ)

/-- The frames a message is sent in. -/
def split [NeZero size] (xs : List α) : List (List α) :=
  if xs.length < size then [xs] else xs.take size :: split (xs.drop size)
termination_by xs.length
decreasing_by
  have : 0 < size := Nat.pos_of_neZero size
  simp only [List.length_drop]
  omega

/-- The message at the front of a stream of frames, and the frames after it;
`none` when the stream ends before a short frame. -/
def join : List (List α) → Option (List α × List (List α))
  | [] => none
  | frame :: frames =>
    if frame.length < size then some (frame, frames)
    else (join frames).map fun (xs, rest) => (frame ++ xs, rest)

variable {size}

section Split

variable [NeZero size] {xs : List α}

theorem split_of_lt (short : xs.length < size) : split size xs = [xs] := by
  rw [split, if_pos short]

theorem split_of_le (full : size ≤ xs.length) :
    split size xs = xs.take size :: split size (xs.drop size) := by
  rw [split, if_neg (Nat.not_lt.mpr full)]

end Split

@[simp] theorem join_cons_of_lt {frame : List α} (short : frame.length < size) (frames) :
    join size (frame :: frames) = some (frame, frames) := by
  rw [join, if_pos short]

@[simp] theorem join_cons_of_le {frame : List α} (full : size ≤ frame.length) (frames) :
    join size (frame :: frames) = (join size frames).map fun (xs, rest) => (frame ++ xs, rest) := by
  rw [join, if_neg (Nat.not_lt.mpr full)]

/-- What a receiver that got a message did with the first frame: either it was
the short last frame, or a full one that the rest of the message follows. -/
theorem join_cons_eq_some {frame : List α} {frames rest : List (List α)} {xs : List α}
    (joined : join size (frame :: frames) = some (xs, rest)) :
    (frame.length < size ∧ xs = frame ∧ rest = frames) ∨
      (size ≤ frame.length ∧ ∃ ys, join size frames = some (ys, rest) ∧ xs = frame ++ ys) := by
  by_cases short : frame.length < size
  · rw [join_cons_of_lt short] at joined
    cases joined
    exact .inl ⟨short, rfl, rfl⟩
  · have full : size ≤ frame.length := Nat.not_lt.mp short
    rw [join_cons_of_le full, Option.map_eq_some_iff] at joined
    obtain ⟨⟨ys, rest'⟩, following, joinedFrames⟩ := joined
    cases joinedFrames
    exact .inr ⟨full, ys, following, rfl⟩

variable [NeZero size]

/-- The receiver gets back exactly the message that was split. -/
theorem join_split (xs : List α) : join size (split size xs) = some (xs, []) := by
  induction xs using split.induct size with
  | case1 xs short => rw [split_of_lt short, join_cons_of_lt short]
  | case2 xs full ih =>
    have full : size ≤ xs.length := Nat.not_lt.mp full
    rw [split_of_le full, join_cons_of_le (by simp [full]), ih]
    simp

/-- A message takes one frame per full `size` elements, and one more. -/
theorem length_split (xs : List α) : (split size xs).length = xs.length / size + 1 := by
  induction xs using split.induct size with
  | case1 xs short => rw [split_of_lt short, Nat.div_eq_of_lt short, List.length_singleton]
  | case2 xs full ih =>
    have full : size ≤ xs.length := Nat.not_lt.mp full
    have pos : 0 < size := Nat.pos_of_neZero size
    rw [split_of_le full, List.length_cons, ih, List.length_drop,
      Nat.div_eq_sub_div pos full]

/-- No frame is longer than `size`. -/
theorem length_le_of_mem_split (xs : List α) : ∀ frame ∈ split size xs, frame.length ≤ size := by
  induction xs using split.induct size with
  | case1 xs short =>
    rw [split_of_lt short]
    simpa using Nat.le_of_lt short
  | case2 xs full ih =>
    rw [split_of_le (Nat.not_lt.mp full), List.forall_mem_cons, List.length_take]
    exact ⟨Nat.min_le_left size xs.length, ih⟩

end Vitess.Framing
