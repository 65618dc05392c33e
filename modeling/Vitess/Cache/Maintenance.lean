import Vitess.Cache.Segments
import Mathlib.Algebra.Group.Nat.Defs
import Mathlib.Algebra.GroupWithZero.Nat
import Mathlib.Algebra.Ring.Int.Defs
import Mathlib.Order.Lattice
import Mathlib.Tactic.NormNum
import Mathlib.Tactic.Linarith

/-!
# The policy over whole runs

The maintenance goroutine of the store hands the policy one event at a time, and the
store writes costs into entries between them. Here each call of `tlfu.go` is shown to
keep the policy well formed (`TinyLfu.WellFormed`), each event as a whole to account for
every key and for the drifts of the segments (`Event.Accounted`), and so every policy a
run of valid events reaches from `NewTinyLfu(size)` (`Reachable`).

Well formed here means what holds of the code over any interleaving: the segments'
structure, and `len` within the size whenever the cache holds an entry. It does not mean
that `len` is the sum of the costs; `Event.charge` says by how much each event moves it
away. Between the calls of one write-buffer item the cache may stand over its size: `Set`
admits before `EvictEntries` evicts, and an `UPDATE` grows `len` first. Those
intermediate policies are only `TinyLfu.Sound`.
-/

namespace Vitess.Theine

theorem one_le_protectedSize {size : ℕ} (big : 2 ≤ size) : 1 ≤ protectedSize size := by
  have sizeLow : (2 : ℚ) ^ (1 : ℤ) ≤ size := by
    rw [zpow_one]
    exact_mod_cast big
  have scaleLow : (2 : ℚ) ^ (-1 : ℤ) ≤ 4 / 5 := by norm_num
  have sizeRound : (2 : ℚ) ^ (1 : ℤ) ≤ Go.roundToBinary24 size := Go.le_roundToBits sizeLow
  have scaleRound : (2 : ℚ) ^ (-1 : ℤ) ≤ Go.roundToBinary24 (4 / 5) := Go.le_roundToBits scaleLow
  rw [zpow_one] at sizeRound
  rw [zpow_neg_one] at scaleRound
  have productLow : (2 : ℚ) ^ (0 : ℤ) ≤ Go.roundToBinary24 size * Go.roundToBinary24 (4 / 5) := by
    rw [zpow_zero]
    calc (1 : ℚ) = 2 * 2⁻¹ := by norm_num
      _ ≤ Go.roundToBinary24 size * Go.roundToBinary24 (4 / 5) :=
        mul_le_mul sizeRound scaleRound (by norm_num) (by linarith)
  have productRound : (2 : ℚ) ^ (0 : ℤ) ≤ Go.roundToBinary24 (Go.roundToBinary24 size * Go.roundToBinary24 (4 / 5)) :=
    Go.le_roundToBits productLow
  rw [zpow_zero] at productRound
  have truncated := Go.le_truncate (n := 1) (by exact_mod_cast productRound) (by linarith)
  unfold protectedSize
  omega

/-- The admission test of `Set`, `uint64(freq) + uint64(lruFactor) <= victimCount`, compares
the numbers themselves while the frequency is a nonnegative `int32` and the factor is
within `uint8`. -/
theorem admits_iff {freq : ℤ} {factor : ℕ} {victimCount : UInt64} (nonneg : 0 ≤ freq) (small : freq < 2 ^ 32)
    (factorSmall : factor ≤ 16) :
    UInt64.ofInt freq + factor.toUInt64 ≤ victimCount ↔ freq + factor ≤ victimCount.toNat := by
  have freqNat := Go.toNat_ofInt64 freq
  rw [Int.emod_eq_of_lt nonneg (by omega)] at freqNat
  have factorNat : factor.toUInt64.toNat = factor := by
    rw [Nat.toUInt64, UInt64.toNat_ofNat']
    exact Nat.mod_eq_of_lt (by omega)
  rw [UInt64.le_iff_toNat_le, UInt64.toNat_add, factorNat, Nat.mod_eq_of_lt (by omega)]
  omega

namespace EntryList

variable {K : Type}

theorem wellFormed_newList {size : ℕ} (room : 0 < size) (listType : UInt8) :
    (newList size listType : EntryList K).WellFormed listType where
  typed := rfl
  bounded := by simpa [newList] using room
  room := room
  count := rfl
  marked := by simp [newList]
  positive := by simp [newList]

end EntryList

namespace TinyLfu

variable {K : Type}

/-- A policy whose cache is well formed, whose sketch is well formed, and whose hill
climbing keeps the LRU factor and step where `uint8` and `int8` hold them. Between the
steps of a maintenance item the cache may be over its size. -/
structure Sound (t : TinyLfu K) : Prop where
  slru : t.slru.WellFormed
  sketch : t.sketch.WellFormed
  factor : t.lruFactor ≤ 16
  step : -13 ≤ t.step ∧ t.step ≤ 13

/-- A sound policy whose cache fits its size by its own count, as it does between
events. -/
structure WellFormed (t : TinyLfu K) : Prop extends t.Sound where
  fits : t.slru.Fits

/-- `NewTinyLfu(size)` from a size of two up is well formed: both segments are bounded. -/
theorem wellFormed_newTinyLfu {size : ℕ} (big : 2 ≤ size) : (newTinyLfu size : TinyLfu K).WellFormed where
  slru := by
    have probation := EntryList.wellFormed_newList (K := K) (show 0 < size by omega) listProbation
    have prot := EntryList.wellFormed_newList (K := K) (show 0 < protectedSize size by
      have := one_le_protectedSize big; omega) listProtected
    exact ⟨probation, prot, rfl, List.nodup_nil⟩
  sketch := by
    -- by rewriting: a defeq check against the new sketch would evaluate it
    simp only [TinyLfu.newTinyLfu]
    exact CountMinSketch.wellFormed_newCountMinSketch
  factor := Nat.zero_le 16
  step := by
    show (-13 : ℤ) ≤ 1 ∧ (1 : ℤ) ≤ 13
    omega
  fits := by
    left
    show (0 : ℤ) + 0 ≤ size
    omega

/-! ## The calls of one event -/

section Calls

variable {t : TinyLfu K}

@[simp] theorem slru_climb (delta : Ordering) : (t.climb delta).slru = t.slru := by
  cases delta <;> rfl

@[simp] theorem sketch_climb (delta : Ordering) : (t.climb delta).sketch = t.sketch := by
  cases delta <;> rfl

@[simp] theorem slru_updateThreshold (hash : K → UInt64) : (t.updateThreshold hash).slru = t.slru := by
  unfold updateThreshold
  split_ifs <;> [rfl; split <;> rfl]

theorem clampFactor_le (factor : ℤ) : 0 ≤ clampFactor factor ∧ clampFactor factor ≤ 16 := by
  unfold clampFactor
  split_ifs <;> omega

theorem lruFactor_moveFactor_le (step : ℤ) : (t.moveFactor step).lruFactor ≤ 16 := by
  have clamped := clampFactor_le (t.lruFactor + step)
  simp only [moveFactor]
  omega

@[simp] theorem step_moveFactor (step : ℤ) : (t.moveFactor step).step = step := rfl

/-- A climb keeps the factor within `0 .. 16` and the step within `-13 .. 13`, where the
`uint8` and `int8` arithmetic of the source never wraps. -/
theorem climb_bounds (factor : t.lruFactor ≤ 16) (step : -13 ≤ t.step ∧ t.step ≤ 13) (delta : Ordering) :
    (t.climb delta).lruFactor ≤ 16 ∧ -13 ≤ (t.climb delta).step ∧ (t.climb delta).step ≤ 13 := by
  cases delta with
  | lt =>
    refine ⟨lruFactor_moveFactor_le _, ?_⟩
    simp only [climb, step_moveFactor]
    split_ifs <;> omega
  | eq => exact ⟨factor, step⟩
  | gt =>
    refine ⟨lruFactor_moveFactor_le _, ?_⟩
    simp only [climb, step_moveFactor]
    split_ifs <;> omega

/-- `UpdateThreshold` moves only the threshold. -/
theorem updateThreshold_eq (hash : K → UInt64) : ∃ threshold, t.updateThreshold hash = { t with threshold } := by
  unfold updateThreshold
  split_ifs
  · exact ⟨_, rfl⟩
  · split <;> exact ⟨_, rfl⟩

theorem WellFormed.updateThreshold (wf : t.WellFormed) (hash : K → UInt64) : (t.updateThreshold hash).WellFormed := by
  obtain ⟨threshold, eq⟩ := updateThreshold_eq (t := t) hash
  rw [eq]
  exact ⟨⟨wf.slru, wf.sketch, wf.factor, wf.step⟩, wf.fits⟩

/-- `EvictEntries` brings a sound policy back within its size by its own count, or
empties it, and each key it evicts comes out of the cache. -/
theorem Sound.evictEntries (sound : t.Sound) :
    t.evictEntries.1.WellFormed ∧
      (t.evictEntries.1.slru.keys ++ t.evictEntries.2.map Entry.key).Perm t.slru.keys ∧
      t.evictEntries.1.slru.drift = t.slru.drift ∧
      t.evictEntries.1.slru.maxsize = t.slru.maxsize := by
  obtain ⟨first, hfirst⟩ : ∃ first, first = Slru.evictLoop listProbation t.slru.probation.entries.length t.slru :=
    ⟨_, rfl⟩
  obtain ⟨second, hsecond⟩ :
      ∃ second, second = Slru.evictLoop listProtected first.1.«protected».entries.length first.1 := ⟨_, rfl⟩
  have result : t.evictEntries = ({ t with slru := second.1 }, first.2 ++ second.2) := by
    rw [hsecond, hfirst]
    rfl
  obtain ⟨firstWf, firstKeys, firstDrift, firstMax⟩ :=
    sound.slru.evictLoop listProbation t.slru.probation.entries.length
  rw [← hfirst] at firstWf firstKeys firstDrift firstMax
  obtain ⟨secondWf, secondKeys, secondDrift, secondMax⟩ :=
    firstWf.evictLoop listProtected first.1.«protected».entries.length
  rw [← hsecond] at secondWf secondKeys secondDrift secondMax
  -- the first loop stops within the size or with probation empty; then the second stops
  -- within the size or with protected empty too
  have other : listProtected ≠ listProbation := by decide
  have fits : second.1.Fits := by
    have firstStop := sound.slru.evictLoop_fits listProbation
      (show (t.slru.segment listProbation).entries.length ≤ t.slru.probation.entries.length by
        simp [Slru.segment])
    rw [← hfirst] at firstStop
    rcases firstStop with within | probationEmpty
    · rw [← firstMax] at within
      rw [hsecond, Slru.evictLoop_of_fits _ _ within]
      exact Or.inl within
    · have secondStop := firstWf.evictLoop_fits listProtected
        (show (first.1.segment listProtected).entries.length ≤ first.1.«protected».entries.length by
          simp [Slru.segment, other])
      rw [← hsecond] at secondStop
      rcases secondStop with within | protectedEmpty
      · left
        rw [secondMax]
        exact within
      · have kept : second.1.probation = first.1.probation := by
          rw [hsecond]
          exact Slru.probation_evictLoop_protected _
        simp only [Slru.segment, if_true, if_neg other] at probationEmpty protectedEmpty
        right
        rw [Slru.entries, kept, probationEmpty, protectedEmpty]
        rfl
  rw [result]
  refine ⟨⟨⟨secondWf, sound.sketch, sound.factor, sound.step⟩, fits⟩, ?_, secondDrift.trans firstDrift,
    secondMax.trans firstMax⟩
  -- the second loop's evictions go back first, then the first loop's
  rw [List.map_append]
  refine (List.Perm.append_left _ List.perm_append_comm).trans ?_
  rw [← List.append_assoc]
  exact (List.Perm.append_right _ secondKeys).trans firstKeys

@[simp] theorem slru_countCall (delta : Ordering) : (t.countCall delta).slru = t.slru := by
  simp only [countCall]
  split_ifs <;> simp

@[simp] theorem sketch_countCall (delta : Ordering) : (t.countCall delta).sketch = t.sketch := by
  simp only [countCall]
  split_ifs <;> simp

theorem countCall_bounds (factor : t.lruFactor ≤ 16) (step : -13 ≤ t.step ∧ t.step ≤ 13) (delta : Ordering) :
    (t.countCall delta).lruFactor ≤ 16 ∧ -13 ≤ (t.countCall delta).step ∧ (t.countCall delta).step ≤ 13 := by
  simp only [countCall]
  split_ifs
  · exact climb_bounds (t := { t with counter := t.counter + 1 }) factor step delta
  · exact ⟨factor, step⟩

/-- The threshold refresh that ends a `NEW` or `UPDATE` item when it evicted something. -/
@[simp] theorem slru_refresh (quiet : Bool) (hash : K → UInt64) :
    (if quiet = true then t else t.updateThreshold hash).slru = t.slru := by
  split_ifs <;> simp

theorem WellFormed.refresh (wf : t.WellFormed) (quiet : Bool) (hash : K → UInt64) :
    (if quiet = true then t else t.updateThreshold hash).WellFormed := by
  split_ifs
  · exact wf
  · exact wf.updateThreshold hash

theorem WellFormed.countCall (wf : t.WellFormed) (delta : Ordering) : (t.countCall delta).Sound := by
  obtain ⟨factor, stepLow, stepHigh⟩ := countCall_bounds wf.factor wf.step delta
  exact ⟨by simpa using wf.slru, by simpa using wf.sketch, factor, stepLow, stepHigh⟩

variable [DecidableEq K]

/-- `Set` into a well-formed policy of an entry of positive cost keeps the policy sound
and the drifts: the new key, if the cache did not hold it yet, is in the cache or handed
back, with every key the insertion evicts or drops, and it drops none while both drifts
are zero. -/
theorem WellFormed.set (wf : t.WellFormed) (hash : K → UInt64) (delta : Ordering) {entry : Entry K}
    (positive : 0 < entry.cost) :
    ∃ dropped : List K,
      (t.set hash delta entry).1.Sound ∧
      ((t.set hash delta entry).1.slru.keys ++ (t.set hash delta entry).2.toList.map Entry.key ++ dropped).Perm
        (t.slru.keys ++ if entry.key ∈ t.slru.keys then [] else [entry.key]) ∧
      (t.set hash delta entry).1.slru.drift = t.slru.drift ∧
      (t.set hash delta entry).1.slru.maxsize = t.slru.maxsize ∧
      (t.slru.drift = 0 → dropped = []) := by
  have counted := wf.countCall delta
  by_cases listed : entry.key ∈ t.slru.keys
  · have result : t.set hash delta entry = (t.countCall delta, none) := by
      simp [TinyLfu.set, listed]
    rw [result, if_pos listed]
    exact ⟨[], counted, by simp, by simp, by simp, fun _ => rfl⟩
  · obtain ⟨dropped, insertedWf, insertedKeys, insertedDrift, quiet⟩ := wf.slru.insert listed positive
    have keys : ((t.slru.insert entry).1.keys ++ (t.slru.insert entry).2.toList.map Entry.key ++
        dropped.toList.map Entry.key).Perm (t.slru.keys ++ [entry.key]) := by
      rw [List.append_assoc, ← List.map_append]
      exact insertedKeys.trans (List.perm_append_singleton _ _).symm
    -- the policy after an insertion, with whichever sketch `Set` leaves
    have inserted : ∀ sketch : CountMinSketch, sketch.WellFormed → ∃ dropped : List K,
        ({ t.countCall delta with slru := (t.slru.insert entry).1, sketch } : TinyLfu K).Sound ∧
        ((t.slru.insert entry).1.keys ++ (t.slru.insert entry).2.toList.map Entry.key ++ dropped).Perm
          (t.slru.keys ++ [entry.key]) ∧
        (t.slru.insert entry).1.drift = t.slru.drift ∧ (t.slru.insert entry).1.maxsize = t.slru.maxsize ∧
        (t.slru.drift = 0 → dropped = []) :=
      fun sketch sketchWf => ⟨dropped.toList.map Entry.key, ⟨insertedWf, sketchWf, counted.factor, counted.step⟩,
        keys, insertedDrift, rfl, fun balanced => by rw [quiet balanced wf.fits]; rfl⟩
    have rejected : ∃ dropped : List K, (t.countCall delta).Sound ∧
        ((t.countCall delta).slru.keys ++ [entry.key] ++ dropped).Perm (t.slru.keys ++ [entry.key]) ∧
        (t.countCall delta).slru.drift = t.slru.drift ∧ (t.countCall delta).slru.maxsize = t.slru.maxsize ∧
        (t.slru.drift = 0 → dropped = []) :=
      ⟨[], counted, by simp, by simp, by simp, fun _ => rfl⟩
    rw [if_neg listed]
    simp only [TinyLfu.set, slru_countCall, sketch_countCall, if_neg listed]
    split
    · -- a full cache: the entry either loses to the victim or is inserted; the test reads
      -- the sketch for an entry whose frequency was never estimated
      split_ifs
      · exact rejected
      · exact inserted _ wf.sketch
      · exact rejected
      · exact inserted _ wf.sketch
    · exact inserted _ (CountMinSketch.wellFormed_ensureCapacity wf.sketch _)

/-- `Access` keeps a well-formed policy well formed and the drifts: at most an entry
moves between or within the segments, and the probation `PushFront` of a demoted entry
may drop one, which it does not while both drifts are zero. -/
theorem WellFormed.access (wf : t.WellFormed) (hash : K → UInt64) (delta : Ordering) (entry : Option K)
    (h : UInt64) :
    ∃ dropped : List K,
      (t.access hash delta entry h).1.WellFormed ∧
      ((t.access hash delta entry h).1.slru.keys ++ dropped).Perm t.slru.keys ∧
      (t.access hash delta entry h).1.slru.drift = t.slru.drift ∧
      (t.access hash delta entry h).1.slru.maxsize = t.slru.maxsize ∧
      (t.slru.drift = 0 → dropped = []) := by
  have counted := wf.countCall delta
  have added := CountMinSketch.wellFormed_add wf.sketch h
  cases entry with
  | none =>
    simp only [TinyLfu.access, slru_countCall, sketch_countCall]
    exact ⟨[], ⟨⟨wf.slru, added, counted.factor, counted.step⟩, wf.fits⟩, by simp, by simp, by simp, fun _ => rfl⟩
  | some key =>
    cases found : t.slru.lookup key with
    | none =>
      simp only [TinyLfu.access, slru_countCall, sketch_countCall, found]
      exact ⟨[], ⟨⟨wf.slru, added, counted.factor, counted.step⟩, wf.fits⟩, by simp, by simp, by simp, fun _ => rfl⟩
    | some e =>
      simp only [TinyLfu.access, slru_countCall, sketch_countCall, found]
      obtain ⟨dropped, accessWf, accessKeys, accessTotal, accessDrift, accessMax, quiet⟩ := wf.slru.access found
      -- the total does not grow, and the cache is not empty: it held the entry
      have fits : (t.slru.access e).Fits := by
        rcases wf.fits with within | empty
        · left
          rw [accessMax]
          exact accessTotal.trans within
        · exact absurd empty (Slru.entries_ne_nil_of_lookup found)
      refine ⟨dropped.toList.map Entry.key, ?_, ?_, ?_, ?_, fun balanced => by rw [quiet balanced wf.fits]; rfl⟩
      all_goals by_cases tail : t.slru.victim.map Entry.key = some key
      all_goals simp only [tail, if_true, if_false, slru_updateThreshold]
      · apply WellFormed.updateThreshold
        exact ⟨⟨accessWf, added, counted.factor, counted.step⟩, fits⟩
      · exact ⟨⟨accessWf, added, counted.factor, counted.step⟩, fits⟩
      all_goals assumption

end Calls

end TinyLfu

/-! ## Events -/

namespace Event

variable {K : Type} [DecidableEq K]

/-- What the store guarantees of the events it hands the policy: the entry of a
write-buffer item has a positive cost, and so has every cost it writes. -/
def Valid : Event K → Prop
  | .item _ written => 0 < written.entry.cost
  | .swapCost _ cost => 0 < cost
  | .access .. => True
  | .tick => True

/-- The key an event brings into the cache: that of a `NEW` item for an entry neither
removed nor cached yet. -/
def arriving (t : TinyLfu K) : Event K → List K
  | .item _ written =>
    if written.code = .new ∧ written.entry.removed = false ∧ written.entry.key ∉ t.slru.keys then
      [written.entry.key] else []
  | _ => []

/-- The key an event takes out of the cache without evicting it: that of a `REMOVE` item
for a cached entry. -/
def leaving (t : TinyLfu K) : Event K → List K
  | .item _ written => if written.code = .remove ∧ written.entry.key ∈ t.slru.keys then [written.entry.key] else []
  | _ => []

/-- What an event adds to the drifts of the two segments. A cost the store writes into an
entry the cache holds moves the drift of the entry's segment by the old cost less the
new; an `UPDATE` item that finds its entry moves the drift of the segment the entry is
in by then by the cost change. Nothing else moves a drift. -/
def charge (t : TinyLfu K) : Event K → ℤ × ℤ
  | .item _ written =>
    if written.code = .update ∧ written.costChange ≠ 0 then
      match t.slru.lookup written.entry.key with
      | some e => Slru.shift e.list written.costChange
      | none => 0
    else 0
  | .swapCost key cost =>
    match t.slru.lookup key with
    | some e => Slru.shift e.list (e.cost - cost)
    | none => 0
  | .access .. => 0
  | .tick => 0

/-- What one event does to the policy `t`: it leaves it well formed; the keys after it,
with those it evicts, the one it removes and those it drops, are the keys before it with
the one it admits, and it drops none while both drifts are zero; it moves the drifts by
its charge; and it keeps the size. -/
structure Accounted (t : TinyLfu K) (hash : K → UInt64) (event : Event K) : Prop where
  wellFormed : (event.apply t hash).1.WellFormed
  conserved : ∃ dropped : List K,
    ((event.apply t hash).1.slru.keys ++ (event.apply t hash).2.map Entry.key ++ event.leaving t ++ dropped).Perm
      (t.slru.keys ++ event.arriving t) ∧ (t.slru.drift = 0 → dropped = [])
  drift : (event.apply t hash).1.slru.drift = t.slru.drift + event.charge t
  maxsize : (event.apply t hash).1.slru.maxsize = t.slru.maxsize

/-- An event that leaves no key out of place: nothing evicted, removed, admitted or
dropped. -/
theorem Accounted.of_keys {t t' : TinyLfu K} {hash : K → UInt64} {event : Event K}
    (result : event.apply t hash = (t', [])) (wellFormed : t'.WellFormed) (keys : t'.slru.keys = t.slru.keys)
    (leaving : event.leaving t = []) (arriving : event.arriving t = [])
    (drift : t'.slru.drift = t.slru.drift + event.charge t) (maxsize : t'.slru.maxsize = t.slru.maxsize) :
    event.Accounted t hash := by
  refine ⟨?_, ⟨[], ?_, fun _ => rfl⟩, ?_, ?_⟩ <;> rw [result]
  · exact wellFormed
  · simp [keys, leaving, arriving]
  · exact drift
  · exact maxsize

end Event

namespace TinyLfu

variable {K : Type} [DecidableEq K] {t : TinyLfu K}

/-- A `NEW` item: `Set`, then `EvictEntries`. The entry's key, unless it was removed or is
cached already, ends in the cache, among the evicted or among the dropped, with every
key evicted or dropped to make room. -/
theorem WellFormed.accounted_new (wf : t.WellFormed) (hash : K → UInt64) (delta : Ordering) (entry : Entry K)
    (costChange : ℤ) (positive : 0 < entry.cost) :
    (Event.item delta ⟨entry, costChange, .new⟩ : Event K).Accounted t hash := by
  have arriving : (Event.item delta ⟨entry, costChange, .new⟩ : Event K).arriving t =
      if entry.removed = false ∧ entry.key ∉ t.slru.keys then [entry.key] else [] := by
    simp [Event.arriving]
  have leaving : (Event.item delta ⟨entry, costChange, .new⟩ : Event K).leaving t = [] := by
    simp [Event.leaving]
  have charge : (Event.item delta ⟨entry, costChange, .new⟩ : Event K).charge t = 0 := by
    simp [Event.charge]
  by_cases removed : entry.removed = true
  · have result : (Event.item delta ⟨entry, costChange, .new⟩ : Event K).apply t hash = (t, []) := by
      simp [Event.apply, maintenanceItem, removed]
    exact Event.Accounted.of_keys result wf rfl leaving (by simp [arriving, removed]) (by simp [charge]) rfl
  · obtain ⟨dropped, setSound, setKeys, setDrift, setMax, quiet⟩ := wf.set hash delta positive
    obtain ⟨evictWf, evictKeys, evictDrift, evictMax⟩ := setSound.evictEntries
    have fresh : (if entry.removed = false ∧ entry.key ∉ t.slru.keys then [entry.key] else []) =
        if entry.key ∈ t.slru.keys then [] else [entry.key] := by
      by_cases listed : entry.key ∈ t.slru.keys <;> simp [listed, removed]
    refine ⟨?_, ⟨dropped, ?_, quiet⟩, ?_, ?_⟩
    all_goals simp only [Event.apply, maintenanceItem, if_neg removed, slru_refresh]
    · exact evictWf.refresh _ hash
    · -- the keys `Set` hands back go after those `EvictEntries` hands back
      rw [leaving, arriving, fresh, List.append_nil, List.map_append]
      refine List.Perm.trans ?_ ((List.Perm.append_right _ (List.Perm.append_right _ evictKeys)).trans setKeys)
      simp only [List.append_assoc]
      refine List.Perm.append_left _ ?_
      rw [← List.append_assoc, ← List.append_assoc]
      exact List.Perm.append_right _ List.perm_append_comm
    · rw [evictDrift, setDrift, charge, add_zero]
    · rw [evictMax, setMax]

/-- A `REMOVE` item takes the entry's key out of the cache, if the cache holds it, and
evicts nothing. -/
theorem WellFormed.accounted_remove (wf : t.WellFormed) (hash : K → UInt64) (delta : Ordering) (entry : Entry K)
    (costChange : ℤ) :
    (Event.item delta ⟨entry, costChange, .remove⟩ : Event K).Accounted t hash := by
  have arriving : (Event.item delta ⟨entry, costChange, .remove⟩ : Event K).arriving t = [] := by
    simp [Event.arriving]
  have leaving : (Event.item delta ⟨entry, costChange, .remove⟩ : Event K).leaving t =
      if entry.key ∈ t.slru.keys then [entry.key] else [] := by
    simp [Event.leaving]
  have charge : (Event.item delta ⟨entry, costChange, .remove⟩ : Event K).charge t = 0 := by
    simp [Event.charge]
  cases found : t.slru.lookup entry.key with
  | none =>
    have absent := Slru.lookup_eq_none_iff.mp found
    have result : (Event.item delta ⟨entry, costChange, .remove⟩ : Event K).apply t hash =
        ({ t with threshold := -1 }, []) := by
      simp [Event.apply, maintenanceItem, found]
    exact Event.Accounted.of_keys result ⟨⟨wf.slru, wf.sketch, wf.factor, wf.step⟩, wf.fits⟩ rfl
      (by simp [leaving, absent]) arriving (by simp [charge]) rfl
  | some e =>
    obtain ⟨removedWf, removedKeys, removedTotal, removedDrift, removedMax⟩ := wf.slru.remove found
    obtain ⟨same, located⟩ := wf.slru.lookup_some found
    have present : entry.key ∈ t.slru.keys := same ▸ removedKeys.subset List.mem_cons_self
    have cost : 0 < e.cost := by
      rcases located with ⟨mem, -⟩ | ⟨mem, -⟩
      · exact wf.slru.probation.positive e mem
      · exact wf.slru.«protected».positive e mem
    -- the cache held the entry, so it was within its size, and is after less one cost
    have fits : (t.slru.remove e).Fits := by
      left
      rcases wf.fits with within | empty
      · rw [removedTotal, removedMax]
        omega
      · exact absurd empty (Slru.entries_ne_nil_of_lookup found)
    have result : (Event.item delta ⟨entry, costChange, .remove⟩ : Event K).apply t hash =
        ({ t with slru := t.slru.remove e, threshold := -1 }, []) := by
      simp [Event.apply, maintenanceItem, found]
    refine ⟨?_, ⟨[], ?_, fun _ => rfl⟩, ?_, ?_⟩ <;> rw [result]
    · exact ⟨⟨removedWf, wf.sketch, wf.factor, wf.step⟩, fits⟩
    · simp only [leaving, arriving, if_pos present, List.map_nil, List.append_nil]
      rw [← same]
      exact (List.perm_append_singleton _ _).trans removedKeys
    · simp [removedDrift, charge]
    · exact removedMax

/-- An `UPDATE` item moves `len` of the entry's segment by the cost change, if the cache
holds the entry, and then `EvictEntries` brings the cache back within its size; the
cache's keys stay, but for those evicted. -/
theorem WellFormed.accounted_update (wf : t.WellFormed) (hash : K → UInt64) (delta : Ordering) (entry : Entry K)
    (costChange : ℤ) :
    (Event.item delta ⟨entry, costChange, .update⟩ : Event K).Accounted t hash := by
  have arriving : (Event.item delta ⟨entry, costChange, .update⟩ : Event K).arriving t = [] := by
    simp [Event.arriving]
  have leaving : (Event.item delta ⟨entry, costChange, .update⟩ : Event K).leaving t = [] := by
    simp [Event.leaving]
  by_cases zero : costChange = 0
  · have result : (Event.item delta ⟨entry, costChange, .update⟩ : Event K).apply t hash = (t, []) := by
      simp [Event.apply, maintenanceItem, zero]
    exact Event.Accounted.of_keys result wf rfl leaving arriving (by simp [Event.charge, zero]) rfl
  -- the policy `updateCost` leaves, what the item returns from it, and what it adds to the drifts
  obtain ⟨updated, result, updatedSound, updatedKeys, updatedDrift, updatedMax⟩ : ∃ updated : TinyLfu K,
      (Event.item delta ⟨entry, costChange, .update⟩ : Event K).apply t hash =
        (if updated.evictEntries.2.isEmpty then updated.evictEntries.1
          else updated.evictEntries.1.updateThreshold hash, updated.evictEntries.2) ∧
      updated.Sound ∧ updated.slru.keys = t.slru.keys ∧
      updated.slru.drift = t.slru.drift + (Event.item delta ⟨entry, costChange, .update⟩ : Event K).charge t ∧
      updated.slru.maxsize = t.slru.maxsize := by
    simp only [Event.apply, maintenanceItem, Event.charge, true_and, zero, ne_eq, not_false_eq_true, if_true]
    cases t.slru.lookup entry.key with
    | none => exact ⟨t, rfl, wf.toSound, rfl, by simp, rfl⟩
    | some e =>
      obtain ⟨updatedWf, keys, maxsize⟩ := wf.slru.updateCost e costChange
      exact ⟨_, rfl, ⟨updatedWf, wf.sketch, wf.factor, wf.step⟩, keys, Slru.drift_updateCost _ _ _, maxsize⟩
  obtain ⟨evictWf, evictKeys, evictDrift, evictMax⟩ := updatedSound.evictEntries
  refine ⟨?_, ⟨[], ?_, fun _ => rfl⟩, ?_, ?_⟩ <;> rw [result]
  · exact evictWf.refresh _ hash
  · rw [slru_refresh, leaving, arriving, ← updatedKeys]
    simpa using evictKeys
  · rw [slru_refresh, evictDrift, updatedDrift]
  · rw [slru_refresh, evictMax, updatedMax]

/-- A read: at most an entry moves between or within the segments, and the sketch counts
the key. -/
theorem WellFormed.accounted_access (wf : t.WellFormed) (hash : K → UInt64) (delta : Ordering) (entry : Option K)
    (h : UInt64) : (Event.access delta entry h : Event K).Accounted t hash := by
  obtain ⟨dropped, accessWf, accessKeys, accessDrift, accessMax, quiet⟩ := wf.access hash delta entry h
  refine ⟨accessWf, ⟨dropped, ?_, quiet⟩, ?_, accessMax⟩
  · show ((t.access hash delta entry h).1.slru.keys ++ [].map Entry.key ++ [] ++ dropped).Perm (t.slru.keys ++ [])
    simpa using accessKeys
  · show (t.access hash delta entry h).1.slru.drift = t.slru.drift + 0
    rw [accessDrift, add_zero]

/-- The store's write of a positive cost into the entry of a key: no key moves, and the
drift of the entry's segment moves by the old cost less the new. -/
theorem WellFormed.accounted_swapCost (wf : t.WellFormed) (hash : K → UInt64) (key : K) {cost : ℤ}
    (positive : 0 < cost) : (Event.swapCost key cost : Event K).Accounted t hash := by
  have fits : (t.slru.setCost key cost).Fits := by
    rcases wf.fits with within | empty
    · exact Or.inl within
    · right
      rw [Slru.entries_setCost, empty, List.map_nil]
  refine Event.Accounted.of_keys rfl ⟨⟨wf.slru.setCost key positive, wf.sketch, wf.factor, wf.step⟩, fits⟩
    (Slru.keys_setCost key cost) rfl rfl ?_ rfl
  simp only [Event.charge]
  cases found : t.slru.lookup key with
  | none => rw [Slru.setCost_of_not_mem (Slru.lookup_eq_none_iff.mp found), add_zero]
  | some e => exact wf.slru.drift_setCost found cost

/-- Every valid event accounts for every key and for the drifts of a well-formed policy. -/
theorem WellFormed.accounted (wf : t.WellFormed) (hash : K → UInt64) {event : Event K} (valid : event.Valid) :
    event.Accounted t hash := by
  cases event with
  | item delta written =>
    obtain ⟨entry, costChange, code⟩ := written
    cases code with
    | new => exact wf.accounted_new hash delta entry costChange valid
    | remove => exact wf.accounted_remove hash delta entry costChange
    | update => exact wf.accounted_update hash delta entry costChange
  | access delta entry h => exact wf.accounted_access hash delta entry h
  | tick =>
    exact Event.Accounted.of_keys rfl (wf.updateThreshold hash) (by simp) rfl rfl (by simp [Event.charge]) (by simp)
  | swapCost key cost => exact wf.accounted_swapCost hash key valid

end TinyLfu

/-! ## Runs -/

/-- The policies that runs of valid events reach from `NewTinyLfu(size)`. -/
inductive Reachable {K : Type} [DecidableEq K] (size : ℕ) (hash : K → UInt64) : TinyLfu K → Prop
  | init : Reachable size hash (TinyLfu.newTinyLfu size)
  | step {t : TinyLfu K} {event : Event K} :
      Reachable size hash t → event.Valid → Reachable size hash (event.apply t hash).1

namespace Reachable

variable {K : Type} [DecidableEq K] {size : ℕ} {hash : K → UInt64} {t : TinyLfu K}

/-- Every reachable policy is well formed, with the size it was made with. -/
theorem wellFormed (reach : Reachable size hash t) (big : 2 ≤ size) : t.WellFormed ∧ t.slru.maxsize = size := by
  induction reach with
  | init => exact ⟨TinyLfu.wellFormed_newTinyLfu big, rfl⟩
  | step _ valid ih =>
    obtain ⟨wf, maxsize⟩ := ih
    have accounted := wf.accounted hash valid
    exact ⟨accounted.wellFormed, accounted.maxsize.trans maxsize⟩

end Reachable

end Vitess.Theine
