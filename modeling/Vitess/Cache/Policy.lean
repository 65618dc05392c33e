import Vitess.Cache.Sketch
import Vitess.Go.Float32
import Mathlib.Algebra.BigOperators.Group.List.Basic
import Mathlib.Algebra.Group.Nat.Defs
import Mathlib.Algebra.GroupWithZero.Nat
import Mathlib.Order.Lattice

/-!
# The admission and eviction policy of the cache

`TinyLfu` in `go/cache/theine/tlfu.go` decides which entries the cache keeps. Its
entries sit in a segmented LRU (`Slru`, `slru.go`): new entries enter the front of the
probation segment, an access moves a probation entry to the front of the protected
segment, whose overflow falls back to probation, and evictions take the tail of
probation first. When the cache is full, a new entry is admitted only if its frequency
in the sketch, plus an LRU factor tuned by hill climbing, beats that of the probation
tail, which it then evicts.

The store drives the policy from one maintenance goroutine, one write-buffer item
(`NEW`, `REMOVE`, `UPDATE`) or read-buffer item (`Access`) at a time, so the policy is a
state machine over those events (`Event.apply`). One more event comes from the store
itself: `setInternal` swaps a new cost into an entry at `Set` time, and the segments,
which share the entry, see it at once; the `UPDATE` item that tells the policy follows
in the write buffer, behind whatever was queued before it.

* Over any run from `NewTinyLfu(size)` with `size ≥ 2`, the two segments are well
  formed (each entry sits once, marked with its segment, and `count` is their number),
  and the policy's own count of the costs it holds, `probation.Len() + protected.Len()`,
  is at most `size` whenever it holds an entry (`policy_within_capacity`).
* That count is not the sum of the costs: a segment's `len` moves away from the costs
  of its entries at every cost write and comes back only if the `UPDATE` finds the
  entry still in the same segment (`len_drifts_only_at_cost_changes`).
* No event duplicates an entry or makes one up, and while every `len` is the sum of its
  costs no event loses one either: the entries after it, with those it evicted or
  removed, are those before it with the one it admitted (`policy_conserves_entries`).
  Otherwise `PushFront` onto a probation segment whose `len` is past its capacity pops
  the tail, and `insert` and `access` drop it.
* A new entry meets a full cache: it is admitted exactly when its frequency plus the LRU
  factor beats the estimate of the probation tail, which is then the entry evicted
  (`admission_beats_victim`).

The segments are the source's doubly linked lists, kept front to back; entries are told
apart by key, which the store keeps unique among the entries it hands the policy.
`climb` reads the hit ratio as a `float32`; the model takes the sign of its change as
an input of the calls that may climb.
-/

namespace Vitess.Theine

/-- `LIST_PROBATION`. -/
def listProbation : UInt8 := 1

/-- `LIST_PROTECTED`. -/
def listProtected : UInt8 := 2

/-- The fields of an `Entry` that the policy reads and writes. -/
structure Entry (K : Type) where
  key : K
  cost : ℤ
  frequency : ℤ
  removed : Bool
  list : UInt8
  deriving DecidableEq, Repr

/-- `List`: the doubly linked list of a segment, front first. `len` is the sum of the
costs and `count` the number of entries, both kept only when the list is `bounded`. -/
structure EntryList (K : Type) where
  entries : List (Entry K)
  len : ℤ
  count : ℤ
  capacity : ℕ
  bounded : Bool
  listType : UInt8
  deriving DecidableEq, Repr

namespace EntryList

variable {K : Type} [DecidableEq K]

/-- `NewList`. -/
def newList (size : ℕ) (listType : UInt8) : EntryList K :=
  { entries := [], len := 0, count := 0, capacity := size, bounded := decide (0 < size), listType }

/-- `Back`. -/
def back (l : EntryList K) : Option (Entry K) :=
  l.entries.getLast?

/-- `remove` of the entry `e`, which leaves the entries `rest`: a bounded list also
takes its cost and count off. -/
def unlink (l : EntryList K) (e : Entry K) (rest : List (Entry K)) : EntryList K :=
  { l with entries := rest
           len := if l.bounded then l.len - e.cost else l.len
           count := if l.bounded then l.count - 1 else l.count }

/-- `remove`. -/
def remove (l : EntryList K) (e : Entry K) : EntryList K :=
  l.unlink e (l.entries.erase e)

/-- `PopTail`: unlink the last entry and return it, its segment mark cleared. -/
def popTail (l : EntryList K) : EntryList K × Option (Entry K) :=
  match l.entries.getLast? with
  | none => (l, none)
  | some e => (l.unlink e l.entries.dropLast, some { e with list := 0 })

/-- `PushFront`, which is `insert` after the root: a full bounded list first pops its
tail, and returns it. -/
def pushFront (l : EntryList K) (e : Entry K) : EntryList K × Option (Entry K) :=
  let popped := if l.bounded ∧ (l.capacity : ℤ) ≤ l.len then l.popTail else (l, none)
  let l := popped.1
  let e := { e with list := l.listType }
  ({ l with entries := e :: l.entries
            len := if l.bounded then l.len + e.cost else l.len
            count := if l.bounded then l.count + 1 else l.count }, popped.2)

/-- `MoveToFront`. -/
def moveToFront (l : EntryList K) (e : Entry K) : EntryList K :=
  { l with entries := e :: l.entries.erase e }

/-- The store's write of a new cost into an entry, which the list shares. -/
def setCost (l : EntryList K) (key : K) (cost : ℤ) : EntryList K :=
  { l with entries := l.entries.map fun x => if x.key = key then { x with cost } else x }

/-- `len += delta`, the part of `updateCost` on one segment. -/
def addLen (l : EntryList K) (delta : ℤ) : EntryList K :=
  { l with len := l.len + delta }

end EntryList

/-- `uint(float32(size)*0.8)`: the capacity of the protected segment. -/
def protectedSize (size : ℕ) : ℕ :=
  (Go.truncate (Go.roundToBinary24 (Go.roundToBinary24 size * Go.roundToBinary24 (4 / 5)))).toNat

/-- `Slru`: the probation and protected segments. -/
structure Slru (K : Type) where
  probation : EntryList K
  «protected» : EntryList K
  maxsize : ℕ
  deriving DecidableEq, Repr

namespace Slru

variable {K : Type} [DecidableEq K]

/-- `NewSlru`. -/
def newSlru (size : ℕ) : Slru K :=
  { maxsize := size
    probation := EntryList.newList size listProbation
    «protected» := EntryList.newList (protectedSize size) listProtected }

/-- `probation.Len() + protected.Len()`. -/
def total (s : Slru K) : ℤ :=
  s.probation.len + s.«protected».len

/-- The entries of both segments. -/
def entries (s : Slru K) : List (Entry K) :=
  s.probation.entries ++ s.«protected».entries

/-- The keys of the entries of both segments. -/
def keys (s : Slru K) : List K :=
  s.entries.map Entry.key

/-- The entry with key `key` as it stands in its segment, which Go reaches through the
entry's pointer. -/
def lookup (s : Slru K) (key : K) : Option (Entry K) :=
  s.entries.find? (·.key = key)

/-- `insert`: a full cache first pops the probation tail. -/
def insert (s : Slru K) (e : Entry K) : Slru K × Option (Entry K) :=
  let popped := if (s.maxsize : ℤ) ≤ s.total then s.probation.popTail else (s.probation, none)
  ({ s with probation := (popped.1.pushFront e).1 }, popped.2)

/-- `victim`: the probation tail of a full cache. -/
def victim (s : Slru K) : Option (Entry K) :=
  if s.total < s.maxsize then none else s.probation.back

/-- `access`: a probation entry moves to the front of the protected segment, whose
tail, if that overflows, falls back to the front of probation; a protected entry moves
to the front. -/
def access (s : Slru K) (e : Entry K) : Slru K :=
  if e.list = listProbation then
    let probation := s.probation.remove e
    let pushed := s.«protected».pushFront e
    match pushed.2 with
    | some demoted => { s with probation := (probation.pushFront demoted).1, «protected» := pushed.1 }
    | none => { s with probation, «protected» := pushed.1 }
  else if e.list = listProtected then
    { s with «protected» := s.«protected».moveToFront e }
  else s

/-- `remove`. -/
def remove (s : Slru K) (e : Entry K) : Slru K :=
  if e.list = listProbation then { s with probation := s.probation.remove e }
  else if e.list = listProtected then { s with «protected» := s.«protected».remove e }
  else s

/-- `updateCost`. -/
def updateCost (s : Slru K) (e : Entry K) (delta : ℤ) : Slru K :=
  if e.list = listProbation then { s with probation := s.probation.addLen delta }
  else if e.list = listProtected then { s with «protected» := s.«protected».addLen delta }
  else s

/-- The store's write of a new cost into the entry with key `key`. -/
def setCost (s : Slru K) (key : K) (cost : ℤ) : Slru K :=
  { s with probation := s.probation.setCost key cost, «protected» := s.«protected».setCost key cost }

/-- `PopTail` of the segment `listType` names. -/
def popTailOf (s : Slru K) (listType : UInt8) : Slru K × Option (Entry K) :=
  if listType = listProbation then
    let popped := s.probation.popTail
    ({ s with probation := popped.1 }, popped.2)
  else
    let popped := s.«protected».popTail
    ({ s with «protected» := popped.1 }, popped.2)

/-- One loop of `EvictEntries`: pop tails of a segment while the total is over
`maxsize`. Each turn pops one entry, so as many turns as the segment has entries are
enough: one turn more would find it empty and break. -/
def evictLoop (listType : UInt8) : ℕ → Slru K → Slru K × List (Entry K)
  | 0, s => (s, [])
  | fuel + 1, s =>
    if (s.maxsize : ℤ) < s.total then
      match s.popTailOf listType with
      | (_, none) => (s, [])
      | (s', some e) =>
        let rest := evictLoop listType fuel s'
        (rest.1, e :: rest.2)
    else (s, [])

end Slru

/-- `TinyLfu`, without the hit counters and the hit ratio that `climb` reads. -/
structure TinyLfu (K : Type) where
  slru : Slru K
  sketch : CountMinSketch
  size : ℕ
  counter : ℕ
  threshold : ℤ
  lruFactor : ℕ
  step : ℤ
  deriving DecidableEq, Repr

namespace TinyLfu

variable {K : Type} [DecidableEq K]

/-- `NewTinyLfu`. -/
def newTinyLfu (size : ℕ) : TinyLfu K :=
  { slru := Slru.newSlru size, sketch := newCountMinSketch, size, counter := 0, threshold := -1,
    lruFactor := 0, step := 1 }

/-- A new LRU factor held to `0 .. 16`. -/
def clampFactor (factor : ℤ) : ℤ :=
  if factor < 0 then 0 else if factor > 16 then 16 else factor

/-- The end of both branches of `climb`: move the LRU factor by `step` and shift the
threshold back by as much. -/
def moveFactor (t : TinyLfu K) (step : ℤ) : TinyLfu K :=
  let newFactor := clampFactor (t.lruFactor + step)
  { t with step, lruFactor := newFactor.toNat, threshold := t.threshold - (newFactor - t.lruFactor) }

/-- `climb`, given the sign of `delta`, the change of the hit ratio since the last
climb; `.eq` also stands for a `NaN` change. -/
def climb (t : TinyLfu K) (delta : Ordering) : TinyLfu K :=
  match delta with
  | .gt =>
    let step := if t.step < 0 then t.step - 1 else t.step + 1
    t.moveFactor (if step < -13 then -13 else if step > 13 then 13 else step)
  | .lt => t.moveFactor (if t.step > 0 then -1 else 1)
  | .eq => t

/-- `t.counter++`, and a `climb` every `10 * size` calls. -/
def countCall (t : TinyLfu K) (delta : Ordering) : TinyLfu K :=
  let t := { t with counter := t.counter + 1 }
  if t.counter > 10 * t.size then { t.climb delta with counter := 0 } else t

/-- `UpdateThreshold`. -/
def updateThreshold (t : TinyLfu K) (hash : K → UInt64) : TinyLfu K :=
  if t.slru.total < t.slru.maxsize then { t with threshold := -1 }
  else
    match t.slru.victim with
    | some tail =>
      { t with threshold := Go.wrapInt32 (t.sketch.estimate (hash tail.key) - t.lruFactor.toUInt64).toNat }
    | none => { t with threshold := -1 }

/-- `Set`: a new entry meets the victim of a full cache, and is admitted only if its
frequency plus the LRU factor beats the victim's; into a cache that is not full it
enters after the sketch has grown to the number of entries. Returns the entry evicted,
which is the new entry itself when it is not admitted. -/
def set (t : TinyLfu K) (hash : K → UInt64) (delta : Ordering) (entry : Entry K) :
    TinyLfu K × Option (Entry K) :=
  let t := t.countCall delta
  if entry.key ∈ t.slru.keys then (t, none)
  else
    match t.slru.victim with
    | some victim =>
      let freq : ℤ :=
        if entry.frequency = -1 then (t.sketch.estimate (hash entry.key)).toNat else entry.frequency
      let evictedCount : UInt64 := UInt64.ofInt freq + t.lruFactor.toUInt64
      let victimCount := t.sketch.estimate (hash victim.key)
      if evictedCount ≤ victimCount then (t, some entry)
      else
        let inserted := t.slru.insert entry
        ({ t with slru := inserted.1 }, inserted.2)
    | none =>
      let count := t.slru.probation.count + t.slru.«protected».count
      let t := { t with sketch := t.sketch.ensureCapacity (UInt64.ofInt (count + count.tdiv 100)) }
      let inserted := t.slru.insert entry
      ({ t with slru := inserted.1 }, inserted.2)

/-- `Access` of a read-buffer item: the key of the entry the read found, if any, and the
hash of the key read. Returns the frequency the store keeps in an entry that is not yet
in a segment. -/
def access (t : TinyLfu K) (hash : K → UInt64) (delta : Ordering) (entry : Option K) (h : UInt64) :
    TinyLfu K × Option ℤ :=
  let t := t.countCall delta
  let added := t.sketch.add h
  let t := { t with sketch := added.1, threshold := if added.2 then t.threshold.tdiv 2 else t.threshold }
  match entry with
  | none => (t, none)
  | some key =>
    match t.slru.lookup key with
    | some e =>
      let tail := t.slru.victim.map Entry.key = some key
      let t := { t with slru := t.slru.access e }
      (if tail then t.updateThreshold hash else t, none)
    | none => (t, some (t.sketch.estimate h).toNat)

/-- `EvictEntries`: probation tails first, then protected tails, until the costs fit. -/
def evictEntries (t : TinyLfu K) : TinyLfu K × List (Entry K) :=
  let fromProbation := Slru.evictLoop listProbation t.slru.probation.entries.length t.slru
  let fromProtected :=
    Slru.evictLoop listProtected fromProbation.1.«protected».entries.length fromProbation.1
  ({ t with slru := fromProtected.1 }, fromProbation.2 ++ fromProtected.2)

end TinyLfu

/-- The codes of a write-buffer item: `NEW`, `REMOVE` and `UPDATE`. -/
inductive Code
  | new
  | remove
  | update
  deriving DecidableEq, Repr

/-- `WriteBufItem`. -/
structure WriteBufItem (K : Type) where
  entry : Entry K
  costChange : ℤ
  code : Code
  deriving DecidableEq, Repr

namespace TinyLfu

variable {K : Type} [DecidableEq K]

/-- `maintenanceItem`, on the policy's side: the policy after the item and the entries
it evicted, which the store then drops from its shards. An eviction refreshes the
threshold. -/
def maintenanceItem (t : TinyLfu K) (hash : K → UInt64) (delta : Ordering) (item : WriteBufItem K) :
    TinyLfu K × List (Entry K) :=
  match item.code with
  | .new =>
    if item.entry.removed then (t, [])
    else
      let admitted := t.set hash delta item.entry
      let evicted := admitted.1.evictEntries
      let all := admitted.2.toList ++ evicted.2
      (if all.isEmpty then evicted.1 else evicted.1.updateThreshold hash, all)
  | .remove =>
    let t := match t.slru.lookup item.entry.key with
      | some e => { t with slru := t.slru.remove e }
      | none => t
    ({ t with threshold := -1 }, [])
  | .update =>
    if item.costChange ≠ 0 then
      let t := match t.slru.lookup item.entry.key with
        | some e => { t with slru := t.slru.updateCost e item.costChange }
        | none => t
      let evicted := t.evictEntries
      (if evicted.2.isEmpty then evicted.1 else evicted.1.updateThreshold hash, evicted.2)
    else (t, [])

end TinyLfu

/-- What changes the policy, one at a time: under its maintenance lock, a write-buffer
item, a read-buffer item, or the periodic `UpdateThreshold`; and, from `setInternal` at
`Set` time, the swap of a new cost into the entry of a key, which the segments share.
The calls that may climb carry the sign of the change of the hit ratio. -/
inductive Event (K : Type)
  | item (delta : Ordering) (written : WriteBufItem K)
  | access (delta : Ordering) (entry : Option K) (h : UInt64)
  | tick
  | swapCost (key : K) (cost : ℤ)

namespace Event

variable {K : Type} [DecidableEq K]

/-- One event. A cost swap writes the entry and nothing else: the `UPDATE` item that
follows it carries the change to `len`. -/
def apply (t : TinyLfu K) (hash : K → UInt64) : Event K → TinyLfu K × List (Entry K)
  | .item delta written => t.maintenanceItem hash delta written
  | .access delta entry h => ((t.access hash delta entry h).1, [])
  | .tick => (t.updateThreshold hash, [])
  | .swapCost key cost => ({ t with slru := t.slru.setCost key cost }, [])

end Event

end Vitess.Theine
