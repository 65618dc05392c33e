import Mathlib.Data.List.AList

/-!
# Maps built key by key

A loop over the entries of a map that, for each key, stores a value under that
key in a fresh map or deletes the key there (`result[k] = v` and
`delete(result, k)`) is a fold of `store` over the entries. The loop body may
fail, so the fold runs in `Except`. Each key is visited once, so the result
holds at each key of the input what the body computed from that key's entry,
and at any other key what the map started with (`lookup_storeEach`); a body
that never fails gives a loop that never fails (`storeEach_ok`). A loop whose
every step inserts under a key of its own is `foldlM_insert`; one that inserts
each key of a map with its value, in any order, rebuilds the map
(`foldlM_rebuild`). A loop that inserts each entry's outcome when there is one
and skips the entry otherwise is `insertEach` (`lookup_insertEach`).
-/

namespace Vitess.KeyedFold

universe u

variable {α : Type u} [DecidableEq α] {β : α → Type u} {ε : Type u}

/-- Store `value` under `key`, or delete `key` when there is no value. -/
def store (map : AList β) (key : α) : Option (β key) → AList β
  | none => map.erase key
  | some value => map.insert key value

@[simp] theorem lookup_store_self (map : AList β) (key : α) (value : Option (β key)) :
    (store map key value).lookup key = value := by
  cases value <;> simp [store]

theorem lookup_store_ne {map : AList β} {key other : α} (ne : other ≠ key)
    (value : Option (β key)) : (store map key value).lookup other = map.lookup other := by
  cases value with
  | none => exact AList.lookup_erase_ne ne
  | some value => exact AList.lookup_insert_ne ne

section Fold

variable (body : (key : α) → β key → Except ε (Option (β key)))

/-- The loop: each entry's value goes through `body` and the outcome is stored
under its key. -/
def storeEach (entries : List (Sigma β)) (map : AList β) : Except ε (AList β) :=
  entries.foldlM (fun map entry => store map entry.1 <$> body entry.1 entry.2) map

theorem storeEach_cons (entry : Sigma β) (entries : List (Sigma β)) (map : AList β) :
    storeEach body (entry :: entries) map =
      body entry.1 entry.2 >>= fun outcome => storeEach body entries (store map entry.1 outcome) := by
  simp only [storeEach, List.foldlM_cons, bind_map_left]

/-- A body that never fails gives a loop that never fails. -/
theorem storeEach_ok (total : ∀ key value, ∃ outcome, body key value = .ok outcome)
    (entries : List (Sigma β)) (map : AList β) : ∃ result, storeEach body entries map = .ok result := by
  induction entries generalizing map with
  | nil => exact ⟨map, rfl⟩
  | cons entry entries inductionHypothesis =>
    obtain ⟨outcome, ran⟩ := total entry.1 entry.2
    obtain ⟨result, rest⟩ := inductionHypothesis (store map entry.1 outcome)
    exact ⟨result, by rw [storeEach_cons, ran]; exact rest⟩

/-- Over entries with distinct keys, each key of the entries ends up holding what
`body` computed from its entry, and every other key keeps what the map had. -/
theorem lookup_storeEach {entries : List (Sigma β)} (nodup : entries.NodupKeys)
    {map result : AList β} (ran : storeEach body entries map = .ok result) (key : α) :
    (∃ value, entries.dlookup key = some value ∧ body key value = .ok (result.lookup key)) ∨
      (entries.dlookup key = none ∧ result.lookup key = map.lookup key) := by
  induction entries generalizing map with
  | nil =>
    cases ran
    exact .inr ⟨rfl, rfl⟩
  | cons entry entries inductionHypothesis =>
    obtain ⟨first, value⟩ := entry
    obtain ⟨fresh, nodupRest⟩ := List.nodupKeys_cons.mp nodup
    rw [storeEach_cons] at ran
    cases bodyRan : body first value with
    | error e => simp [bodyRan] at ran; cases ran
    | ok outcome =>
      rw [bodyRan] at ran
      have restRan := inductionHypothesis nodupRest ran
      by_cases same : key = first
      · -- the key of this entry occurs in no later entry, so the store here is final
        subst same
        have absent : entries.dlookup key = none := List.dlookup_eq_none.mpr fresh
        rcases restRan with ⟨_, found, _⟩ | ⟨-, kept⟩
        · rw [absent] at found
          cases found
        · rw [kept, lookup_store_self]
          exact .inl ⟨value, List.dlookup_cons_eq .., bodyRan⟩
      · rw [List.dlookup_cons_ne _ _ same]
        rcases restRan with found | ⟨absent, kept⟩
        · exact .inl found
        · exact .inr ⟨absent, by rw [kept, lookup_store_ne same]⟩

end Fold

section Insert

variable {δ γ : Type u}

/-- Insert `value` under `key` when there is one, else leave the map as it is
(a loop body's `continue`). -/
def insertSome (map : AList fun _ : α => γ) (key : α) : Option γ → AList fun _ : α => γ
  | none => map
  | some value => map.insert key value

theorem lookup_insertSome_self (map : AList fun _ : α => γ) (key : α) (outcome : Option γ) :
    (insertSome map key outcome).lookup key = outcome.or (map.lookup key) := by
  cases outcome <;> simp [insertSome]

theorem lookup_insertSome_ne {map : AList fun _ : α => γ} {key other : α} (ne : other ≠ key)
    (outcome : Option γ) : (insertSome map key outcome).lookup other = map.lookup other := by
  cases outcome with
  | none => rfl
  | some value => exact AList.lookup_insert_ne ne

/-- The loop: each entry's outcome under `body` is inserted under its key when
there is one. -/
def insertEach (body : α → δ → Except ε (Option γ)) (entries : List (Σ _ : α, δ))
    (map : AList fun _ : α => γ) : Except ε (AList fun _ : α => γ) :=
  entries.foldlM (fun map entry => insertSome map entry.1 <$> body entry.1 entry.2) map

/-- Over entries with distinct keys on which `body` succeeds, each key of the
entries ends with its entry's outcome when there is one, and every other key
keeps what the map had. -/
theorem lookup_insertEach (body : α → δ → Except ε (Option γ)) :
    ∀ (entries : List (Σ _ : α, δ)) (map : AList fun _ : α => γ), entries.NodupKeys →
      (∀ entry ∈ entries, ∃ outcome, body entry.1 entry.2 = .ok outcome) →
      ∃ result, insertEach body entries map = .ok result ∧
        (∀ entry ∈ entries, ∀ outcome, body entry.1 entry.2 = .ok outcome →
          result.lookup entry.1 = outcome.or (map.lookup entry.1)) ∧
        ∀ key, (∀ entry ∈ entries, entry.1 ≠ key) → result.lookup key = map.lookup key
  | [], map, _, _ => ⟨map, rfl, by simp, fun _ _ => rfl⟩
  | entry :: rest, map, nodup, total => by
    obtain ⟨fresh, nodupRest⟩ := List.nodupKeys_cons.mp nodup
    obtain ⟨first, ran⟩ := total entry List.mem_cons_self
    obtain ⟨result, folded, found, kept⟩ :=
      lookup_insertEach body rest (insertSome map entry.1 first) nodupRest
        fun later member => total later (List.mem_cons_of_mem entry member)
    -- no later entry has this entry's key
    have notLater : ∀ later ∈ rest, later.1 ≠ entry.1 := fun later member same =>
      fresh (same ▸ List.mem_keys_of_mem member)
    refine ⟨result, ?_, ?_, fun key away => ?_⟩
    · rw [insertEach, List.foldlM_cons, ran]
      exact folded
    · intro other member outcome otherRan
      rcases List.mem_cons.mp member with rfl | later
      · cases ran.symm.trans otherRan
        rw [kept other.1 notLater, lookup_insertSome_self]
      · rw [found other later outcome otherRan, lookup_insertSome_ne (notLater other later)]
    · rw [kept key fun later member => away later (List.mem_cons_of_mem entry member),
        lookup_insertSome_ne fun same => away entry List.mem_cons_self same.symm]

end Insert

section Pure

/-- `for key, value := range entries { map[key] = f(key, value) }`: each key of
the entries ends with its value under `f`, and every other key keeps what the
map had. -/
theorem lookup_foldl_insert {δ : α → Type u} (f : (key : α) → δ key → β key) :
    ∀ (entries : List (Sigma δ)) (map : AList β), entries.NodupKeys → ∀ key,
      (entries.foldl (fun map entry => map.insert entry.1 (f entry.1 entry.2)) map).lookup key =
        ((entries.dlookup key).map (f key)).or (map.lookup key)
  | [], map, _, key => by simp
  | ⟨first, value⟩ :: rest, map, nodup, key => by
    obtain ⟨fresh, nodupRest⟩ := List.nodupKeys_cons.mp nodup
    rw [List.foldl_cons, lookup_foldl_insert f rest _ nodupRest key]
    by_cases same : key = first
    · subst same
      rw [List.dlookup_eq_none.mpr fresh, List.dlookup_cons_eq]
      simp
    · rw [List.dlookup_cons_ne _ _ same, AList.lookup_insert_ne same]

/-- Looking up an inserted key reads the new value; other keys read the old map. -/
theorem lookup_insert_eq_update {γ : Type*} (map : AList fun _ : α => γ) (key : α) (value : γ) :
    (map.insert key value).lookup = Function.update map.lookup key (some value) := by
  funext other
  by_cases same : other = key
  · subst same
    rw [AList.lookup_insert, Function.update_self]
  · rw [AList.lookup_insert_ne same, Function.update_of_ne same]

/-- A loop that stores one value under each key of a list. -/
theorem lookup_foldl_insert_const {γ : Type*} (value : γ) :
    ∀ (keys : List α) (map : AList fun _ : α => γ) (key : α),
      (keys.foldl (fun map k => map.insert k value) map).lookup key =
        if key ∈ keys then some value else map.lookup key
  | [], map, key => by simp
  | first :: rest, map, key => by
    rw [List.foldl_cons, lookup_foldl_insert_const value rest _ key]
    by_cases later : key ∈ rest
    · simp [later]
    · by_cases same : key = first
      · subst same
        simp
      · simp [later, same, AList.lookup_insert_ne same]

/-- `for key, value := range entries { if _, ok := map[key]; !ok { map[key] = value } }`:
every key keeps what the map had, and a key it lacked gets its entry's value. -/
theorem lookup_foldl_insertAbsent :
    ∀ (entries : List (Sigma β)) (map : AList β), entries.NodupKeys → ∀ key,
      (entries.foldl (fun map entry =>
          if (map.lookup entry.1).isNone then map.insert entry.1 entry.2 else map) map).lookup key =
        (map.lookup key).or (entries.dlookup key)
  | [], map, _, key => by simp
  | ⟨first, value⟩ :: rest, map, nodup, key => by
    obtain ⟨fresh, nodupRest⟩ := List.nodupKeys_cons.mp nodup
    rw [List.foldl_cons, lookup_foldl_insertAbsent rest _ nodupRest key]
    by_cases same : key = first
    · subst same
      rw [List.dlookup_eq_none.mpr fresh, List.dlookup_cons_eq]
      cases found : map.lookup key <;> simp [found]
    · rw [List.dlookup_cons_ne _ _ same]
      split
      · rw [AList.lookup_insert_ne same]
      · rfl

end Pure

/-- A loop that inserts one entry per item, under distinct keys, each into a map
that lacks its key, ends with every item's entry, and elsewhere with what the map
had. -/
theorem foldlM_insert {γ : Type*} (step : AList β → γ → Except ε (AList β)) (key : γ → α)
    (value : (item : γ) → β (key item)) :
    ∀ (items : List γ) (map : AList β), (items.map key).Nodup →
      (∀ item ∈ items, ∀ map : AList β, map.lookup (key item) = none →
        step map item = .ok (map.insert (key item) (value item))) →
      (∀ item ∈ items, map.lookup (key item) = none) →
      ∃ result, items.foldlM step map = .ok result ∧
        (∀ item ∈ items, result.lookup (key item) = some (value item)) ∧
        ∀ other, (∀ item ∈ items, key item ≠ other) → result.lookup other = map.lookup other
  | [], map, _, _, _ => ⟨map, rfl, by simp, fun _ _ => rfl⟩
  | item :: rest, map, nodup, inserts, fresh => by
    obtain ⟨notLater, restNodup⟩ := List.nodup_cons.mp (List.map_cons .. ▸ nodup)
    have stepped := inserts item List.mem_cons_self map (fresh item List.mem_cons_self)
    obtain ⟨result, folded, found, kept⟩ :=
      foldlM_insert step key value rest (map.insert (key item) (value item)) restNodup
        (fun other member => inserts other (List.mem_cons_of_mem item member))
        (fun other member => by
          have different : key other ≠ key item := fun same =>
            notLater (same ▸ List.mem_map_of_mem member)
          rw [AList.lookup_insert_ne different]
          exact fresh other (List.mem_cons_of_mem item member))
    refine ⟨result, by rw [List.foldlM_cons, stepped]; exact folded, ?_, ?_⟩
    · intro other member
      rcases List.mem_cons.mp member with rfl | later
      · rw [kept (key other) fun later member same => notLater (same ▸ List.mem_map_of_mem member),
          AList.lookup_insert]
      · exact found other later
    · intro other away
      rw [kept other fun later member => away later (List.mem_cons_of_mem item member),
        AList.lookup_insert_ne fun same => away item List.mem_cons_self same.symm]

/-- A loop over the keys of a map, in any order, that inserts each key with the
map's value into a map lacking it rebuilds the map from the empty one. -/
theorem foldlM_rebuild (map : AList β) {keys : List α} (perm : keys.Perm map.keys)
    (step : AList β → α → Except ε (AList β)) (value : (key : α) → β key)
    (found : ∀ key ∈ keys, map.lookup key = some (value key))
    (inserts : ∀ key ∈ keys, ∀ acc : AList β, acc.lookup key = none →
      step acc key = .ok (acc.insert key (value key))) :
    ∃ result, keys.foldlM step ∅ = .ok result ∧ ∀ key, result.lookup key = map.lookup key := by
  obtain ⟨result, folded, foundAfter, kept⟩ := foldlM_insert step id value keys ∅
    (by simpa using perm.nodup_iff.mpr map.keys_nodup) inserts
    (fun key _ => AList.lookup_empty key)
  refine ⟨result, folded, fun key => ?_⟩
  by_cases member : key ∈ keys
  · exact (foundAfter key member).trans (found key member).symm
  · rw [kept key fun other isMember same => member (same ▸ isMember), AList.lookup_empty,
      eq_comm, AList.lookup_eq_none]
    exact fun isKey => member (perm.symm.subset isKey)

end Vitess.KeyedFold
