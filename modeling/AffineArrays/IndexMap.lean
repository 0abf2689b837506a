/-
**Finite maps on natural numbers, in ascending order of their keys.**

The entries are a list of pairs with strictly ascending keys, so a map has one representation and
its entries can be listed in order at any time. `update` changes the value at one key, inserting
the key where it belongs.

* `get?_update`: an update is seen at its own key and nowhere else;
* `mem_keys_update`: its key is the only one it can add;
* `ext_get?`: two maps with the same look-ups are equal;
* `mem_sortedKeys`, `sortedKeys_ascending`: a list of numbers in ascending order, each once.
-/

namespace AffineArrays

/-- A finite map from natural numbers, listed by ascending key. -/
structure IndexMap (β : Type) where
  entries : List (Nat × β)
  ascending : entries.Pairwise fun first second => first.1 < second.1

namespace IndexMap

variable {β γ : Type}

/-! ## Part 1: reading -/

/-- The keys, in ascending order. -/
def keys (map : IndexMap β) : List Nat := map.entries.map Prod.fst

/-- The values, in the order of their keys. -/
def values (map : IndexMap β) : List β := map.entries.map Prod.snd

/-- The value at a key. -/
def get? (map : IndexMap β) (key : Nat) : Option β := map.entries.lookup key

theorem keys_ascending (map : IndexMap β) : map.keys.Pairwise (· < ·) :=
  List.pairwise_map.mpr map.ascending

theorem lookup_isSome_iff {entries : List (Nat × β)} {key : Nat} :
    (entries.lookup key).isSome = true ↔ key ∈ entries.map Prod.fst := by
  induction entries with
  | nil => simp
  | cons entry rest step =>
    obtain ⟨other, value⟩ := entry
    by_cases equal : key = other
    · simp [equal]
    · have differ : (key == other) = false := by simpa using equal
      simp [List.lookup_cons, differ, step, equal]

theorem isSome_get?_iff {map : IndexMap β} {key : Nat} :
    (map.get? key).isSome = true ↔ key ∈ map.keys :=
  lookup_isSome_iff

/-! ## Part 2: building -/

/-- The map without keys. -/
def empty : IndexMap β := ⟨[], List.Pairwise.nil⟩

/-- Change the value at one key of an ascending list, or insert the key in its place. -/
def updateEntries (key : Nat) (change : Option β → β) : List (Nat × β) → List (Nat × β)
  | [] => [(key, change none)]
  | (other, value) :: rest =>
    if key < other then (key, change none) :: (other, value) :: rest
    else if key = other then (key, change (some value)) :: rest
    else (other, value) :: updateEntries key change rest

theorem mem_map_fst_updateEntries {key other : Nat} {change : Option β → β}
    {entries : List (Nat × β)} :
    other ∈ (updateEntries key change entries).map Prod.fst ↔
      other = key ∨ other ∈ entries.map Prod.fst := by
  induction entries with
  | nil => simp [updateEntries]
  | cons entry rest step =>
    obtain ⟨head, value⟩ := entry
    unfold updateEntries
    split
    · simp
    · split
      · rename_i equal
        subst equal
        simp
      · rw [List.map_cons, List.mem_cons, step, List.map_cons, List.mem_cons]
        exact or_left_comm

theorem pairwise_updateEntries (key : Nat) (change : Option β → β) {entries : List (Nat × β)}
    (ascending : entries.Pairwise fun first second => first.1 < second.1) :
    (updateEntries key change entries).Pairwise fun first second => first.1 < second.1 := by
  induction entries with
  | nil => simp [updateEntries]
  | cons entry rest step =>
    obtain ⟨head, value⟩ := entry
    obtain ⟨below, tail⟩ := List.pairwise_cons.mp ascending
    unfold updateEntries
    split
    · rename_i less
      refine List.pairwise_cons.mpr ⟨fun other inside => ?_, ascending⟩
      rcases List.mem_cons.mp inside with rfl | inside
      · exact less
      · exact Nat.lt_trans less (below other inside)
    · split
      · rename_i equal
        subst equal
        exact List.pairwise_cons.mpr ⟨below, tail⟩
      · rename_i notLess notEqual
        refine List.pairwise_cons.mpr ⟨fun other inside => ?_, step tail⟩
        have named : other.1 ∈ (updateEntries key change rest).map Prod.fst :=
          List.mem_map_of_mem inside
        rcases mem_map_fst_updateEntries.mp named with same | inRest
        · show head < other.1
          omega
        · obtain ⟨found, foundIn, same⟩ := List.mem_map.mp inRest
          exact same ▸ below found foundIn

theorem lookup_eq_none_of_below {key : Nat} {entries : List (Nat × β)}
    (below : ∀ entry ∈ entries, key < entry.1) : entries.lookup key = none := by
  induction entries with
  | nil => rfl
  | cons entry rest step =>
    obtain ⟨head, value⟩ := entry
    have less : key < head := below (head, value) List.mem_cons_self
    have differ : (key == head) = false := by simp; omega
    simp only [List.lookup_cons, differ]
    exact step fun other inside => below other (List.mem_cons_of_mem _ inside)

/-- A key below the first one of an ascending list is not in it. -/
theorem lookup_eq_none_of_lt_head {key head : Nat} {value : β} {rest : List (Nat × β)}
    (ascending : ((head, value) :: rest).Pairwise fun first second => first.1 < second.1)
    (less : key < head) : ((head, value) :: rest).lookup key = none := by
  refine lookup_eq_none_of_below fun entry inside => ?_
  rcases List.mem_cons.mp inside with rfl | inRest
  · exact less
  · exact Nat.lt_trans less ((List.pairwise_cons.mp ascending).1 entry inRest)

theorem lookup_updateEntries (key other : Nat) (change : Option β → β)
    {entries : List (Nat × β)}
    (ascending : entries.Pairwise fun first second => first.1 < second.1) :
    (updateEntries key change entries).lookup other =
      if other = key then some (change (entries.lookup key)) else entries.lookup other := by
  induction entries with
  | nil =>
    by_cases same : other = key
    · simp [updateEntries, same]
    · have differ : (other == key) = false := by simpa using same
      simp [updateEntries, List.lookup_cons, differ, same]
  | cons entry rest step =>
    obtain ⟨head, value⟩ := entry
    obtain ⟨below, tail⟩ := List.pairwise_cons.mp ascending
    unfold updateEntries
    split
    · rename_i less
      have absent := lookup_eq_none_of_lt_head ascending less
      by_cases same : other = key
      · simp [same, absent]
      · have differ : (other == key) = false := by simpa using same
        rw [List.lookup_cons, differ, if_neg same]
    · split
      · rename_i equal
        subst equal
        by_cases same : other = key
        · simp [same]
        · have differ : (other == key) = false := by simpa using same
          simp only [List.lookup_cons, differ, if_neg same]
      · rename_i notLess notEqual
        have apart : (key == head) = false := by simpa using notEqual
        rw [List.lookup_cons, step tail, List.lookup_cons, List.lookup_cons, apart]
        by_cases same : other = key
        · subst same
          simp [apart]
        · simp [same]

/-- Change the value at one key; the change is told the old value, if there is one. -/
def update (map : IndexMap β) (key : Nat) (change : Option β → β) : IndexMap β :=
  ⟨updateEntries key change map.entries, pairwise_updateEntries key change map.ascending⟩

/-- Set the value at one key. -/
def insert (map : IndexMap β) (key : Nat) (value : β) : IndexMap β :=
  map.update key fun _ => value

/-- The map of a list of pairs; a later pair replaces an earlier one with its key. -/
def ofList (pairs : List (Nat × β)) : IndexMap β :=
  pairs.foldl (fun map pair => map.insert pair.1 pair.2) empty

/-- The map with the same keys and changed values. -/
def mapValues (change : β → γ) (map : IndexMap β) : IndexMap γ :=
  ⟨map.entries.map fun entry => (entry.1, change entry.2), List.pairwise_map.mpr map.ascending⟩

/-! ## Part 3: laws -/

@[simp] theorem get?_empty (key : Nat) : (empty : IndexMap β).get? key = none := rfl

@[simp] theorem keys_empty : (empty : IndexMap β).keys = [] := rfl

theorem entries_insert_empty (key : Nat) (value : β) :
    (empty.insert key value).entries = [(key, value)] := rfl

theorem get?_update (map : IndexMap β) (key other : Nat) (change : Option β → β) :
    (map.update key change).get? other =
      if other = key then some (change (map.get? key)) else map.get? other :=
  lookup_updateEntries key other change map.ascending

theorem mem_keys_update {map : IndexMap β} {key other : Nat} {change : Option β → β} :
    other ∈ (map.update key change).keys ↔ other = key ∨ other ∈ map.keys :=
  mem_map_fst_updateEntries

@[simp] theorem keys_mapValues (change : β → γ) (map : IndexMap β) :
    (map.mapValues change).keys = map.keys := by
  simp [keys, mapValues, Function.comp_def]

theorem mapValues_congr {first second : β → γ} {map : IndexMap β}
    (same : ∀ key value, (key, value) ∈ map.entries → first value = second value) :
    map.mapValues first = map.mapValues second := by
  have entries : (map.mapValues first).entries = (map.mapValues second).entries :=
    List.map_congr_left fun entry member => congrArg (entry.1, ·) (same entry.1 entry.2 member)
  unfold mapValues at entries ⊢
  congr 1

theorem entries_eq_of_lookup {first second : List (Nat × β)}
    (ascendingFirst : first.Pairwise fun left right => left.1 < right.1)
    (ascendingSecond : second.Pairwise fun left right => left.1 < right.1)
    (same : ∀ key, first.lookup key = second.lookup key) : first = second := by
  induction first generalizing second with
  | nil =>
    cases second with
    | nil => rfl
    | cons entry rest =>
      obtain ⟨key, value⟩ := entry
      have := same key
      simp at this
  | cons entry rest step =>
    obtain ⟨key, value⟩ := entry
    cases second with
    | nil =>
      have := same key
      simp at this
    | cons other tail =>
      obtain ⟨otherKey, otherValue⟩ := other
      obtain ⟨belowFirst, restAscending⟩ := List.pairwise_cons.mp ascendingFirst
      obtain ⟨belowSecond, tailAscending⟩ := List.pairwise_cons.mp ascendingSecond
      have keysEqual : key = otherKey := by
        rcases Nat.lt_trichotomy key otherKey with less | equal | greater
        · have := same key
          rw [lookup_eq_none_of_lt_head ascendingSecond less] at this
          simp at this
        · exact equal
        · have := same otherKey
          rw [lookup_eq_none_of_lt_head ascendingFirst greater] at this
          simp at this
      subst keysEqual
      have valuesEqual : value = otherValue := by
        have := same key
        simpa using this
      subst valuesEqual
      have restEqual : rest = tail := by
        refine step restAscending tailAscending fun candidate => ?_
        by_cases equal : candidate = key
        · subst equal
          rw [lookup_eq_none_of_below belowFirst, lookup_eq_none_of_below belowSecond]
        · have differ : (candidate == key) = false := by simpa using equal
          have := same candidate
          simpa only [List.lookup_cons, differ] using this
      rw [restEqual]

theorem ext_get? {first second : IndexMap β} (same : ∀ key, first.get? key = second.get? key) :
    first = second := by
  obtain ⟨entries, ascending⟩ := first
  obtain ⟨others, othersAscending⟩ := second
  have equal : entries = others := entries_eq_of_lookup ascending othersAscending same
  subst equal
  rfl

/-! ## Part 4: sorted lists of numbers -/

theorem mem_keys_foldl_insert {pairs : List (Nat × β)} {map : IndexMap β} {key : Nat} :
    key ∈ (pairs.foldl (fun map pair => map.insert pair.1 pair.2) map).keys ↔
      key ∈ map.keys ∨ key ∈ pairs.map Prod.fst := by
  induction pairs generalizing map with
  | nil => simp
  | cons pair rest step =>
    rw [List.foldl_cons, step, insert, mem_keys_update, List.map_cons, List.mem_cons, or_assoc]
    exact or_left_comm

theorem mem_keys_ofList {pairs : List (Nat × β)} {key : Nat} :
    key ∈ (ofList pairs).keys ↔ key ∈ pairs.map Prod.fst := by
  rw [ofList, mem_keys_foldl_insert]
  simp

/-- The numbers of a list in ascending order, each once. -/
def sortedKeys (numbers : List Nat) : List Nat :=
  (ofList (numbers.map fun number => (number, ()))).keys

@[simp] theorem mem_sortedKeys {numbers : List Nat} {number : Nat} :
    number ∈ sortedKeys numbers ↔ number ∈ numbers := by
  rw [sortedKeys, mem_keys_ofList]
  simp

theorem sortedKeys_ascending (numbers : List Nat) : (sortedKeys numbers).Pairwise (· < ·) :=
  keys_ascending _

end IndexMap

end AffineArrays
