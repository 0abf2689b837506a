/-
**Moving entries, and the zero-one matrices that move them.**

A row map says where an entry goes. For the two diagonal maps this module gives the map back, from a
place to the entry that lands on it, so that a moved list can be read place by place and a moved
zero-one matrix stays one:

* `undoes_diagVecRow`, `undoes_diagMatRow`: the two maps back;
* `moveEntries_eq_gather`: a moved list reads every place from its origin;
* `gather_gather`: reading twice is reading once, along the composed map;
* `mem_movedTriplets`, `distinct_movedTriplets`: what is left when rows are moved;
* `Selects.scatterRows`: moving the rows of a zero-one matrix composes what it selects.
-/

import AffineArrays.AffineForm
import AffineArrays.Proofs.StoredEntries

namespace AffineArrays

/-! ## Part 1: where an entry comes from -/

/-- `target` sends no two entries to one place, and `origin` leads back along it from each of the
first `size` places. -/
structure Undoes (size : Nat) (target origin : Nat → Option Nat) : Prop where
  leads : ∀ row place, origin place = some row ↔ place < size ∧ target row = some place
  injective : ∀ row other place, target row = some place → target other = some place → row = other

/-- Each of the first `size` places comes from itself. -/
def within (size place : Nat) : Option Nat := if place < size then some place else none

/-- The entry that lands on a place of a matrix when a vector is put on its diagonal. -/
def diagVecOrigin (rows size place : Nat) : Option Nat :=
  if place < size ∧ place % (rows + 1) = 0 ∧ place / (rows + 1) < rows then
    some (place / (rows + 1))
  else none

/-- The entry of a matrix with `rows` rows that becomes entry `place` of its diagonal. -/
def diagMatOrigin (rows size place : Nat) : Option Nat :=
  if place < size then some (position rows place place) else none

theorem within_eq_some_iff {size place row : Nat} :
    within size place = some row ↔ place < size ∧ place = row := by
  unfold within
  split <;> simp [*]

theorem diagVecRow_eq_some_iff {rows row place : Nat} :
    diagVecRow rows row = some place ↔ row < rows ∧ row * (rows + 1) = place := by
  unfold diagVecRow
  split <;> simp [*]

theorem diagMatRow_eq_some_iff {rows size row place : Nat} :
    diagMatRow rows size row = some place ↔ place < size ∧ place * (rows + 1) = row := by
  unfold diagMatRow
  constructor
  · intro found
    split at found
    · rename_i conditions
      cases found
      exact ⟨conditions.2, Nat.div_mul_cancel (Nat.dvd_of_mod_eq_zero conditions.1)⟩
    · cases found
  · rintro ⟨inside, rfl⟩
    have back : place * (rows + 1) / (rows + 1) = place := Nat.mul_div_cancel _ (Nat.succ_pos rows)
    rw [back, if_pos ⟨Nat.mul_mod_left place (rows + 1), inside⟩]

theorem undoes_diagVecRow (rows size : Nat) :
    Undoes size (diagVecRow rows) (diagVecOrigin rows size) where
  leads row place := by
    rw [diagVecRow_eq_some_iff, diagVecOrigin]
    constructor
    · intro found
      split at found
      · rename_i conditions
        obtain ⟨inside, divides, below⟩ := conditions
        cases found
        exact ⟨inside, below, Nat.div_mul_cancel (Nat.dvd_of_mod_eq_zero divides)⟩
      · cases found
    · rintro ⟨inside, below, rfl⟩
      have back : row * (rows + 1) / (rows + 1) = row := Nat.mul_div_cancel _ (Nat.succ_pos rows)
      rw [back, if_pos ⟨inside, Nat.mul_mod_left row (rows + 1), below⟩]
  injective row other place goes goesToo := by
    have first := (diagVecRow_eq_some_iff.mp goes).2
    have second := (diagVecRow_eq_some_iff.mp goesToo).2
    exact Nat.eq_of_mul_eq_mul_right (Nat.succ_pos rows) (first.trans second.symm)

theorem undoes_diagMatRow (rows size : Nat) :
    Undoes size (diagMatRow rows size) (diagMatOrigin rows size) where
  leads row place := by
    rw [diagMatRow_eq_some_iff, diagMatOrigin, position_diagonal]
    split <;> simp [*]
  injective row other place goes goesToo :=
    (diagMatRow_eq_some_iff.mp goes).2.symm.trans (diagMatRow_eq_some_iff.mp goesToo).2

/-! ## Part 2: lists read from their origins -/

theorem bind_getElem?_concat {α : Type} {found : Option Nat} {before : List α}
    (apart : found ≠ some before.length) {last : α} :
    (found.bind fun row => (before ++ [last])[row]?) = found.bind fun row => before[row]? := by
  cases found with
  | none => rfl
  | some row =>
    have other : row ≠ before.length := fun same => apart (congrArg some same)
    rw [Option.bind_some, Option.bind_some]
    by_cases listed : row < before.length
    · exact List.getElem?_append_left listed
    · rw [List.getElem?_eq_none (by simp; omega), List.getElem?_eq_none (by omega)]

section Gather

variable {α : Type} [Zero α]

/-- The list of `size` entries that reads each place from its origin; a place without one is
zero. -/
def gather (size : Nat) (origin : Nat → Option Nat) (entries : List α) : List α :=
  (List.range size).map fun place => ((origin place).bind fun row => entries[row]?).getD 0

@[simp] theorem length_gather (size : Nat) (origin : Nat → Option Nat) (entries : List α) :
    (gather size origin entries).length = size := by
  simp [gather]

theorem getElem?_gather {size place : Nat} (inside : place < size) (origin : Nat → Option Nat)
    (entries : List α) :
    (gather size origin entries)[place]? =
      some (((origin place).bind fun row => entries[row]?).getD 0) := by
  rw [gather, List.getElem?_map, List.getElem?_range inside]
  rfl

/-- A list of the right length that reads every place like a gathered list is that list. -/
theorem eq_gather {size : Nat} {origin : Nat → Option Nat} {entries moved : List α}
    (full : moved.length = size)
    (reads : ∀ place, place < size →
      moved[place]? = some (((origin place).bind fun row => entries[row]?).getD 0)) :
    moved = gather size origin entries := by
  refine List.ext_getElem? fun place => ?_
  by_cases inside : place < size
  · rw [reads place inside, getElem?_gather inside]
  · rw [List.getElem?_eq_none (by omega), List.getElem?_eq_none (by rw [length_gather]; omega)]

theorem gather_within {size : Nat} {entries : List α} (full : entries.length = size) :
    gather size (within size) entries = entries := by
  refine (eq_gather full fun place inside => ?_).symm
  have listed : entries[place]? = some entries[place] := List.getElem?_eq_getElem (full ▸ inside)
  rw [within, if_pos inside, Option.bind_some, listed, Option.getD_some]

/-- Reading twice is reading once along the composed map, if nothing is read beyond the inner
list. -/
theorem gather_gather {size inner : Nat} {origin source : Nat → Option Nat}
    (bounded : ∀ row col, source row = some col → row < inner) (entries : List α) :
    gather size origin (gather inner source entries) =
      gather size (fun place => (origin place).bind source) entries := by
  refine eq_gather (length_gather _ _ _) fun place inside => ?_
  rw [getElem?_gather inside]
  cases origin place with
  | none => rfl
  | some row =>
    rw [Option.bind_some, Option.bind_some]
    by_cases listed : row < inner
    · rw [getElem?_gather listed, Option.getD_some]
    · have nothing : source row = none :=
        Option.eq_none_iff_forall_ne_some.mpr fun col found => listed (bounded row col found)
      rw [nothing, List.getElem?_eq_none (by rw [length_gather]; omega)]
      rfl

theorem mem_gather {size : Nat} {origin : Nat → Option Nat} {entries : List α} {entry : α}
    (member : entry ∈ gather size origin entries) : entry = 0 ∨ entry ∈ entries := by
  obtain ⟨place, _, rfl⟩ := List.mem_map.mp member
  cases read : (origin place).bind fun row => entries[row]? with
  | none => exact .inl rfl
  | some held =>
    obtain ⟨row, _, listed⟩ := Option.bind_eq_some_iff.mp read
    exact .inr (List.mem_of_getElem? listed)

/-- Gathering goes entry by entry, so it passes through any operation on entries that keeps zero. -/
theorem gather_zipWith {combine : α → α → α} (keeps : combine 0 0 = 0) {first second : List α}
    (same : first.length = second.length) (size : Nat) (origin : Nat → Option Nat) :
    gather size origin (List.zipWith combine first second) =
      List.zipWith combine (gather size origin first) (gather size origin second) := by
  unfold gather
  rw [List.zipWith_map, List.zipWith_self]
  refine List.map_congr_left fun place _ => ?_
  cases origin place with
  | none => exact keeps.symm
  | some row =>
    simp only [Option.bind_some, List.getElem?_zipWith]
    by_cases listed : row < first.length
    · have listedToo : row < second.length := same ▸ listed
      simp [listed, listedToo]
    · have beyond : ¬ row < second.length := same ▸ listed
      simp [listed, beyond, keeps]

theorem gather_replicate_zero (size count : Nat) (origin : Nat → Option Nat) :
    gather size origin (List.replicate count (0 : α)) = List.replicate size 0 := by
  refine (eq_gather List.length_replicate fun place inside => ?_).symm
  rw [List.getElem?_replicate, if_pos inside]
  cases origin place with
  | none => rfl
  | some row =>
    rw [Option.bind_some, List.getElem?_replicate]
    split <;> rfl

theorem getElem?_foldl_move {size : Nat} {target origin : Nat → Option Nat}
    (undoes : Undoes size target origin) (entries : List α) {place : Nat} (inside : place < size) :
    (entries.zipIdx.foldl (fun moved item =>
        match target item.2 with
        | some place => moved.setIfInBounds place item.1
        | none => moved) (Array.replicate size 0))[place]? =
      some (((origin place).bind fun row => entries[row]?).getD 0) := by
  -- the last entry is written last, so the list is taken apart at its end
  induction entries using List.reverseRecOn with
  | nil =>
    have zero : (Array.replicate size (0 : α))[place]? = some 0 := by simp [inside]
    cases origin place <;> simpa using zero
  | append_singleton before last step =>
    rw [List.zipIdx_append, List.foldl_append, List.zipIdx_singleton, List.foldl_cons,
      List.foldl_nil, Nat.zero_add]
    cases goes : target before.length with
    | none =>
      have apart : origin place ≠ some before.length := fun found => by
        have := ((undoes.leads _ _).mp found).2
        rw [goes] at this
        cases this
      rw [bind_getElem?_concat apart]
      exact step
    | some written =>
      have bound := (Array.getElem?_eq_some_iff.mp step).1
      rw [Array.getElem?_setIfInBounds]
      by_cases here : written = place
      · subst here
        have found : origin written = some before.length := (undoes.leads _ _).mpr ⟨inside, goes⟩
        rw [if_pos rfl, if_pos bound, found, Option.bind_some, List.getElem?_concat_length]
        rfl
      · have apart : origin place ≠ some before.length := fun found => by
          have := ((undoes.leads _ _).mp found).2
          rw [goes] at this
          exact here (Option.some.inj this)
        rw [if_neg here, bind_getElem?_concat apart]
        exact step

/-- A moved list reads every place from its origin. -/
theorem moveEntries_eq_gather {size : Nat} {target origin : Nat → Option Nat}
    (undoes : Undoes size target origin) (entries : List α) :
    moveEntries size target entries = gather size origin entries := by
  refine eq_gather (length_moveEntries _ _ _) fun place inside => ?_
  rw [moveEntries, Array.getElem?_toList]
  exact getElem?_foldl_move undoes entries inside

end Gather

/-! ## Part 3: zero-one matrices -/

namespace SparseMatrix

variable {α : Type}

/-- The matrix stores a one in row `row` at column `source row`, and nothing else. -/
def Selects [One α] (matrix : SparseMatrix α) (source : Nat → Option Nat) : Prop :=
  ∀ row col value, matrix.stored? row col = some value ↔ source row = some col ∧ value = 1

theorem selects_identity [One α] (size : Nat) :
    (identity size : SparseMatrix α).Selects (within size) := by
  intro row col value
  have listed : (⟨row, col, value⟩ : Triplet α) ∈ (identity size : SparseMatrix α).triplets ↔
      ∃ place, place < size ∧ place = row ∧ place = col ∧ 1 = value := by
    simp only [triplets, identity, List.map_map, List.mem_map, List.mem_range,
      Function.comp_apply, Triplet.mk.injEq]
    refine exists_congr fun place => and_congr_right fun inside => ?_
    rw [position_mod inside, position_div inside]
  have stored : (⟨row, col, value⟩ : Triplet α) ∈ (identity size : SparseMatrix α).triplets ↔
      (identity size : SparseMatrix α).stored? row col = some value := mem_triplets
  rw [← stored, listed, within_eq_some_iff]
  constructor
  · rintro ⟨place, inside, rfl, rfl, rfl⟩
    exact ⟨⟨inside, rfl⟩, rfl⟩
  · rintro ⟨⟨inside, rfl⟩, rfl⟩
    exact ⟨row, inside, rfl, rfl, rfl⟩

namespace Selects

variable [One α] {matrix : SparseMatrix α} {source : Nat → Option Nat}

theorem inside (selects : matrix.Selects source) {row col : Nat} (found : source row = some col) :
    row < matrix.rows ∧ col < matrix.cols :=
  inside_of_stored? ((selects row col 1).mpr ⟨found, rfl⟩)

/-- Dimensions and selection leave one zero-one matrix. -/
theorem unique {other : SparseMatrix α} (selects : matrix.Selects source)
    (selectsToo : other.Selects source) (rows : matrix.rows = other.rows)
    (cols : matrix.cols = other.cols) : matrix = other :=
  ext_stored? rows cols fun row col => Option.ext fun value =>
    (selects row col value).trans (selectsToo row col value).symm

theorem mem_triplets (selects : matrix.Selects source) {triplet : Triplet α} :
    triplet ∈ matrix.triplets ↔ source triplet.row = some triplet.col ∧ triplet.value = 1 :=
  SparseMatrix.mem_triplets.trans (selects _ _ _)

/-- A row of a zero-one matrix lists one triplet or none. -/
theorem filter_row (selects : matrix.Selects source) (row : Nat) :
    matrix.triplets.filter (fun triplet => triplet.row == row) =
      match source row with
      | some col => [⟨row, col, 1⟩]
      | none => [] := by
  cases found : source row with
  | none =>
    refine List.filter_eq_nil_iff.mpr fun triplet listed here => ?_
    have same : triplet.row = row := by simpa using here
    have := (selects.mem_triplets.mp listed).1
    rw [same, found] at this
    cases this
  | some col =>
    have listed : (⟨row, col, 1⟩ : Triplet α) ∈ matrix.triplets :=
      selects.mem_triplets.mpr ⟨found, rfl⟩
    show _ = [_]
    rw [← (distinct_triplets matrix).filter_isAt listed]
    refine List.filter_congr fun triplet member => ?_
    have stands := (selects.mem_triplets.mp member).1
    by_cases here : triplet.row = row
    · rw [here, found] at stands
      cases stands
      simp [Triplet.isAt, here]
    · simp [Triplet.isAt, here]

end Selects

/-! ## Part 4: moving the rows of a matrix -/

section Moved

variable [Magnitude α] [LE α] [DecidableLE α]

@[simp] theorem rows_scatterRows [Add α] (matrix : SparseMatrix α) (rows : Nat) (pruning : α)
    (target : Nat → Option Nat) : (matrix.scatterRows rows pruning target).rows = rows := by
  rw [scatterRows_eq, rows_ofTriplets]

@[simp] theorem cols_scatterRows [Add α] (matrix : SparseMatrix α) (rows : Nat) (pruning : α)
    (target : Nat → Option Nat) : (matrix.scatterRows rows pruning target).cols = matrix.cols := by
  rw [scatterRows_eq, cols_ofTriplets]

theorem mem_movedTriplets {matrix : SparseMatrix α} {pruning : α} {target : Nat → Option Nat}
    {place col : Nat} {value : α} :
    ⟨place, col, value⟩ ∈ matrix.movedTriplets pruning target ↔
      ∃ row, target row = some place ∧ matrix.stored? row col = some value ∧
        ¬ magnitude value ≤ pruning := by
  rw [movedTriplets, List.mem_filterMap]
  constructor
  · rintro ⟨⟨row, foundCol, found⟩, member, moved⟩
    split at moved
    · cases moved
    · rename_i kept
      obtain ⟨_, goes, same⟩ := Option.map_eq_some_iff.mp moved
      cases same
      exact ⟨row, goes, mem_triplets.mp member, kept⟩
  · rintro ⟨row, goes, stored, kept⟩
    refine ⟨⟨row, col, value⟩, mem_triplets.mpr stored, ?_⟩
    rw [if_neg kept, goes]
    rfl

/-- A map that sends no two rows to one leaves no two triplets at one place. -/
theorem distinct_movedTriplets (matrix : SparseMatrix α) (pruning : α) {target : Nat → Option Nat}
    (injective : ∀ row other place,
      target row = some place → target other = some place → row = other) :
    Triplet.Distinct (matrix.movedTriplets pruning target) := by
  refine List.Pairwise.filterMap _ ?_ (distinct_triplets matrix)
  rintro first second apart moved fromFirst movedToo fromSecond ⟨sameRow, sameCol⟩
  split at fromFirst
  · cases fromFirst
  · split at fromSecond
    · cases fromSecond
    · obtain ⟨row, goes, rfl⟩ := Option.map_eq_some_iff.mp fromFirst
      obtain ⟨other, goesToo, rfl⟩ := Option.map_eq_some_iff.mp fromSecond
      cases (sameRow : row = other)
      exact apart ⟨injective _ _ _ goes goesToo, sameCol⟩

/-- **Moving the rows of a zero-one matrix** composes what it selects with the way back, as long as
a one is not pruned. -/
theorem Selects.scatterRows [One α] [Add α] {matrix : SparseMatrix α}
    {source target origin : Nat → Option Nat} {rows : Nat} {pruning : α}
    (selects : matrix.Selects source) (undoes : Undoes rows target origin)
    (kept : ¬ magnitude (1 : α) ≤ pruning) :
    (matrix.scatterRows rows pruning target).Selects fun place => (origin place).bind source := by
  intro place col value
  rw [scatterRows_eq,
    stored?_ofTriplets_of_distinct (matrix.distinct_movedTriplets pruning undoes.injective),
    mem_movedTriplets, Option.bind_eq_some_iff]
  constructor
  · rintro ⟨rowInside, _, row, goes, stored, _⟩
    obtain ⟨selected, one⟩ := (selects _ _ _).mp stored
    exact ⟨⟨row, (undoes.leads _ _).mpr ⟨rowInside, goes⟩, selected⟩, one⟩
  · rintro ⟨⟨row, found, selected⟩, rfl⟩
    obtain ⟨rowInside, goes⟩ := (undoes.leads _ _).mp found
    exact ⟨rowInside, (selects.inside selected).2, row, goes,
      (selects _ _ _).mpr ⟨selected, rfl⟩, kept⟩

end Moved

end SparseMatrix

end AffineArrays
