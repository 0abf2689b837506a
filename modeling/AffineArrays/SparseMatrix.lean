/-
**Sparse matrices.**

A sparse matrix stores some of its entries, each at its column-major position, in ascending order
of position: column by column, and down each column. A stored entry may be zero. Matrices are
built from triplets `(row, col, value)`: triplets outside the matrix are dropped, and the values of
one place are added up in the order of the list.

* `stored?_add`: adding a triplet changes its own place and no other;
* `getElem?_flat`: the dense layout holds zero plus what is stored;
* `rows_ofTriplets`, `cols_ofTriplets`: the dimensions are the requested ones.
-/

import AffineArrays.ColumnMajor
import AffineArrays.DenseMatrix
import AffineArrays.IndexMap
import AffineArrays.Tolerance

namespace AffineArrays

/-- A value at a place of a matrix. -/
structure Triplet (α : Type) where
  row : Nat
  col : Nat
  value : α

/-- The triplets of three lists, read in step up to the end of the shortest. -/
def Triplet.ofLists {α : Type} (rows cols : List Nat) (values : List α) : List (Triplet α) :=
  ((rows.zip cols).zip values).map fun item => ⟨item.1.1, item.1.2, item.2⟩

/-- A list of triplets comes back from its three lists of coordinates and values. -/
theorem Triplet.ofLists_unzipped {α : Type} (triplets : List (Triplet α)) :
    ofLists (triplets.map row) (triplets.map col) (triplets.map value) = triplets := by
  induction triplets with
  | nil => rfl
  | cons first rest step => exact congrArg (first :: ·) step

/-- A matrix that stores some of its entries, by column-major position. -/
structure SparseMatrix (α : Type) where
  rows : Nat
  cols : Nat
  cells : IndexMap α
  bounded : ∀ index ∈ cells.keys, index < rows * cols

namespace SparseMatrix

variable {α : Type}

/-! ## Part 1: reading -/

/-- The stored entries with their places, by column and then by row. -/
def triplets (matrix : SparseMatrix α) : List (Triplet α) :=
  matrix.cells.entries.map fun cell => ⟨cell.1 % matrix.rows, cell.1 / matrix.rows, cell.2⟩

/-- The stored entry at `(row, col)`, if there is one. -/
def stored? (matrix : SparseMatrix α) (row col : Nat) : Option α :=
  if row < matrix.rows ∧ col < matrix.cols then matrix.cells.get? (position matrix.rows row col)
  else none

/-- Every entry, column by column: zero plus what is stored. -/
def flat [Zero α] [Add α] (matrix : SparseMatrix α) : Array α :=
  matrix.cells.entries.foldl (fun flat cell => flat.modify cell.1 (· + cell.2))
    (Array.replicate (matrix.rows * matrix.cols) 0)

theorem size_foldl_modify [Add α] (entries : List (Nat × α)) (flat : Array α) :
    (entries.foldl (fun flat cell => flat.modify cell.1 (· + cell.2)) flat).size = flat.size := by
  induction entries generalizing flat with
  | nil => rfl
  | cons entry rest step => rw [List.foldl_cons, step, Array.size_modify]

theorem getElem?_foldl_modify [Add α] {entries : List (Nat × α)}
    (ascending : entries.Pairwise fun first second => first.1 < second.1) (flat : Array α)
    (index : Nat) :
    (entries.foldl (fun flat cell => flat.modify cell.1 (· + cell.2)) flat)[index]? =
      match entries.lookup index with
      | some value => flat[index]?.map (· + value)
      | none => flat[index]? := by
  induction entries generalizing flat with
  | nil => rfl
  | cons entry rest step =>
    obtain ⟨key, value⟩ := entry
    obtain ⟨below, tail⟩ := List.pairwise_cons.mp ascending
    rw [List.foldl_cons, step tail, Array.getElem?_modify]
    by_cases same : index = key
    · subst same
      rw [IndexMap.lookup_eq_none_of_below below]
      simp
    · have differ : (index == key) = false := by simpa using same
      simp [List.lookup_cons, differ, Ne.symm same]

@[simp] theorem size_flat [Zero α] [Add α] (matrix : SparseMatrix α) :
    matrix.flat.size = matrix.rows * matrix.cols := by
  rw [flat, size_foldl_modify, Array.size_replicate]

theorem getElem?_flat [Zero α] [Add α] (matrix : SparseMatrix α) {index : Nat}
    (inside : index < matrix.rows * matrix.cols) :
    matrix.flat[index]? = some (match matrix.cells.get? index with
      | some value => 0 + value
      | none => 0) := by
  rw [flat, getElem?_foldl_modify matrix.cells.ascending]
  have zero : (Array.replicate (matrix.rows * matrix.cols) (0 : α))[index]? = some 0 := by
    simp [inside]
  rw [zero]
  show (match matrix.cells.get? index with
    | some value => _
    | none => _) = _
  cases matrix.cells.get? index <;> rfl

/-- The matrix with every entry written out. -/
def toDense [Zero α] [Add α] (matrix : SparseMatrix α) : DenseMatrix α :=
  ⟨matrix.rows, matrix.cols, matrix.flat, matrix.size_flat⟩

/-! ## Part 2: building -/

/-- The matrix that stores nothing. -/
def zero (rows cols : Nat) : SparseMatrix α :=
  ⟨rows, cols, .empty, fun _ member => by simp at member⟩

/-- Add a value at its place; a place outside the matrix changes nothing. -/
def add [Add α] (matrix : SparseMatrix α) (triplet : Triplet α) : SparseMatrix α :=
  if inside : triplet.row < matrix.rows ∧ triplet.col < matrix.cols then
    { matrix with
      cells := matrix.cells.update (position matrix.rows triplet.row triplet.col) fun
        | some sum => sum + triplet.value
        | none => triplet.value
      bounded := fun index member => by
        rcases IndexMap.mem_keys_update.mp member with same | old
        · exact same ▸ position_lt inside.1 inside.2
        · exact matrix.bounded index old }
  else matrix

/-- The sum of a list of triplets, added in order. -/
def ofTriplets [Add α] (rows cols : Nat) (triplets : List (Triplet α)) : SparseMatrix α :=
  triplets.foldl add (zero rows cols)

/-- The sum of the triplets given by three lists; without a row index nothing is read. -/
def ofCoordinates [Add α] (rows cols : Nat) (rowIndices colIndices : List Nat)
    (values : List α) : SparseMatrix α :=
  if rowIndices.isEmpty then zero rows cols
  else ofTriplets rows cols (Triplet.ofLists rowIndices colIndices values)

/-- The identity matrix: a one at each place of the diagonal. -/
def identity [One α] (size : Nat) : SparseMatrix α where
  rows := size
  cols := size
  cells :=
    { entries := (List.range size).map fun index => (position size index index, 1)
      ascending := List.pairwise_map.mpr <| List.pairwise_lt_range.imp fun {first second} less =>
        Nat.add_lt_add_of_lt_of_le less (Nat.mul_le_mul_right size (Nat.le_of_lt less)) }
  bounded := fun index member => by
    simp only [IndexMap.keys, List.map_map, List.mem_map, List.mem_range] at member
    obtain ⟨place, inside, rfl⟩ := member
    exact position_lt inside inside

/-- The early answer for no rows is that of the sum. -/
theorem ofCoordinates_eq [Add α] (rows cols : Nat) (rowIndices colIndices : List Nat)
    (values : List α) : ofCoordinates rows cols rowIndices colIndices values =
      ofTriplets rows cols (Triplet.ofLists rowIndices colIndices values) := by
  cases rowIndices with
  | nil => rfl
  | cons first rest => rfl

@[simp] theorem rows_add [Add α] (matrix : SparseMatrix α) (triplet : Triplet α) :
    (matrix.add triplet).rows = matrix.rows := by
  unfold add
  split <;> rfl

@[simp] theorem cols_add [Add α] (matrix : SparseMatrix α) (triplet : Triplet α) :
    (matrix.add triplet).cols = matrix.cols := by
  unfold add
  split <;> rfl

theorem dimensions_foldl_add [Add α] (triplets : List (Triplet α)) (matrix : SparseMatrix α) :
    (triplets.foldl add matrix).rows = matrix.rows ∧
      (triplets.foldl add matrix).cols = matrix.cols := by
  induction triplets generalizing matrix with
  | nil => exact ⟨rfl, rfl⟩
  | cons triplet rest step => simpa using step (matrix.add triplet)

@[simp] theorem rows_ofTriplets [Add α] (rows cols : Nat) (triplets : List (Triplet α)) :
    (ofTriplets rows cols triplets).rows = rows :=
  (dimensions_foldl_add triplets (zero rows cols)).1

@[simp] theorem cols_ofTriplets [Add α] (rows cols : Nat) (triplets : List (Triplet α)) :
    (ofTriplets rows cols triplets).cols = cols :=
  (dimensions_foldl_add triplets (zero rows cols)).2

theorem stored?_add [Add α] (matrix : SparseMatrix α) (triplet : Triplet α) {row col : Nat}
    (rowInside : row < matrix.rows) (colInside : col < matrix.cols) :
    (matrix.add triplet).stored? row col =
      if row = triplet.row ∧ col = triplet.col then
        some (match matrix.stored? row col with
          | some sum => sum + triplet.value
          | none => triplet.value)
      else matrix.stored? row col := by
  by_cases inside : triplet.row < matrix.rows ∧ triplet.col < matrix.cols
  · have places : position matrix.rows row col =
        position matrix.rows triplet.row triplet.col ↔ row = triplet.row ∧ col = triplet.col := by
      constructor
      · intro same
        constructor
        · calc row = position matrix.rows row col % matrix.rows := (position_mod rowInside).symm
            _ = triplet.row := by rw [same, position_mod inside.1]
        · calc col = position matrix.rows row col / matrix.rows := (position_div rowInside).symm
            _ = triplet.col := by rw [same, position_div inside.1]
      · rintro ⟨rfl, rfl⟩
        rfl
    simp only [stored?, add, dif_pos inside, if_pos (And.intro rowInside colInside),
      IndexMap.get?_update, places]
    split
    · rename_i same
      rw [same.1, same.2]
    · rfl
  · have elsewhere : ¬ (row = triplet.row ∧ col = triplet.col) := by
      rintro ⟨rfl, rfl⟩
      exact inside ⟨rowInside, colInside⟩
    rw [add, dif_neg inside, if_neg elsewhere]

/-! ## Part 3: moving rows -/

/-- The stored entries after their rows were moved, without those that go nowhere and those with a
magnitude at or below the pruning tolerance. -/
def movedTriplets [Magnitude α] [LE α] [DecidableLE α] (matrix : SparseMatrix α) (pruning : α)
    (target : Nat → Option Nat) : List (Triplet α) :=
  matrix.triplets.filterMap fun triplet =>
    if magnitude triplet.value ≤ pruning then none
    else (target triplet.row).map fun row => { triplet with row }

/-- Move every stored row `row` to row `target row` of a matrix with `rows` rows. Rows without a
target are dropped, and so are entries with a magnitude at or below the pruning tolerance. -/
def scatterRows [Add α] [Magnitude α] [LE α] [DecidableLE α] (matrix : SparseMatrix α)
    (rows : Nat) (pruning : α) (target : Nat → Option Nat) : SparseMatrix α :=
  let moved := matrix.movedTriplets pruning target
  ofCoordinates rows matrix.cols (moved.map Triplet.row) (moved.map Triplet.col)
    (moved.map Triplet.value)

theorem scatterRows_eq [Add α] [Magnitude α] [LE α] [DecidableLE α] (matrix : SparseMatrix α)
    (rows : Nat) (pruning : α) (target : Nat → Option Nat) :
    matrix.scatterRows rows pruning target =
      ofTriplets rows matrix.cols (matrix.movedTriplets pruning target) := by
  rw [scatterRows, ofCoordinates_eq, Triplet.ofLists_unzipped]

end SparseMatrix

end AffineArrays
