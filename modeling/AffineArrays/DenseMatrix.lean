/-
**Dense matrices.**

A dense matrix holds all its entries column by column. Values of the wrong number are refused when
a matrix is built, and entries are read through bounds, so a matrix can always be trusted to be
full.

* `get?_ofEntries`: a matrix built from a function holds its values;
* `get?_ofDiagonal`: a diagonal matrix holds its diagonal, and zeros beside it;
* `leadingDiagonal_eq_ok`: the diagonal that starts at the first entry can always be read.
-/

import AffineArrays.ColumnMajor
import AffineArrays.Error
import AffineArrays.Tolerance

namespace AffineArrays

/-- A matrix with all its entries, column by column. -/
structure DenseMatrix (α : Type) where
  rows : Nat
  cols : Nat
  data : Array α
  size_data : data.size = rows * cols

namespace DenseMatrix

variable {α : Type}

/-! ## Part 1: building and reading -/

/-- The matrix with the given entries, column by column; the wrong number of values is a fault. -/
def ofFlat (rows cols : Nat) (data : List α) : Except Error (DenseMatrix α) :=
  if full : data.length = rows * cols then .ok ⟨rows, cols, data.toArray, full⟩
  else .error (.valueCount (rows * cols) data.length)

/-- The matrix whose entry at `(row, col)` is `entry row col`. -/
def ofEntries (rows cols : Nat) (entry : Nat → Nat → α) : DenseMatrix α where
  rows := rows
  cols := cols
  data := Array.ofFn fun index : Fin (rows * cols) => entry (index % rows) (index / rows)
  size_data := Array.size_ofFn

/-- The entry at `(row, col)`, if that lies inside. -/
def get? (matrix : DenseMatrix α) (row col : Nat) : Option α :=
  if row < matrix.rows ∧ col < matrix.cols then matrix.data[position matrix.rows row col]?
  else none

/-- The entry at `(row, col)`; a place outside is a fault. -/
def entry (matrix : DenseMatrix α) (row col : Nat) : Except Error α :=
  match matrix.get? row col with
  | some value => .ok value
  | none => .error (.outOfRange (position matrix.rows row col) matrix.data.size)

theorem exists_get? (matrix : DenseMatrix α) {row col : Nat} (rowInside : row < matrix.rows)
    (colInside : col < matrix.cols) : ∃ value, matrix.get? row col = some value := by
  have inside : position matrix.rows row col < matrix.data.size :=
    matrix.size_data ▸ position_lt rowInside colInside
  exact ⟨matrix.data[position matrix.rows row col],
    by rw [get?, if_pos ⟨rowInside, colInside⟩, Array.getElem?_eq_getElem inside]⟩

theorem get?_ofEntries {rows cols row col : Nat} {value : Nat → Nat → α}
    (rowInside : row < rows) (colInside : col < cols) :
    (ofEntries rows cols value).get? row col = some (value row col) := by
  have inside := position_lt rowInside colInside
  rw [get?, if_pos ⟨rowInside, colInside⟩]
  simp [ofEntries, inside, position_mod rowInside,
    position_div rowInside]

/-! ## Part 2: diagonals -/

/-- The identity matrix. -/
def identity [Zero α] [One α] (size : Nat) : DenseMatrix α :=
  ofEntries size size fun row col => if row = col then 1 else 0

/-- The square matrix with the given diagonal and zeros elsewhere. -/
def ofDiagonal [Zero α] (diagonal : List α) : DenseMatrix α :=
  ofEntries diagonal.length diagonal.length fun row col =>
    if row = col then diagonal.getD row 0 else 0

theorem get?_ofDiagonal [Zero α] {diagonal : List α} {row col : Nat}
    (rowInside : row < diagonal.length) (colInside : col < diagonal.length) :
    (ofDiagonal diagonal).get? row col = if row = col then diagonal[row]? else some 0 := by
  rw [ofDiagonal, get?_ofEntries rowInside colInside]
  split
  · rw [List.getD_eq_getElem?_getD, List.getElem?_eq_getElem rowInside, Option.getD_some]
  · rfl

/-- The entries at `(0, 0)`, `(1, 1)` and so on, as far as both sides reach. -/
def leadingDiagonal (matrix : DenseMatrix α) : Except Error (List α) :=
  (List.range (min matrix.rows matrix.cols)).mapM fun index => matrix.entry index index

theorem mapM_entry_eq_ok (matrix : DenseMatrix α) {places : List Nat}
    (inside : ∀ place ∈ places, place < matrix.rows ∧ place < matrix.cols) :
    ∃ values : List α, places.mapM (fun place => matrix.entry place place) = .ok values ∧
      places.map (fun place => matrix.get? place place) = values.map some := by
  induction places with
  | nil => exact ⟨[], rfl, rfl⟩
  | cons place rest step =>
    obtain ⟨rowInside, colInside⟩ := inside place List.mem_cons_self
    obtain ⟨value, found⟩ := matrix.exists_get? rowInside colInside
    obtain ⟨values, read, look⟩ :=
      step fun other member => inside other (List.mem_cons_of_mem _ member)
    refine ⟨value :: values, ?_, ?_⟩
    · rw [List.mapM_cons, entry, found, read]
      rfl
    · rw [List.map_cons, found, look, List.map_cons]

theorem leadingDiagonal_eq_ok (matrix : DenseMatrix α) :
    ∃ values : List α, matrix.leadingDiagonal = .ok values ∧
      (List.range (min matrix.rows matrix.cols)).map (fun place => matrix.get? place place) =
        values.map some :=
  matrix.mapM_entry_eq_ok fun place member => by
    have := List.mem_range.mp member
    omega

/-! ## Part 3: symmetry -/

/-- Two entries are present and differ by at most the tolerance. -/
def close [Sub α] [Magnitude α] [LE α] [DecidableLE α] (tolerance : α) :
    Option α → Option α → Bool
  | some first, some second => decide (magnitude (first - second) ≤ tolerance)
  | _, _ => false

/-- The matrix is square, and each entry above the diagonal differs from the one opposite to it
by at most the tolerance. The diagonal itself is not looked at. -/
def isSymmetric [Sub α] [Magnitude α] [LE α] [DecidableLE α] (matrix : DenseMatrix α)
    (tolerance : α) : Bool :=
  matrix.rows == matrix.cols &&
    (List.range matrix.rows).all fun row => (List.range matrix.rows).all fun col =>
      col ≤ row || close tolerance (matrix.get? row col) (matrix.get? col row)

end DenseMatrix

end AffineArrays
