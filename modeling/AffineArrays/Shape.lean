/-
**Shapes.**

A shape lists the dimensions of an array. No dimensions make a scalar, one a vector, two a matrix;
longer shapes are allowed. The size is the product of the dimensions, so an empty dimension makes
an empty array and a scalar has one entry.

* `size_flattened`: flattening keeps the size;
* `rank_of_isSquare`, `rows_eq_cols_of_isSquare`: what a square shape is.
-/

namespace AffineArrays

/-- The dimensions of an array. -/
structure Shape where
  dims : List Nat
  deriving DecidableEq

namespace Shape

/-! ## Part 1: shapes by rank -/

/-- The shape of a single number. -/
def scalar : Shape := ⟨[]⟩

/-- The shape of a list of `length` entries. -/
def vector (length : Nat) : Shape := ⟨[length]⟩

/-- The shape of a matrix. -/
def matrix (rows cols : Nat) : Shape := ⟨[rows, cols]⟩

/-- The number of dimensions. -/
def rank (shape : Shape) : Nat := shape.dims.length

/-- The exact number of entries. A program computes it in words, see `sizeIn`. -/
def size (shape : Shape) : Nat := shape.dims.foldr (· * ·) 1

/-- The first dimension; a scalar has one row. -/
def rows (shape : Shape) : Nat := shape.dims.headD 1

/-- The second dimension; scalars and vectors have one column. -/
def cols (shape : Shape) : Nat := (shape.dims.drop 1).headD 1

/-- The one-dimensional shape with as many entries. -/
def flattened (shape : Shape) : Shape := vector shape.size

@[simp] theorem dims_scalar : scalar.dims = [] := rfl

@[simp] theorem dims_vector (length : Nat) : (vector length).dims = [length] := rfl

@[simp] theorem dims_matrix (rows cols : Nat) : (matrix rows cols).dims = [rows, cols] := rfl

@[simp] theorem size_scalar : scalar.size = 1 := rfl

@[simp] theorem size_vector (length : Nat) : (vector length).size = length := by
  simp [size, vector]

@[simp] theorem size_matrix (rows cols : Nat) : (matrix rows cols).size = rows * cols := by
  simp [size, matrix]

@[simp] theorem rows_vector (length : Nat) : (vector length).rows = length := rfl

@[simp] theorem rows_matrix (rows cols : Nat) : (matrix rows cols).rows = rows := rfl

@[simp] theorem cols_matrix (rows cols : Nat) : (matrix rows cols).cols = cols := rfl

@[simp] theorem vector_inj {length other : Nat} : vector length = vector other ↔ length = other := by
  simp [vector]

@[simp] theorem matrix_inj {rows cols otherRows otherCols : Nat} :
    matrix rows cols = matrix otherRows otherCols ↔ rows = otherRows ∧ cols = otherCols := by
  simp [matrix]

@[simp] theorem size_flattened (shape : Shape) : shape.flattened.size = shape.size :=
  size_vector shape.size

theorem flattened_of_rank_one {shape : Shape} (one : shape.rank = 1) :
    shape.flattened = shape := by
  obtain ⟨dims⟩ := shape
  match dims, one with
  | [length], _ => exact congrArg vector (size_vector length)

/-! ## Part 2: predicates -/

/-- No dimensions at all. -/
def isScalar (shape : Shape) : Bool := shape.dims.isEmpty

/-- Every dimension is one, so there is a single entry. -/
def isUnit (shape : Shape) : Bool := shape.dims.all (· == 1)

/-- Effectively one-dimensional: a scalar, a vector, or a matrix with one row or one column and no
empty side. Flattening such a shape reorders nothing. -/
def isVector (shape : Shape) : Bool :=
  match shape.dims with
  | [] | [_] => true
  | [rows, cols] => min rows cols == 1
  | _ => false

/-- Two dimensions. -/
def isMatrix (shape : Shape) : Bool := shape.rank == 2

/-- Two equal dimensions. -/
def isSquare (shape : Shape) : Bool :=
  match shape.dims with
  | [rows, cols] => rows == cols
  | _ => false

theorem isUnit_vector (length : Nat) : (vector length).isUnit = (length == 1) :=
  Bool.and_true _

theorem isUnit_matrix_iff {rows cols : Nat} :
    (matrix rows cols).isUnit = true ↔ rows = 1 ∧ cols = 1 := by
  simp [isUnit]

theorem exists_matrix_of_rank {shape : Shape} (planar : shape.rank = 2) :
    ∃ rows cols, shape = matrix rows cols := by
  obtain ⟨dims⟩ := shape
  match dims, planar with
  | [rows, cols], _ => exact ⟨rows, cols, rfl⟩

theorem rank_of_isSquare {shape : Shape} (square : shape.isSquare = true) : shape.rank = 2 := by
  obtain ⟨dims⟩ := shape
  unfold isSquare at square
  split at square
  · rename_i equal
    simp_all [rank]
  · cases square

theorem rows_eq_cols_of_isSquare {shape : Shape} (square : shape.isSquare = true) :
    shape.rows = shape.cols := by
  obtain ⟨dims⟩ := shape
  unfold isSquare at square
  split at square
  · rename_i equal
    cases equal
    exact beq_iff_eq.mp square
  · cases square

/-! ## Part 3: text -/

/-- The dimensions in parentheses; a single dimension keeps its comma. -/
def text (shape : Shape) : String :=
  match shape.dims with
  | [length] => s!"({length},)"
  | dims => "(" ++ ", ".intercalate (dims.map toString) ++ ")"

/-- The dimensions in brackets, under the name of the type. -/
def labelledText (shape : Shape) : String :=
  "Shape([" ++ ", ".intercalate (shape.dims.map toString) ++ "])"

instance : ToString Shape := ⟨text⟩

end Shape

end AffineArrays
