/-
**Arrays of numbers.**

A value stores the entries of an array in one of five ways: a single number, a vector, a dense or
a sparse matrix, or a flat list under a shape of any rank. Whatever the storage, `flat` lists the
entries column by column, and `ofFlat` stores a flat list in the way of its shape's rank.

* `length_flat`: the flat list has as many entries as the value says;
* `ofFlat_eq_ok`: a list of the right length can be stored, and it comes back with its shape;
* `ofFlat_eq_error`: a list of any other length is refused;
* `ofFlat_spec`: whatever was stored is the list, under the shape;
* `size_shape`: outside `tensor` storage, the number of entries is the size of the shape.
-/

import AffineArrays.DenseMatrix
import AffineArrays.Error
import AffineArrays.SparseMatrix
import AffineArrays.Tolerance

namespace AffineArrays

/-- An array of numbers in one of five storages. -/
inductive Value (α : Type) where
  | scalar (entry : α)
  | vector (entries : List α)
  | dense (matrix : DenseMatrix α)
  /-- A matrix with some of its entries; the others are zero. -/
  | sparse (matrix : SparseMatrix α)
  /-- Entries under a shape of any rank, column by column. Their number is not tied to the
  shape. -/
  | tensor (shape : Shape) (entries : List α)

namespace Value

variable {α : Type}

/-! ## Part 1: shape and entries -/

/-- The shape of the array. -/
def shape : Value α → Shape
  | scalar _ => .scalar
  | vector entries => .vector entries.length
  | dense matrix => .matrix matrix.rows matrix.cols
  | sparse matrix => .matrix matrix.rows matrix.cols
  | tensor shape _ => shape

/-- The exact number of entries. A program computes it in words, see `sizeIn`. -/
def size : Value α → Nat
  | scalar _ => 1
  | vector entries => entries.length
  | dense matrix => matrix.rows * matrix.cols
  | sparse matrix => matrix.rows * matrix.cols
  | tensor _ entries => entries.length

/-- The entries, column by column. -/
def flat [Zero α] [Add α] : Value α → List α
  | scalar entry => [entry]
  | vector entries => entries
  | dense matrix => matrix.data.toList
  | sparse matrix => matrix.flat.toList
  | tensor _ entries => entries

/-- The entries that are stored, without the implied zeros of a sparse matrix. -/
def stored : Value α → List α
  | scalar entry => [entry]
  | vector entries => entries
  | dense matrix => matrix.data.toList
  | sparse matrix => matrix.cells.values
  | tensor _ entries => entries

/-- The number held by scalar storage, by a vector of length one or by a dense `1 × 1` matrix. -/
def asScalar? : Value α → Option α
  | scalar entry => some entry
  | vector [entry] => some entry
  | dense matrix => if matrix.rows = 1 ∧ matrix.cols = 1 then matrix.get? 0 0 else none
  | _ => none

@[simp] theorem length_flat [Zero α] [Add α] (value : Value α) :
    value.flat.length = value.size := by
  cases value with
  | scalar entry => rfl
  | vector entries => rfl
  | dense matrix => exact matrix.size_data
  | sparse matrix => exact matrix.size_flat
  | tensor shape entries => rfl

theorem size_shape {value : Value α} (plain : ∀ shape entries, value ≠ tensor shape entries) :
    value.shape.size = value.size := by
  cases value with
  | scalar entry => rfl
  | vector entries => exact Shape.size_vector _
  | dense matrix => exact Shape.size_matrix _ _
  | sparse matrix => exact Shape.size_matrix _ _
  | tensor shape entries => exact absurd rfl (plain shape entries)

/-! ## Part 2: signs and symmetry -/

/-- Every entry is at least zero. The implied zeros of a sparse matrix are. -/
def isNonneg [Zero α] [LE α] [DecidableLE α] (value : Value α) : Bool :=
  value.stored.all fun entry => 0 ≤ entry

/-- Every entry is at most zero. The implied zeros of a sparse matrix are. -/
def isNonpos [Zero α] [LE α] [DecidableLE α] (value : Value α) : Bool :=
  value.stored.all fun entry => entry ≤ 0

/-- The array equals its transpose up to the tolerance: a single entry does, a square matrix is
compared entry by entry, and no other array does. -/
def isSymmetric [Zero α] [Add α] [Sub α] [Magnitude α] [LE α] [DecidableLE α]
    (value : Value α) (tolerance : α) : Bool :=
  match value with
  | scalar _ => true
  | vector entries => entries.length == 1
  | dense matrix => matrix.isSymmetric tolerance
  | sparse matrix => matrix.rows == matrix.cols && matrix.toDense.isSymmetric tolerance
  | tensor shape _ => shape.isUnit

/-! ## Part 3: building from flat entries -/

/-- Store flat entries in the way of the shape's rank. -/
def store (shape : Shape) (entries : List α) : Except Error (Value α) :=
  match shape.dims with
  | [] =>
    match entries[0]? with
    | some entry => .ok (scalar entry)
    | none => .error (.outOfRange 0 entries.length)
  | [_] => .ok (vector entries)
  | [rows, cols] => (DenseMatrix.ofFlat rows cols entries).map dense
  | _ => .ok (tensor shape entries)

/-- Store flat entries under a shape. Their number must be the shape's size. -/
def ofFlat (shape : Shape) (entries : List α) : Except Error (Value α) :=
  if entries.length = shape.size then store shape entries
  else .error (.shapeMismatch (.elementsOfShape shape.size shape) (.count entries.length))

/-- The array of a shape with one number everywhere. -/
def filled (shape : Shape) (entry : α) : Value α :=
  match shape.dims with
  | [] => scalar entry
  | [length] => vector (List.replicate length entry)
  | [rows, cols] =>
    dense ⟨rows, cols, Array.replicate (rows * cols) entry, Array.size_replicate⟩
  | _ => tensor shape (List.replicate shape.size entry)

/-- The same entries under another shape, which must have the same size. -/
def reshape [Zero α] [Add α] (value : Value α) (shape : Shape) : Except Error (Value α) :=
  if shape.size = value.size then ofFlat shape value.flat
  else .error (.shapeMismatch (.elements shape.size) (.shape value.shape))

theorem ofFlat_eq_error {shape : Shape} {entries : List α}
    (wrong : entries.length ≠ shape.size) :
    ofFlat shape entries =
      .error (.shapeMismatch (.elementsOfShape shape.size shape) (.count entries.length)) :=
  if_neg wrong

theorem ofFlat_eq_ok [Zero α] [Add α] {shape : Shape} {entries : List α}
    (full : entries.length = shape.size) :
    ∃ value, ofFlat shape entries = .ok value ∧ value.shape = shape ∧ value.flat = entries := by
  rw [ofFlat, if_pos full]
  obtain ⟨dims⟩ := shape
  match dims, full with
  | [], full =>
    obtain ⟨entry, rfl⟩ := List.length_eq_one_iff.mp full
    exact ⟨scalar entry, rfl, rfl, rfl⟩
  | [length], full =>
    have same : entries.length = length := full.trans (Shape.size_vector length)
    exact ⟨vector entries, rfl, by rw [Value.shape, same]; rfl, rfl⟩
  | [rows, cols], full =>
    have same : entries.length = rows * cols := full.trans (Shape.size_matrix rows cols)
    refine ⟨dense ⟨rows, cols, entries.toArray, same⟩, ?_, rfl, rfl⟩
    show (DenseMatrix.ofFlat rows cols entries).map dense = _
    rw [DenseMatrix.ofFlat, dif_pos same]
    rfl
  | first :: second :: third :: rest, full =>
    exact ⟨tensor ⟨first :: second :: third :: rest⟩ entries, rfl, rfl, rfl⟩

theorem ofFlat_spec [Zero α] [Add α] {shape : Shape} {entries : List α} {value : Value α}
    (stored : ofFlat shape entries = .ok value) :
    entries.length = shape.size ∧ value.shape = shape ∧ value.flat = entries := by
  by_cases full : entries.length = shape.size
  · obtain ⟨other, storedOther, sameShape, sameFlat⟩ := ofFlat_eq_ok full
    cases stored.symm.trans storedOther
    exact ⟨full, sameShape, sameFlat⟩
  · rw [ofFlat_eq_error full] at stored
    cases stored

/-! ## Part 4: matrix and vector layouts -/

/-- The array as a dense matrix: a number is `1 × 1`, a vector one column. Storage of any rank is
refused. -/
def toDense [Zero α] [Add α] : Value α → Except Error (DenseMatrix α)
  | scalar entry => .ok ⟨1, 1, #[entry], rfl⟩
  | vector entries => .ok ⟨entries.length, 1, entries.toArray, (Nat.mul_one _).symm⟩
  | dense matrix => .ok matrix
  | sparse matrix => .ok matrix.toDense
  | tensor shape _ => .error (.shapeMismatch .atMostTwoDimensions (.shape shape))

/-- The entries of a vector-shaped array; any other shape is refused. -/
def toVector [Zero α] [Add α] (value : Value α) : Except Error (List α) :=
  if value.shape.isVector then .ok value.flat
  else .error (.shapeMismatch .vector (.shape value.shape))

end Value

end AffineArrays
