/-
**Sparse and dense storage, exchanged.**

A sparse matrix and the same matrix written out hold the same entries, and almost every question about an
array is a question about its shape and its entries. Signs are read off the stored entries, which is
enough because the others are zero; symmetry and both diagonals write the matrix out first. Only one
question tells the two storages apart: a sparse matrix of a single entry is not read as a number.

* `reshape_congr`, `toVector_congr`: two questions that shape and entries answer, in any storage;
* `Transform.apply_congr`: what a transform looks at;
* `SameAnswers`: the questions that the two storages answer alike;
* `asScalar?_sparse_single`: the question that they do not;
* `sparse_answers_as_dense`: all questions, for every matrix.
-/

import AffineArrays.Proofs.PlacedEntries
import AffineArrays.Proofs.SignSoundness
import AffineArrays.Proofs.SymmetrySoundness

namespace AffineArrays

variable {α : Type}

/-! ## Part 1: questions about shape and entries -/

section Entries

variable [Zero α] [Add α] {first second : Value α}

namespace Value

theorem size_congr (flat : first.flat = second.flat) : first.size = second.size := by
  rw [← length_flat, ← length_flat, flat]

theorem reshape_congr (shape : first.shape = second.shape) (flat : first.flat = second.flat)
    (target : Shape) : first.reshape target = second.reshape target := by
  unfold reshape
  rw [size_congr flat, shape, flat]

theorem toVector_congr (shape : first.shape = second.shape) (flat : first.flat = second.flat) :
    first.toVector = second.toVector := by
  unfold toVector
  rw [shape, flat]

end Value

namespace Transform

/-- A transform looks at shape and entries, and for a main diagonal at the matrix written out. -/
theorem apply_congr (shape : first.shape = second.shape) (flat : first.flat = second.flat)
    (dense : first.toDense = second.toDense) (transform : Transform) :
    transform.apply first = transform.apply second := by
  cases transform with
  | reshape target => exact Value.reshape_congr shape flat target
  | diagVec =>
    rw [apply, Value.toVector_congr shape flat]
    rfl
  | diagMat =>
    rw [apply, dense]
    rfl

/-- A transform that cannot tell two arrays apart cannot do so at any place of a list of arguments. -/
theorem operation_apply_congr {transform : Transform}
    (same : transform.apply first = transform.apply second) (declared : Shape)
    (before after : List (Value α)) :
    (transform.operation declared).apply (before ++ first :: after) =
      (transform.operation declared).apply (before ++ second :: after) := by
  show (single _ _).bind transform.apply = (single _ _).bind transform.apply
  by_cases alone : before = [] ∧ after = []
  · obtain ⟨rfl, rfl⟩ := alone
    exact same
  · -- with other arguments beside it, the array is only counted
    have many : ∀ value : Value α, (before ++ value :: after).length ≠ 1 := fun value one => by
      rw [List.length_append, List.length_cons] at one
      exact alone ⟨List.eq_nil_of_length_eq_zero (by omega), List.eq_nil_of_length_eq_zero (by omega)⟩
    rw [single_of_length_ne_one _ (many first), single_of_length_ne_one _ (many second)]
    simp

end Transform

end Entries

/-! ## Part 2: the questions -/

namespace Value

/-- Two arrays answer alike to every question about an array, but for the one whether it is a number. -/
structure SameAnswers (first second : Value Float) : Prop where
  shape : first.shape = second.shape
  size : first.size = second.size
  flat : first.flat = second.flat
  isNonneg : first.isNonneg = second.isNonneg
  isNonpos : first.isNonpos = second.isNonpos
  isSymmetric : ∀ tolerance, first.isSymmetric tolerance = second.isSymmetric tolerance
  reshape : ∀ target, first.reshape target = second.reshape target
  toDense : first.toDense = second.toDense
  toVector : first.toVector = second.toVector
  /-- Both are computed with alike, as the only argument of a transform and among others. -/
  computed : ∀ (transform : Transform) (declared : Shape) (before after : List (Value Float)),
    (transform.operation declared).apply (before ++ first :: after) =
      (transform.operation declared).apply (before ++ second :: after)

theorem isNonneg_congr {first second : Value Float} (flat : first.flat = second.flat) :
    first.isNonneg = second.isNonneg := by
  rw [Bool.eq_iff_iff, isNonneg_iff, isNonneg_iff, flat]

theorem isNonpos_congr {first second : Value Float} (flat : first.flat = second.flat) :
    first.isNonpos = second.isNonpos := by
  rw [Bool.eq_iff_iff, isNonpos_iff, isNonpos_iff, flat]

/-- The comparison of a sparse matrix looks at its sides once more than that of a dense one. -/
theorem isSymmetric_sparse (matrix : SparseMatrix Float) (tolerance : Float) :
    (sparse matrix).isSymmetric tolerance = (dense matrix.toDense).isSymmetric tolerance := by
  show (matrix.rows == matrix.cols && matrix.toDense.isSymmetric tolerance) =
    matrix.toDense.isSymmetric tolerance
  rw [Bool.eq_iff_iff, Bool.and_eq_true, beq_iff_eq]
  exact ⟨And.right, fun symmetric => ⟨(DenseMatrix.isSymmetric_iff.mp symmetric).1, symmetric⟩⟩

/-- Written out, a matrix has the same shape and the same entries. -/
theorem apply_sparse (matrix : SparseMatrix Float) (transform : Transform) :
    transform.apply (sparse matrix) = transform.apply (dense matrix.toDense) := by
  refine transform.apply_congr ?_ ?_ ?_ <;> rfl

theorem sameAnswers_sparse (matrix : SparseMatrix Float) :
    SameAnswers (sparse matrix) (dense matrix.toDense) where
  shape := rfl
  size := rfl
  flat := rfl
  isNonneg := isNonneg_congr rfl
  isNonpos := isNonpos_congr rfl
  isSymmetric := isSymmetric_sparse matrix
  reshape := reshape_congr rfl rfl
  toDense := rfl
  toVector := toVector_congr rfl rfl
  computed transform := Transform.operation_apply_congr (apply_sparse matrix transform)

/-! ## Part 3: numbers -/

/-- A dense matrix is read as a number if it has a single entry. -/
theorem asScalar?_dense (matrix : SparseMatrix Float) :
    (dense matrix.toDense).asScalar? =
      if matrix.rows = 1 ∧ matrix.cols = 1 then matrix.get? 0 0 else none := by
  rw [← matrix.get?_toDense]
  rfl

/-- A sparse matrix of the single entry seven is not read as a number. -/
theorem asScalar?_sparse_single :
    (sparse (.ofTriplets 1 1 [⟨0, 0, 7⟩]) : Value Float).asScalar? = none ∧
      (dense (SparseMatrix.ofTriplets 1 1 [⟨0, 0, 7⟩]).toDense : Value Float).asScalar? = some 7 ∧
      ¬ ∀ matrix : SparseMatrix Float,
        (sparse matrix).asScalar? = (dense matrix.toDense).asScalar? := by
  have read : (dense (SparseMatrix.ofTriplets 1 1 [⟨0, 0, 7⟩]).toDense : Value Float).asScalar? =
      some 7 := rfl
  refine ⟨rfl, read, fun alike => ?_⟩
  have unread := alike (.ofTriplets 1 1 [⟨0, 0, 7⟩])
  rw [read] at unread
  cases unread

/-- **A sparse matrix answers as the matrix written out**, zeros and signs of zeros in it included, to
every question but one. It is never read as a number, while the matrix written out is if it has a single
entry; so the two agree on this exactly if they have no entry or more than one. -/
theorem sparse_answers_as_dense (matrix : SparseMatrix Float) :
    SameAnswers (sparse matrix) (dense matrix.toDense) ∧
      (sparse matrix).asScalar? = none ∧
      (dense matrix.toDense).asScalar? =
        (if matrix.rows = 1 ∧ matrix.cols = 1 then matrix.get? 0 0 else none) ∧
      ((sparse matrix).asScalar? = (dense matrix.toDense).asScalar? ↔
        ¬ (matrix.rows = 1 ∧ matrix.cols = 1)) := by
  refine ⟨sameAnswers_sparse matrix, rfl, asScalar?_dense matrix, ?_⟩
  rw [asScalar?_dense]
  constructor
  · rintro unread ⟨rows, cols⟩
    rw [if_pos ⟨rows, cols⟩, SparseMatrix.get?, if_pos (by omega)] at unread
    cases unread
  · intro several
    exact (if_neg several).symm

end Value

end AffineArrays
