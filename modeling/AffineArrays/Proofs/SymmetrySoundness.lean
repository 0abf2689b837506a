/-
**Sound symmetry.**

Symmetry is found without evaluating: by a single entry, by the make of a diagonal matrix, by the
declaration of a variable, or by comparing the entries of a constant. Whichever it was, every value
of the expression passes the comparison too. The zeros beside a diagonal are never computed from its
entries, so infinities and NaN on it do no harm.

* `DenseMatrix.isSymmetric_iff`: the comparison reads every pair of opposite entries once;
* `DenseMatrix.isSymmetric_ofDiagonal`: a diagonal matrix passes, whatever its diagonal;
* `Value.isSymmetric_of_isUnit`: so does a single entry in every storage;
* `isSymmetricWithin_iff`: the four reasons for which symmetry is found;
* `symmetry_sound`: each of them holds of the values.
-/

import AffineArrays.Expr.Analysis
import AffineArrays.Proofs.Construction
import AffineArrays.Proofs.MovedEntries

namespace AffineArrays

variable {α : Type} [Sub α] [Magnitude α] [LE α] [DecidableLE α] {tolerance : α}

/-! ## Part 1: arrays -/

namespace DenseMatrix

theorem isSymmetric_iff {matrix : DenseMatrix α} :
    matrix.isSymmetric tolerance = true ↔ matrix.rows = matrix.cols ∧
      ∀ row col, row < col → col < matrix.rows →
        close tolerance (matrix.get? row col) (matrix.get? col row) = true := by
  simp only [isSymmetric, Bool.and_eq_true, beq_iff_eq, List.all_eq_true, List.mem_range,
    Bool.or_eq_true, decide_eq_true_iff]
  refine and_congr_right fun _ => ⟨?_, ?_⟩
  · intro all row col above inside
    exact (all row (by omega) col inside).resolve_left (by omega)
  · intro all row _ col inside
    by_cases above : row < col
    · exact .inr (all row col above inside)
    · exact .inl (by omega)

/-- There is nothing to compare in a matrix of one entry. -/
theorem isSymmetric_of_single (matrix : DenseMatrix α) (rows : matrix.rows = 1)
    (cols : matrix.cols = 1) : matrix.isSymmetric tolerance = true :=
  isSymmetric_iff.mpr ⟨rows.trans cols.symm, fun row col above inside => by omega⟩

/-- A diagonal matrix is symmetric: only zeros are compared. -/
theorem isSymmetric_ofDiagonal [Zero α] (zero : magnitude (0 - 0 : α) ≤ tolerance) (diagonal : List α) :
    (ofDiagonal diagonal).isSymmetric tolerance = true := by
  refine isSymmetric_iff.mpr ⟨rfl, fun row col above inside => ?_⟩
  have colInside : col < diagonal.length := inside
  have rowInside : row < diagonal.length := by omega
  have upper : (ofDiagonal diagonal).get? row col = some 0 := by
    rw [get?_ofDiagonal rowInside colInside, if_neg (by omega)]
  have lower : (ofDiagonal diagonal).get? col row = some 0 := by
    rw [get?_ofDiagonal colInside rowInside, if_neg (by omega)]
  rw [upper, lower]
  exact decide_eq_true zero

end DenseMatrix

variable [Zero α] [Add α]

namespace Value

/-- A single entry is symmetric in every storage. -/
theorem isSymmetric_of_isUnit {value : Value α} (unit : value.shape.isUnit = true) :
    value.isSymmetric tolerance = true := by
  cases value with
  | scalar entry => rfl
  | vector entries => exact (Shape.isUnit_vector _).symm.trans unit
  | dense matrix =>
    obtain ⟨rows, cols⟩ := Shape.isUnit_matrix_iff.mp unit
    exact matrix.isSymmetric_of_single rows cols
  | sparse matrix =>
    obtain ⟨rows, cols⟩ := Shape.isUnit_matrix_iff.mp unit
    rw [isSymmetric, rows, cols]
    exact matrix.toDense.isSymmetric_of_single rows cols
  | tensor shape entries => exact unit

/-- Only square matrices and single entries are symmetric. -/
theorem isSquare_or_isUnit_of_isSymmetric {value : Value α}
    (symmetric : value.isSymmetric tolerance = true) :
    value.shape.isSquare = true ∨ value.shape.isUnit = true := by
  cases value with
  | scalar entry => exact .inr rfl
  | vector entries => exact .inr ((Shape.isUnit_vector _).trans symmetric)
  | dense matrix => exact .inl (beq_iff_eq.mpr (DenseMatrix.isSymmetric_iff.mp symmetric).1)
  | sparse matrix => exact .inl (Bool.and_eq_true_iff.mp symmetric).1
  | tensor shape entries => exact .inr symmetric

end Value

/-! ## Part 2: expressions -/

namespace Expr

variable {expression : Expr α} {tolerances : Tolerances α} {values : Assignment α}
  {result : Value α}

/-- Every variable in the expression was declared, with attributes in any order and number. -/
def Declared (expression : Expr α) : Prop :=
  ∀ leaf ∈ expression.variableLeaves,
    ∃ id shape name attributes, leaf = .declare id shape name attributes

/-- Those variables of the expression that are declared symmetric have symmetric values, if any. -/
def SymmetryKept (tolerance : α) (values : Assignment α) (expression : Expr α) : Prop :=
  ∀ leaf ∈ expression.variableLeaves, leaf.symmetric = true →
    ∀ value, values leaf.id = some value → value.isSymmetric tolerance = true

/-- **The four reasons for symmetry**: a single entry, a vector on a diagonal, a declaration, and
the entries of a constant. -/
theorem isSymmetricWithin_iff :
    expression.isSymmetricWithin tolerances = true ↔
      expression.shape.isUnit = true ∨ (∃ argument, expression = .node .diagVec argument) ∨
        (∃ leaf, expression = .var leaf ∧ leaf.symmetric = true) ∨
        ∃ value, expression = .const value ∧ value.isSymmetric tolerances.symmetry = true := by
  cases expression with
  | var leaf => simp [isSymmetricWithin, shape, or_comm]
  | const value =>
    simp only [isSymmetricWithin, shape, reduceCtorEq, const.injEq, exists_false, false_and,
      false_or, exists_eq_left']
    exact ⟨.inr, fun reason => reason.elim Value.isSymmetric_of_isUnit id⟩
  | node transform argument =>
    cases transform <;> simp [isSymmetricWithin, Transform.isSymmetric, shape]

theorem isSquare_or_isUnit_of_isSymmetricWithin (declared : expression.Declared)
    (found : expression.isSymmetricWithin tolerances = true) :
    expression.shape.isSquare = true ∨ expression.shape.isUnit = true := by
  rcases isSymmetricWithin_iff.mp found with
    unit | ⟨argument, rfl⟩ | ⟨leaf, rfl, symmetric⟩ | ⟨value, rfl, symmetric⟩
  · exact .inr unit
  · exact .inl (beq_self_eq_true argument.shape.rows)
  · obtain ⟨id, shape, name, attributes, rfl⟩ := declared leaf List.mem_cons_self
    exact .inl (Variable.isSquare_of_symmetric symmetric)
  · exact Value.isSquare_or_isUnit_of_isSymmetric symmetric

theorem isSymmetric_of_evaluate (zero : magnitude (0 - 0 : α) ≤ tolerances.symmetry)
    (kept : expression.SymmetryKept tolerances.symmetry values)
    (found : expression.isSymmetricWithin tolerances = true)
    (evaluated : expression.evaluate values = .ok result) :
    result.isSymmetric tolerances.symmetry = true := by
  rcases isSymmetricWithin_iff.mp found with
    unit | ⟨argument, rfl⟩ | ⟨leaf, rfl, symmetric⟩ | ⟨value, rfl, symmetric⟩
  · rw [← shape_of_evaluate evaluated] at unit
    exact Value.isSymmetric_of_isUnit unit
  · obtain ⟨value, _, applied, _⟩ := evaluate_node_eq_ok_iff.mp evaluated
    obtain ⟨_, rfl⟩ := Transform.apply_diagVec.mp applied
    exact DenseMatrix.isSymmetric_ofDiagonal zero value.flat
  · exact kept leaf List.mem_cons_self symmetric result (evaluate_var_eq_ok_iff.mp evaluated).1
  · cases evaluated
    exact symmetric

theorem isHermitian_eq_isSymmetric [OfScientific α] (expression : Expr α) :
    expression.isHermitian = expression.isSymmetric := by
  cases expression with
  | var leaf => rfl
  | const value => rfl
  | node transform argument => exact isHermitian_node transform argument

/-- **Symmetry is sound.** An expression over declared variables that is found symmetric is a square
matrix or a single entry, and under values as declared all its values are symmetric up to the same
tolerance. It is found for four reasons and no other, and Hermitian means symmetric. -/
theorem symmetry_sound {expression : Expr Float} (declared : expression.Declared)
    {tolerances : Tolerances Float} (nonneg : 0 ≤ tolerances.symmetry) {values : Assignment Float}
    (kept : expression.SymmetryKept tolerances.symmetry values) :
    (expression.isSymmetricWithin tolerances = true →
        (expression.shape.isSquare = true ∨ expression.shape.isUnit = true) ∧
          ∀ result, expression.evaluate values = .ok result →
            result.isSymmetric tolerances.symmetry = true) ∧
      (expression.isSymmetricWithin tolerances = true ↔
        expression.shape.isUnit = true ∨ (∃ argument, expression = .node .diagVec argument) ∨
          (∃ leaf, expression = .var leaf ∧ leaf.symmetric = true) ∨
          ∃ value, expression = .const value ∧ value.isSymmetric tolerances.symmetry = true) ∧
      ∀ other : Expr Float, other.isHermitian = other.isSymmetric := by
  have zero : magnitude (0 - 0 : Float) ≤ tolerances.symmetry := nonneg
  refine ⟨fun found => ⟨?_, fun result evaluated => ?_⟩, isSymmetricWithin_iff,
    isHermitian_eq_isSymmetric⟩
  · exact isSquare_or_isUnit_of_isSymmetricWithin declared found
  · exact isSymmetric_of_evaluate zero kept found evaluated

/-- NaN and an infinity stand on a diagonal, under no tolerance at all. A vector cannot be declared
symmetric; a square variable can, and its opposite entries may differ by a quarter under one half. -/
theorem symmetry_sound_infinite_diagonal :
    let spread : Expr Float :=
      .node .diagVec (.var (.declare 4 (.vector 2) none [.symmetric, .nonneg]))
    let square : Expr Float := .var (.declare 3 (.matrix 2 2) none [.nonneg, .symmetric])
    let vectors : Assignment Float := fun _ => some (.vector [0 / 0, 1 / 0])
    let matrices : Assignment Float := fun _ => some (.dense ⟨2, 2, #[1, 2, 2.25, 3], rfl⟩)
    (∃ result, spread.evaluate vectors = .ok result ∧ result.isSymmetric 0 = true) ∧
      ∃ result, square.evaluate matrices = .ok result ∧ result.isSymmetric 0.5 = true := by
  intro spread square vectors matrices
  have spreadDeclared : spread.Declared := fun leaf member =>
    ⟨_, _, _, _, List.mem_singleton.mp member⟩
  have squareDeclared : square.Declared := fun leaf member =>
    ⟨_, _, _, _, List.mem_singleton.mp member⟩
  have spreadKept : spread.SymmetryKept 0 vectors := fun leaf member symmetric => by
    cases List.mem_singleton.mp member
    cases symmetric
  have squareKept : square.SymmetryKept 0.5 matrices := fun leaf member _ value given => by
    cases given
    decide
  have exact : (0 : Float) ≤ (⟨0, 0⟩ : Tolerances Float).symmetry := by decide
  have loose : (0 : Float) ≤ (⟨0.5, 0⟩ : Tolerances Float).symmetry := by decide
  exact ⟨⟨_, rfl, ((symmetry_sound spreadDeclared exact spreadKept).1 rfl).2 _ rfl⟩,
    ⟨_, rfl, ((symmetry_sound squareDeclared loose squareKept).1 rfl).2 _ rfl⟩⟩

end Expr

end AffineArrays
