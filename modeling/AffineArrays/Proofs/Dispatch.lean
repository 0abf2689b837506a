/-
**Diagonals chosen by shape.**

`diag` looks at the shape of its argument and picks one of the two diagonals, or refuses. The shapes it
takes for a vector are given here by rank, and so is what it computes: the vector on a diagonal, or
the main diagonal of a matrix, entry by entry and in every storage.

* `Shape.isVector_iff_line`: no dimensions, one, or a row or a column with an entry;
* `diag_refuses_empty_column`: a column without entries has a unit dimension and is refused all the same;
* `diag_by_shape`: which of the two diagonals is built, on which argument and of which shape;
* `evaluate_flatten`: flattening lists the entries of a value, whatever its storage;
* `diag_entries`: the entries that the built expression has.
-/

import AffineArrays.Proofs.DirectNodes

set_option linter.unusedSectionVars false

namespace AffineArrays

variable {α : Type}

/-! ## Part 1: shapes -/

namespace Shape

/-- The shapes that are taken for a vector. A row or a column must have an entry. -/
inductive Line : Shape → Prop where
  | scalar : Line .scalar
  | vector (length : Nat) : Line (.vector length)
  | column {length : Nat} (positive : 1 ≤ length) : Line (.matrix length 1)
  | row {length : Nat} (positive : 1 ≤ length) : Line (.matrix 1 length)

theorem isVector_iff_line {shape : Shape} : shape.isVector = true ↔ shape.Line := by
  constructor
  · intro found
    obtain ⟨dims⟩ := shape
    match dims, found with
    | [], _ => exact .scalar
    | [length], _ => exact .vector length
    | [rows, cols], found =>
      have least : min rows cols = 1 := beq_iff_eq.mp found
      rcases Nat.le_total rows cols with wide | tall
      · rw [Nat.min_eq_left wide] at least
        exact least ▸ .row (least ▸ wide)
      · rw [Nat.min_eq_right tall] at least
        exact least ▸ .column (least ▸ tall)
  · rintro (_ | length | positive | positive)
    · rfl
    · rfl
    · exact beq_iff_eq.mpr (Nat.min_eq_right positive)
    · exact beq_iff_eq.mpr (Nat.min_eq_left positive)

theorem isSquare_iff {shape : Shape} :
    shape.isSquare = true ↔ ∃ side, shape = .matrix side side := by
  constructor
  · intro square
    obtain ⟨rows, cols, rfl⟩ := exists_matrix_of_rank (rank_of_isSquare square)
    exact ⟨rows, congrArg (matrix rows) (rows_eq_cols_of_isSquare square).symm⟩
  · rintro ⟨side, rfl⟩
    exact beq_self_eq_true side

/-- Of the square shapes only the one with a single entry is taken for a vector. -/
theorem line_square_iff {side : Nat} : (matrix side side).Line ↔ side = 1 := by
  rw [← isVector_iff_line]
  show (min side side == 1) = true ↔ _
  rw [Nat.min_self, beq_iff_eq]

end Shape

/-! ## Part 2: the choice -/

namespace Expr

variable {expression : Expr α}

theorem diag_of_line (line : expression.shape.Line) :
    expression.diag = .ok (.node .diagVec expression.flatten) := by
  have checked : Transform.diagVec.check expression.flatten.shape = .ok () := by
    rw [shape_flatten]
    exact Transform.check_diagVec.mpr (Nat.succ_ne_zero 0)
  rw [diag, if_pos (Shape.isVector_iff_line.mpr line)]
  exact apply_eq_ok_iff.mpr ⟨checked, rfl⟩

theorem diag_of_square {side : Nat} (other : side ≠ 1)
    (square : expression.shape = .matrix side side) :
    expression.diag = .ok (.node .diagMat expression) := by
  have noLine : ¬ expression.shape.isVector = true := by
    rw [Shape.isVector_iff_line, square, Shape.line_square_iff]
    exact other
  rw [diag, if_neg noLine, if_pos (Shape.isSquare_iff.mpr ⟨side, square⟩)]
  exact apply_eq_ok_iff.mpr ⟨Transform.check_diagMat.mpr (by rw [square]; rfl), rfl⟩

theorem diag_of_other (noLine : ¬ expression.shape.Line)
    (noSquare : ∀ side, expression.shape ≠ .matrix side side) :
    expression.diag = .error .diagArgument := by
  have notVector := noLine ∘ Shape.isVector_iff_line.mp
  have notSquare : ¬ expression.shape.isSquare = true := fun found =>
    (Shape.isSquare_iff.mp found).elim noSquare
  rw [diag, if_neg notVector, if_neg notSquare]

/-- A column without entries is a matrix with one column, and no diagonal is built of it. -/
theorem diag_refuses_empty_column :
    (Expr.var (.declare 0 (.matrix 0 1) none []) : Expr Float).diag = .error .diagArgument ∧
      ¬ ∀ (length : Nat) (expression : Expr Float), expression.shape = .matrix length 1 →
        ∃ result, expression.diag = .ok result := by
  refine ⟨rfl, fun accepts => ?_⟩
  obtain ⟨result, built⟩ := accepts 0 (.var (.declare 0 (.matrix 0 1) none [])) rfl
  cases built

/-- **A diagonal is chosen by the shape of the argument alone.** What is taken for a vector is
flattened first, and put on the diagonal of a matrix with a row for every entry. Of any other square
matrix the main diagonal is taken, of the argument itself. Every other shape is refused, the row and
the column without entries among them, and always for the same reason. -/
theorem diag_by_shape (expression : Expr α) :
    (expression.shape.Line → expression.flatten.shape = .vector expression.shape.size ∧
        ∃ result, expression.diag = .ok result ∧ result = .node .diagVec expression.flatten ∧
          result.shape = .matrix expression.shape.size expression.shape.size) ∧
      (∀ side, side ≠ 1 → expression.shape = .matrix side side →
        ∃ result, expression.diag = .ok result ∧ result = .node .diagMat expression ∧
          result.shape = .vector side) ∧
      (¬ expression.shape.Line → (∀ side, expression.shape ≠ .matrix side side) →
        expression.diag = .error .diagArgument) := by
  refine ⟨fun line => ⟨shape_flatten expression, _, diag_of_line line, rfl, ?_⟩,
    fun side other square => ⟨_, diag_of_square other square, rfl, ?_⟩, diag_of_other⟩
  · rw [shape, shape_flatten]
    rfl
  · rw [shape, square]
    rfl

/-- The smallest matrices: one entry makes a vector, no rows and no columns make a square matrix, and a
row without entries makes neither. -/
theorem diag_by_shape_smallest :
    let single : Expr Float := .var (.declare 0 (.matrix 1 1) none [])
    let empty : Expr Float := .var (.declare 1 (.matrix 0 0) none [])
    let row : Expr Float := .var (.declare 2 (.matrix 1 0) none [])
    (∃ result, single.diag = .ok result ∧ result.shape = .matrix 1 1) ∧
      (∃ result, empty.diag = .ok result ∧ result.shape = .vector 0) ∧
      row.diag = .error .diagArgument := by
  intro single empty row
  refine ⟨?_, ?_, (diag_by_shape row).2.2 ?_ ?_⟩
  · obtain ⟨_, result, built, _, shape⟩ := (diag_by_shape single).1 (.row (Nat.le_refl 1))
    exact ⟨result, built, shape⟩
  · obtain ⟨result, built, _, shape⟩ := (diag_by_shape empty).2.1 0 (by decide) rfl
    exact ⟨result, built, shape⟩
  · exact fun line => absurd (Shape.isVector_iff_line.mpr line) (by decide)
  · intro side same
    obtain ⟨one, none⟩ := Shape.matrix_inj.mp same
    exact absurd (one.trans none.symm) (by decide)

/-! ## Part 3: the entries -/

variable [Zero α] [Add α] {values : Assignment α} {value : Value α}

/-- Flattening lists the entries of a value column by column, whatever its storage. -/
theorem evaluate_flatten (evaluated : expression.evaluate values = .ok value) (full : value.Full) :
    ∃ flattened, expression.flatten.evaluate values = .ok flattened ∧
      flattened.shape = .vector expression.shape.size ∧ flattened.flat = value.flat := by
  have shape := shape_of_evaluate evaluated
  unfold flatten
  split
  · rename_i one
    refine ⟨value, evaluated, ?_, rfl⟩
    rw [shape]
    exact (Shape.flattened_of_rank_one one).symm
  · have count : value.flat.length = expression.shape.flattened.size := by
      rw [value.length_flat, full, shape, Shape.size_flattened]
    obtain ⟨flattened, found, _, declared, flat⟩ := evaluate_reshape evaluated count
    exact ⟨flattened, found, declared, flat⟩

/-- The flattened entries of a full value stand on the diagonal of a matrix. -/
theorem evaluate_diagVec_flatten (evaluated : expression.evaluate values = .ok value)
    (full : value.Full) :
    (node .diagVec expression.flatten).evaluate values = .ok (.dense (.ofDiagonal value.flat)) := by
  obtain ⟨flattened, evaluatedFlat, shape, flat⟩ := evaluate_flatten evaluated full
  have line : expression.flatten.shape.isVector = true := by
    rw [shape_flatten]
    rfl
  have length : flattened.size = expression.flatten.shape.rows := by
    rw [← flattened.length_flat, flat, value.length_flat, full, shape_of_evaluate evaluated,
      shape_flatten]
    rfl
  rw [← flat]
  exact evaluate_diagVec evaluatedFlat line length

/-- **The entries of a diagonal chosen by shape.** A vector of `s` entries in whatever storage becomes
the dense matrix with those entries on its diagonal, in their order, and zeros beside it. The main
diagonal of a square matrix becomes a vector of its entries `(i, i)`, where an entry that a sparse
matrix does not store is zero. -/
theorem diag_entries {result : Expr α} (built : expression.diag = .ok result)
    (evaluated : expression.evaluate values = .ok value) (stored : value.WellStored) :
    (expression.shape.isVector = true →
        ∃ matrix : DenseMatrix α, result.evaluate values = .ok (.dense matrix) ∧
          matrix.rows = expression.shape.size ∧ matrix.cols = expression.shape.size ∧
          ∀ row col, row < expression.shape.size → col < expression.shape.size →
            matrix.get? row col = if row = col then value.flat[row]? else some 0) ∧
      (expression.shape.isVector = false →
        ∃ (side : Nat) (entries : List α), expression.shape = .matrix side side ∧
          result.evaluate values = .ok (.vector entries) ∧ entries.length = side ∧
          ∀ index, index < side → entries[index]? = value.entry? index index) := by
  have shape := shape_of_evaluate evaluated
  constructor
  · intro line
    have length : value.flat.length = expression.shape.size := by
      rw [value.length_flat, stored.full, shape]
    cases built.symm.trans (diag_of_line (Shape.isVector_iff_line.mp line))
    refine ⟨_, evaluate_diagVec_flatten evaluated stored.full, length, length, ?_⟩
    intro row col rowInside colInside
    rw [← length] at rowInside colInside
    exact DenseMatrix.get?_ofDiagonal rowInside colInside
  · intro noLine
    have notVector : ¬ expression.shape.Line := fun line => by
      rw [Shape.isVector_iff_line.mpr line] at noLine
      cases noLine
    have square : ∃ side, expression.shape = .matrix side side := by
      by_contra none
      cases built.symm.trans (diag_of_other notVector fun side same => none ⟨side, same⟩)
    obtain ⟨side, square⟩ := square
    have other : side ≠ 1 := fun one => notVector (square ▸ Shape.line_square_iff.mpr one)
    have read := evaluate_diagMat evaluated stored (by rw [square]; rfl)
      (by rw [square]; exact Nat.le_refl side)
    cases built.symm.trans (diag_of_square other square)
    refine ⟨side, _, square, read, ?_, fun index inside => ?_⟩
    · rw [square, length_readDiagonal]
      rfl
    · rw [square]
      exact Value.getElem?_readDiagonal stored (shape.trans square) inside inside inside

/-- An infinity and a negative zero of a row are put on a diagonal. Of a sparse matrix one diagonal
entry is stored and the other is not. -/
theorem diag_entries_row_and_sparse :
    let row : Expr Float := .var (.declare 3 (.matrix 1 2) none [])
    let square : Expr Float := .const (.sparse (.ofTriplets 2 2 [⟨0, 1, 9⟩, ⟨1, 1, 8⟩]))
    let values : Assignment Float := fun _ => some (.dense ⟨1, 2, #[1 / 0, -0.0], rfl⟩)
    (∃ result matrix, row.diag = .ok result ∧ result.evaluate values = .ok (.dense matrix) ∧
        matrix.get? 0 0 = some (1 / 0) ∧ matrix.get? 1 1 = some (-0.0) ∧
        matrix.get? 1 0 = some 0) ∧
      ∃ result entries, square.diag = .ok result ∧ result.evaluate values = .ok (.vector entries) ∧
        entries[0]? = some 0 ∧ entries[1]? = some 8 := by
  intro row square values
  refine ⟨?_, ?_⟩
  · have built : row.diag = .ok (.node .diagVec (.node (.reshape (.vector 2)) row)) := rfl
    have evaluated : row.evaluate values = .ok (.dense ⟨1, 2, #[1 / 0, -0.0], rfl⟩) := rfl
    obtain ⟨matrix, found, _, _, reads⟩ := (diag_entries built evaluated trivial).1 rfl
    exact ⟨_, matrix, built, found, reads 0 0 (by decide) (by decide),
      reads 1 1 (by decide) (by decide), reads 1 0 (by decide) (by decide)⟩
  · have built : square.diag = .ok (.node .diagMat square) := rfl
    have evaluated : square.evaluate values =
        .ok (.sparse (.ofTriplets 2 2 [⟨0, 1, 9⟩, ⟨1, 1, 8⟩])) := rfl
    obtain ⟨side, entries, same, found, _, reads⟩ := (diag_entries built evaluated trivial).2 rfl
    obtain ⟨rfl, _⟩ := Shape.matrix_inj.mp same
    exact ⟨_, entries, built, found, reads 0 (by decide), reads 1 (by decide)⟩

end Expr

end AffineArrays
