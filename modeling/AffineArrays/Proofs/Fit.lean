/-
**Which expressions have a value.**

A transform declares a shape by a look at the first dimensions of its argument, and a computed array
of another shape is refused. Whether that happens is settled by the layout of the argument: its
shape, the number of its entries, and whether they can be laid out as a matrix. The form of an
expression makes no such check: it pads a diagonal that is too short and cuts one that is too long.

* `Transform.exists_declared_iff`: a transform computes its declared shape exactly where it fits;
* `evaluates_of_fits`, `mismatch_of_not_fits`: an expression has a value exactly if all its
  transforms fit, and otherwise a shape is refused;
* `form_answers_for_tall_matrix`: the form of an expression without a value may have one;
* `form_agrees_iff_fits`: where all transforms fit, and only there, the form and the expression
  have the same value.
-/

import AffineArrays.Proofs.Lowering
import AffineArrays.Proofs.Progress

set_option linter.unusedSectionVars false

namespace AffineArrays

variable {α : Type}

/-! ## Part 1: layouts -/

/-- What the computation of a transform depends on besides the entries: the shape of its argument,
the number of entries, and whether they can be laid out as a matrix. -/
structure Layout where
  shape : Shape
  size : Nat
  planar : Bool

/-- The layout of a well-stored array of this shape. -/
def Shape.layout (shape : Shape) : Layout := ⟨shape, shape.size, shape.rank ≤ 2⟩

namespace Value

/-- The layout of an array. Entries under a shape are never laid out as a matrix. -/
def layout (value : Value α) : Layout where
  shape := value.shape
  size := value.size
  planar := match value with
    | tensor _ _ => false
    | _ => true

variable [Zero α] [Add α]

theorem WellStored.layout_eq {value : Value α} (stored : value.WellStored) :
    value.layout = value.shape.layout := by
  have full := stored.full
  cases value with
  | tensor shape entries =>
    have high : decide (shape.rank ≤ 2) = false := decide_eq_false (Nat.not_le_of_lt stored.1)
    exact congrArg₂ (Layout.mk shape) full high.symm
  | _ => exact congrArg (Layout.mk _ · true) full

theorem exists_toDense_iff {value : Value α} :
    (∃ matrix, value.toDense = .ok matrix) ↔ value.layout.planar = true := by
  cases value with
  | tensor shape entries => exact iff_of_false nofun nofun
  | _ => exact iff_of_true ⟨_, rfl⟩ rfl

end Value

/-! ## Part 2: one transform -/

namespace Transform

/-- The array computed from an argument of this layout has the declared shape: a reshape keeps the
number of entries, the vector on a diagonal is as long as its first dimension, and a main diagonal
reaches the last row. -/
def Fits : Transform → Layout → Prop
  | reshape target, layout => layout.size = target.size
  | diagVec, layout => layout.shape.isVector = true ∧ layout.size = layout.shape.rows
  | diagMat, layout => layout.planar = true ∧ layout.shape.rows ≤ layout.shape.cols

variable [Zero α] [Add α]

theorem declared_diagVec_iff {value : Value α} :
    (Value.dense (.ofDiagonal value.flat)).shape = diagVec.declaredShape value.shape ↔
      value.size = value.shape.rows := by
  rw [← value.length_flat, Value.shape, declaredShape, Shape.matrix_inj]
  exact and_self_iff

/-- The main diagonal ends with the rows or with the columns, and all rows are declared. -/
theorem declared_diagMat_iff {value : Value α} {matrix : DenseMatrix α}
    (read : value.toDense = .ok matrix) :
    (Value.vector (readDiagonal value.shape.rows (min matrix.rows matrix.cols) value.flat)).shape =
        diagMat.declaredShape value.shape ↔ value.shape.rows ≤ value.shape.cols := by
  obtain ⟨rows, cols, _⟩ := Value.toDense_spec read
  rw [Value.shape, declaredShape, Shape.vector_inj, rows, cols, length_readDiagonal]
  omega

/-- A transform computes its declared shape exactly where it fits. -/
theorem exists_declared_iff (transform : Transform) (value : Value α) :
    (∃ result, transform.apply value = .ok result ∧
        result.shape = transform.declaredShape value.shape) ↔ transform.Fits value.layout := by
  cases transform with
  | reshape target =>
    constructor
    · rintro ⟨result, applied, _⟩
      exact value.length_flat.symm.trans (Value.ofFlat_spec (apply_reshape.mp applied)).1
    · intro (fits : value.size = target.size)
      obtain ⟨result, stored, shape, _⟩ := Value.ofFlat_eq_ok (value.length_flat.trans fits)
      exact ⟨result, apply_reshape.mpr stored, shape⟩
  | diagVec =>
    constructor
    · rintro ⟨result, applied, shape⟩
      obtain ⟨line, rfl⟩ := apply_diagVec.mp applied
      exact ⟨line, declared_diagVec_iff.mp shape⟩
    · rintro ⟨line, length⟩
      exact ⟨_, apply_diagVec.mpr ⟨line, rfl⟩, declared_diagVec_iff.mpr length⟩
  | diagMat =>
    constructor
    · rintro ⟨result, applied, shape⟩
      obtain ⟨matrix, read, rfl⟩ := apply_diagMat.mp applied
      exact ⟨Value.exists_toDense_iff.mp ⟨matrix, read⟩, (declared_diagMat_iff read).mp shape⟩
    · rintro ⟨planar, reaches⟩
      obtain ⟨matrix, read⟩ := Value.exists_toDense_iff.mpr planar
      exact ⟨_, apply_diagMat.mpr ⟨matrix, read, rfl⟩, (declared_diagMat_iff read).mpr reaches⟩

/-- A transform that computes nothing refuses the shape of its argument. -/
theorem exists_apply_or_mismatch (transform : Transform) (value : Value α) :
    (∃ result, transform.apply value = .ok result) ∨
      ∃ required found, transform.apply value = .error (.shapeMismatch required found) := by
  cases transform with
  | reshape target =>
    by_cases same : target.size = value.size
    · obtain ⟨result, stored, _, _⟩ := Value.ofFlat_eq_ok (value.length_flat.trans same.symm)
      exact .inl ⟨result, apply_reshape.mpr stored⟩
    · exact .inr ⟨_, _, if_neg same⟩
  | diagVec =>
    by_cases line : value.shape.isVector = true
    · exact .inl ⟨_, apply_diagVec.mpr ⟨line, rfl⟩⟩
    · refine .inr ⟨.vector, .shape value.shape, ?_⟩
      rw [apply, Value.toVector, if_neg line]
      rfl
  | diagMat =>
    cases value with
    | tensor shape entries => exact .inr ⟨_, _, rfl⟩
    | _ => exact .inl ⟨_, apply_diagMat.mpr ⟨_, rfl, rfl⟩⟩

end Transform

/-! ## Part 3: whole expressions -/

namespace Expr

/-- The layout of the values of an expression. -/
def layout : Expr α → Layout
  | var leaf => leaf.shape.layout
  | const value => value.layout
  | node transform argument => (transform.declaredShape argument.shape).layout

/-- Every transform in the expression fits its argument. -/
def Fits : Expr α → Prop
  | var _ => True
  | const _ => True
  | node transform argument => argument.Fits ∧ transform.Fits argument.layout

/-- Every variable in the expression has a well-stored value of its shape. -/
def Assigned [Zero α] [Add α] (values : Assignment α) (expression : Expr α) : Prop :=
  ∀ leaf ∈ expression.variableLeaves,
    ∃ value, values leaf.id = some value ∧ value.WellStored ∧ value.shape = leaf.shape

variable [Zero α] [Add α] {values : Assignment α} {expression : Expr α} {result : Value α}

theorem layout_of_evaluate (assigned : expression.Assigned values)
    (evaluated : expression.evaluate values = .ok result) : result.layout = expression.layout := by
  cases expression with
  | var leaf =>
    obtain ⟨value, given, stored, shape⟩ := assigned leaf (List.mem_singleton_self leaf)
    obtain ⟨found, _⟩ := evaluate_var_eq_ok_iff.mp evaluated
    cases given.symm.trans found
    rw [stored.layout_eq, shape, layout]
  | const value =>
    cases evaluated
    rfl
  | node transform argument =>
    obtain ⟨value, _, applied, declared⟩ := evaluate_node_eq_ok_iff.mp evaluated
    rw [(Value.wellStored_of_apply applied).layout_eq, declared, layout]

/-- Where all transforms fit, the expression has a value. -/
theorem evaluates_of_fits (assigned : expression.Assigned values) (fits : expression.Fits) :
    ∃ result, expression.evaluate values = .ok result := by
  induction expression with
  | var leaf =>
    obtain ⟨value, given, _, shape⟩ := assigned leaf (List.mem_singleton_self leaf)
    exact ⟨value, evaluate_var_eq_ok_iff.mpr ⟨given, shape⟩⟩
  | const value => exact ⟨value, rfl⟩
  | node transform argument step =>
    obtain ⟨inner, outer⟩ := fits
    have below : argument.Assigned values := assigned
    obtain ⟨value, evaluated⟩ := step below inner
    rw [← layout_of_evaluate below evaluated] at outer
    obtain ⟨result, applied, declared⟩ := (transform.exists_declared_iff value).mpr outer
    rw [shape_of_evaluate evaluated] at declared
    exact ⟨result, evaluate_node_eq_ok_iff.mpr ⟨value, evaluated, applied, declared⟩⟩

theorem mismatch_of_node_not_fits {transform : Transform} {argument : Expr α} {value : Value α}
    (evaluated : argument.evaluate values = .ok value) (unfit : ¬ transform.Fits value.layout) :
    ∃ required found,
      (node transform argument).evaluate values = .error (.shapeMismatch required found) := by
  rw [evaluate_node, evaluated]
  show ∃ required found, (transform.apply value).bind _ = _
  rcases transform.exists_apply_or_mismatch value with
    ⟨result, applied⟩ | ⟨required, found, refused⟩
  · have other : result.shape ≠ transform.declaredShape argument.shape := by
      rw [← shape_of_evaluate evaluated]
      exact fun declared =>
        unfit ((transform.exists_declared_iff value).mp ⟨result, applied, declared⟩)
    rw [applied]
    exact ⟨_, _, if_neg other⟩
  · rw [refused]
    exact ⟨required, found, rfl⟩

/-- Where some transform does not fit, a shape is refused. -/
theorem mismatch_of_not_fits (assigned : expression.Assigned values) (unfit : ¬ expression.Fits) :
    ∃ required found, expression.evaluate values = .error (.shapeMismatch required found) := by
  induction expression with
  | var leaf => exact absurd trivial unfit
  | const value => exact absurd trivial unfit
  | node transform argument step =>
    have below : argument.Assigned values := assigned
    by_cases inner : argument.Fits
    · obtain ⟨value, evaluated⟩ := evaluates_of_fits below inner
      refine mismatch_of_node_not_fits evaluated ?_
      rw [layout_of_evaluate below evaluated]
      exact fun outer => unfit ⟨inner, outer⟩
    · obtain ⟨required, found, failed⟩ := step below inner
      refine ⟨required, found, ?_⟩
      rw [evaluate_node, failed]
      rfl

/-! ## Part 4: beside the form -/

/-- The form of a tall matrix's diagonal pads it with zeros, where the expression has no value. -/
theorem form_answers_for_tall_matrix :
    let expression : Expr Float := .node .diagMat (.var (.declare 3 (.matrix 2 1) none []))
    let values : Assignment Float := fun _ => some (.dense ⟨2, 1, #[5, 7], rfl⟩)
    expression.Constructed (fun _ => True) ∧ expression.Assigned values ∧
      (∃ lowered form carried, expression.lower = .ok lowered ∧
        AffineForm.ofTree .standard lowered.tree = .ok form ∧
        form.evaluate values = .ok carried ∧ carried.flat = [5, 0]) ∧
      expression.evaluate values =
        .error (.shapeMismatch (.shape (.vector 2)) (.shape (.vector 1))) := by
  intro expression values
  refine ⟨constructed_iff_built.mpr ⟨trivial, rfl⟩, ?_, ⟨_, _, _, rfl, rfl, rfl, rfl⟩, rfl⟩
  intro leaf member
  cases List.mem_singleton.mp member
  exact ⟨_, rfl, trivial, rfl⟩

/-- **Beside its form, an expression has the same value** exactly if all its transforms fit. If one
does not, the expression has no value: a shape is refused. -/
theorem form_agrees_iff_fits [One α] [Mul α] [Magnitude α] [LE α] [DecidableLE α]
    (assigned : expression.Assigned values) {tolerances : Tolerances α}
    (kept : ¬ magnitude (1 : α) ≤ tolerances.pruning) {lowered : Lowered α} {form : AffineForm α}
    {carried : Value α} (lowers : expression.lower = .ok lowered)
    (read : AffineForm.ofTree tolerances lowered.tree = .ok form)
    (answers : form.evaluate values = .ok carried) :
    (expression.Fits → ∃ result, expression.evaluate values = .ok result ∧
        result.shape = carried.shape ∧ List.Forall₂ AffineForm.Agrees result.flat carried.flat ∧
        (expression.ids = [] → carried.flat = result.flat) ∧
        ((∀ entry : α, 0 + 1 * entry = entry) → carried.flat = result.flat)) ∧
      (¬ expression.Fits →
        ∃ required found, expression.evaluate values = .error (.shapeMismatch required found)) := by
  refine ⟨fun fits => ?_, mismatch_of_not_fits assigned⟩
  cases (lower_eq expression).symm.trans lowers
  obtain ⟨result, evaluated⟩ := evaluates_of_fits assigned fits
  have reads := AffineForm.ofTree_eq_ok_iff.mp read
  obtain ⟨shape, agrees, same⟩ := reads.agrees_of_evaluate kept (meaning_tree evaluated) answers
  refine ⟨result, evaluated, ?_, agrees, fun free => same (id_bottom_tree free),
    fun unit => AffineForm.eq_of_agrees unit agrees⟩
  rw [shape, shape_tree, shape_of_evaluate evaluated]

/-- The diagonal of a wide matrix ends with its rows. A row is no vector for a diagonal of one. -/
theorem form_agrees_for_wide_matrix :
    let wide : Expr Float := .node .diagMat (.var (.declare 3 (.matrix 2 3) none []))
    let row : Expr Float := .node .diagVec (.const (.dense ⟨1, 3, #[1, 2, 3], rfl⟩))
    let values : Assignment Float := fun _ => some (.dense ⟨2, 3, #[1, 2, -0.0, 4, 5, 6], rfl⟩)
    (wide.Fits ∧ ∃ result, wide.evaluate values = .ok result ∧ result.shape = .vector 2 ∧
        List.Forall₂ AffineForm.Agrees result.flat [1, 4]) ∧
      ¬ row.Fits ∧
        ∃ required found, row.evaluate values = .error (.shapeMismatch required found) := by
  intro wide row values
  have kept : ¬ magnitude (1 : Float) ≤ (⟨0, 0.5⟩ : Tolerances Float).pruning := by decide
  have wideAssigned : wide.Assigned values := fun leaf member => by
    cases List.mem_singleton.mp member
    exact ⟨_, rfl, trivial, rfl⟩
  have rowAssigned : row.Assigned values := nofun
  have fits : wide.Fits := ⟨trivial, rfl, by decide⟩
  have unfit : ¬ row.Fits := fun found => absurd found.2.2 (by decide)
  obtain ⟨result, evaluated, shape, agrees, _⟩ :=
    (form_agrees_iff_fits wideAssigned kept rfl rfl rfl).1 fits
  exact ⟨⟨fits, result, evaluated, shape, agrees⟩, unfit,
    (form_agrees_iff_fits rowAssigned kept rfl rfl rfl).2 unfit⟩

end Expr

end AffineArrays
