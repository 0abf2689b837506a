/-
**Dispatched constructions always evaluate.**

The functions that build expressions look at shapes only. If the diagonal is always chosen by the
shape of its argument, those looks are enough: with well-stored constants and arguments no node
can fail. The two diagonals on their own give no such promise.

* `Value.WellStored`: what is kept of every intermediate value;
* `Value.ofFlat_of_apply`: a computed array is stored in the way of its shape's rank;
* `evaluate_reshape`, `evaluate_diagVec`, `evaluate_diagMat`: what the three nodes compute;
* `evaluates_step`: a step that dispatches keeps the promise;
* `evaluate_total`: so every such construction evaluates, with the declared shape at every part.
-/

import AffineArrays.Expr.Evaluation
import AffineArrays.Proofs.Construction
import AffineArrays.Proofs.MovedEntries

set_option linter.unusedSectionVars false

namespace AffineArrays

variable {α : Type}

/-! ## Part 1: well-stored values -/

/-- The ways to store an array. -/
inductive Storage where
  | scalar
  | vector
  | dense
  | sparse
  | tensor
  deriving DecidableEq

/-- The storage of computed arrays of this shape, by rank. None is sparse. -/
def Shape.storage (shape : Shape) : Storage :=
  match shape.dims with
  | [] => .scalar
  | [_] => .vector
  | [_, _] => .dense
  | _ => .tensor

theorem Shape.storage_eq_tensor_iff {shape : Shape} : shape.storage = .tensor ↔ 3 ≤ shape.rank := by
  obtain ⟨dims⟩ := shape
  rcases dims with _ | ⟨rows, _ | ⟨cols, _ | ⟨depth, rest⟩⟩⟩ <;> simp [storage, rank]

namespace Value

/-- How the array is stored. -/
def storage : Value α → Storage
  | scalar _ => .scalar
  | vector _ => .vector
  | dense _ => .dense
  | sparse _ => .sparse
  | tensor _ _ => .tensor

variable [Zero α] [Add α] {value : Value α}

/-- The array is stored in the way of its shape's rank, or sparse: entries under a shape are only
used from three dimensions on, and are as many as the shape says. -/
def WellStored : Value α → Prop
  | tensor shape entries => 3 ≤ shape.rank ∧ entries.length = shape.size
  | _ => True

theorem WellStored.full (stored : value.WellStored) : value.Full := by
  cases value with
  | tensor shape entries => exact stored.2
  | _ =>
    refine Eq.symm (size_shape ?_)
    rintro _ _ ⟨⟩

theorem wellStored_of_storage (byRank : value.storage = value.shape.storage)
    (full : value.Full) : value.WellStored := by
  cases value with
  | tensor shape entries => exact ⟨Shape.storage_eq_tensor_iff.mp byRank.symm, full⟩
  | _ => exact trivial

/-- Flat entries are stored in the way of their shape's rank. -/
theorem storage_of_ofFlat {shape : Shape} {entries : List α}
    (stored : ofFlat shape entries = .ok value) : value.storage = value.shape.storage := by
  have full := (ofFlat_spec stored).1
  rw [ofFlat, if_pos full] at stored
  obtain ⟨dims⟩ := shape
  rcases dims with _ | ⟨rows, _ | ⟨cols, _ | ⟨depth, rest⟩⟩⟩
  · obtain ⟨entry, rfl⟩ := List.length_eq_one_iff.mp full
    cases stored
    rfl
  · cases stored
    rfl
  · change (DenseMatrix.ofFlat rows cols entries).map dense = .ok value at stored
    cases filled : DenseMatrix.ofFlat rows cols entries <;> rw [filled] at stored <;> cases stored
    rfl
  · cases stored
    rfl

theorem wellStored_of_ofFlat {shape : Shape} {entries : List α}
    (stored : ofFlat shape entries = .ok value) : value.WellStored := by
  obtain ⟨count, sameShape, sameEntries⟩ := ofFlat_spec stored
  have full : value.Full := by rw [Full, ← length_flat, sameEntries, sameShape, count]
  exact wellStored_of_storage (storage_of_ofFlat stored) full

theorem ofFlat_dense (matrix : DenseMatrix α) :
    ofFlat (.matrix matrix.rows matrix.cols) matrix.data.toList = .ok (dense matrix) := by
  have count : matrix.data.toList.length = matrix.rows * matrix.cols := matrix.size_data
  rw [ofFlat, if_pos (count.trans (Shape.size_matrix _ _).symm)]
  show (DenseMatrix.ofFlat matrix.rows matrix.cols matrix.data.toList).map dense = _
  rw [DenseMatrix.ofFlat, dif_pos count]
  rfl

/-- A computed array is what its flat entries would be stored as. -/
theorem ofFlat_of_apply {transform : Transform} {result : Value α}
    (applied : transform.apply value = .ok result) :
    ofFlat result.shape result.flat = .ok result := by
  cases transform with
  | reshape target =>
    have stored := Transform.apply_reshape.mp applied
    obtain ⟨_, shape, entries⟩ := ofFlat_spec stored
    rwa [shape, entries]
  | diagVec =>
    obtain ⟨_, rfl⟩ := Transform.apply_diagVec.mp applied
    exact ofFlat_dense _
  | diagMat =>
    obtain ⟨_, _, rfl⟩ := Transform.apply_diagMat.mp applied
    exact if_pos (Shape.size_vector _).symm

theorem wellStored_of_apply {transform : Transform} {result : Value α}
    (applied : transform.apply value = .ok result) : result.WellStored :=
  wellStored_of_ofFlat (ofFlat_of_apply applied)

theorem WellStored.exists_toDense (stored : value.WellStored) (low : value.shape.rank ≤ 2) :
    ∃ matrix, value.toDense = .ok matrix := by
  cases value with
  | tensor shape entries => exact absurd low (Nat.not_le_of_lt stored.1)
  | _ => exact ⟨_, rfl⟩

end Value

/-! ## Part 2: one step -/

/-- The steps that look at the shape of their argument before they choose a diagonal. -/
def Step.Dispatching : Step → Prop
  | .transform (.reshape _) => True
  | .diag => True
  | .flatten => True
  | .transform _ => False

namespace Expr

variable [Zero α] [Add α] {values : Assignment α} {argument result : Expr α} {value : Value α}

/-- The expression has a well-stored value. -/
def Evaluates (values : Assignment α) (expression : Expr α) : Prop :=
  ∃ value, expression.evaluate values = .ok value ∧ value.WellStored

/-- A reshape lists the same entries, well stored, under the shape it declares. -/
theorem evaluate_reshape {target : Shape} (evaluated : argument.evaluate values = .ok value)
    (count : value.flat.length = target.size) :
    ∃ moved, (node (.reshape target) argument).evaluate values = .ok moved ∧
      moved.WellStored ∧ moved.shape = target ∧ moved.flat = value.flat := by
  obtain ⟨moved, stored, shape, flat⟩ := Value.ofFlat_eq_ok count
  have applied := Transform.apply_reshape.mpr stored
  exact ⟨moved, evaluate_node_eq_ok_iff.mpr ⟨value, evaluated, applied, shape⟩,
    Value.wellStored_of_ofFlat stored, shape, flat⟩

/-- A vector that is as long as its first dimension is put on the diagonal of a matrix. -/
theorem evaluate_diagVec (evaluated : argument.evaluate values = .ok value)
    (line : argument.shape.isVector = true) (length : value.size = argument.shape.rows) :
    (node .diagVec argument).evaluate values = .ok (.dense (.ofDiagonal value.flat)) := by
  rw [← shape_of_evaluate evaluated] at line
  have applied : Transform.diagVec.apply value = .ok (.dense (.ofDiagonal value.flat)) :=
    Transform.apply_diagVec.mpr ⟨line, rfl⟩
  refine evaluate_node_eq_ok_iff.mpr ⟨value, evaluated, applied, ?_⟩
  exact congrArg (fun side => Shape.matrix side side) (value.length_flat.trans length)

/-- The main diagonal of a matrix that is no taller than wide is read down to the last row. -/
theorem evaluate_diagMat (evaluated : argument.evaluate values = .ok value)
    (stored : value.WellStored) (planar : argument.shape.rank = 2)
    (reaches : argument.shape.rows ≤ argument.shape.cols) :
    (node .diagMat argument).evaluate values =
      .ok (.vector (readDiagonal argument.shape.rows argument.shape.rows value.flat)) := by
  have shape := shape_of_evaluate evaluated
  obtain ⟨matrix, read⟩ := stored.exists_toDense (shape ▸ Nat.le_of_eq planar)
  obtain ⟨rows, cols, _⟩ := Value.toDense_spec read
  have applied := Transform.apply_diagMat.mpr ⟨matrix, read, rfl⟩
  rw [rows, cols, shape, Nat.min_eq_left reaches] at applied
  refine evaluate_node_eq_ok_iff.mpr ⟨value, evaluated, applied, ?_⟩
  exact congrArg Shape.vector (length_readDiagonal _ _ _)

theorem evaluates_reshape {target : Shape} (evaluates : argument.Evaluates values)
    (same : argument.shape.size = target.size) :
    (node (.reshape target) argument).Evaluates values := by
  obtain ⟨value, evaluated, stored⟩ := evaluates
  have count : value.flat.length = target.size := by
    rw [value.length_flat, stored.full, shape_of_evaluate evaluated, same]
  obtain ⟨moved, found, storedMoved, _⟩ := evaluate_reshape evaluated count
  exact ⟨moved, found, storedMoved⟩

theorem evaluates_flatten (evaluates : argument.Evaluates values) :
    argument.flatten.Evaluates values := by
  unfold flatten
  split
  · exact evaluates
  · exact evaluates_reshape evaluates (Shape.size_flattened _).symm

theorem evaluates_diagVec {length : Nat} (evaluates : argument.Evaluates values)
    (line : argument.shape = .vector length) : (node .diagVec argument).Evaluates values := by
  obtain ⟨value, evaluated, stored⟩ := evaluates
  have size : value.size = argument.shape.rows := by
    rw [stored.full, shape_of_evaluate evaluated, line, Shape.size_vector, Shape.rows_vector]
  exact ⟨_, evaluate_diagVec evaluated (by rw [line]; rfl) size, trivial⟩

theorem evaluates_diagMat (evaluates : argument.Evaluates values)
    (square : argument.shape.isSquare = true) : (node .diagMat argument).Evaluates values := by
  obtain ⟨value, evaluated, stored⟩ := evaluates
  have reaches := Nat.le_of_eq (Shape.rows_eq_cols_of_isSquare square)
  exact ⟨_, evaluate_diagMat evaluated stored (Shape.rank_of_isSquare square) reaches, trivial⟩

/-- A step that dispatches builds an expression with a value on one with a value. -/
theorem evaluates_step {step : Step} (evaluates : argument.Evaluates values)
    (dispatching : step.Dispatching) (stepped : argument.step step = .ok result) :
    result.Evaluates values := by
  cases step with
  | transform transform =>
    obtain ⟨checked, rfl⟩ := apply_eq_ok_iff.mp stepped
    cases transform with
    | reshape target => exact evaluates_reshape evaluates (Transform.check_reshape.mp checked)
    | diagVec => exact dispatching.elim
    | diagMat => exact dispatching.elim
  | flatten =>
    cases stepped
    exact evaluates_flatten evaluates
  | diag =>
    -- `diag` flattens before it spreads, so the argument of the spread has one dimension
    rw [Expr.step, diag] at stepped
    split at stepped
    · obtain ⟨_, rfl⟩ := apply_eq_ok_iff.mp stepped
      exact evaluates_diagVec (evaluates_flatten evaluates) (shape_flatten argument)
    · split at stepped
      · obtain ⟨_, rfl⟩ := apply_eq_ok_iff.mp stepped
        exact evaluates_diagMat evaluates ‹_›
      · cases stepped

/-! ## Part 3: whole constructions -/

theorem evaluates_constructed {expression : Expr α}
    (constructed : expression.Constructed Step.Dispatching)
    (constants : ∀ value ∈ expression.constantLeaves, value.WellStored)
    (assigned : ∀ leaf ∈ expression.variableLeaves,
      ∃ value, values leaf.id = some value ∧ value.WellStored ∧ value.shape = leaf.shape) :
    expression.Evaluates values := by
  induction constructed with
  | var leaf =>
    obtain ⟨value, given, stored, shape⟩ := assigned leaf (List.mem_singleton_self leaf)
    exact ⟨value, evaluate_var_eq_ok_iff.mpr ⟨given, shape⟩, stored⟩
  | const value => exact ⟨value, rfl, constants value (List.mem_singleton_self value)⟩
  | step _ dispatching stepped evaluates =>
    obtain ⟨sameVariables, sameConstants⟩ := leaves_of_step stepped
    rw [sameConstants] at constants
    rw [sameVariables] at assigned
    exact evaluates_step (evaluates constants assigned) dispatching stepped

/-- Every part of an expression with a value has a value. -/
theorem evaluate_parts {expression : Expr α} {value : Value α}
    (evaluated : expression.evaluate values = .ok value) :
    ∀ part ∈ expression.parts, ∃ result, part.evaluate values = .ok result := by
  induction expression generalizing value with
  | var leaf =>
    intro part member
    cases List.mem_singleton.mp member
    exact ⟨value, evaluated⟩
  | const held =>
    intro part member
    cases List.mem_singleton.mp member
    exact ⟨held, rfl⟩
  | node transform argument step =>
    intro part member
    obtain ⟨before, evaluatedBefore, _, _⟩ := evaluate_node_eq_ok_iff.mp evaluated
    rcases List.mem_cons.mp member with rfl | inner
    · exact ⟨value, evaluated⟩
    · exact step evaluatedBefore part inner

/-- **Dispatched constructions always evaluate**, at every part, in the declared shape and with as
many entries as it says. -/
theorem evaluate_total {expression : Expr α}
    (constructed : expression.Constructed Step.Dispatching)
    (constants : ∀ value ∈ expression.constantLeaves, value.WellStored)
    (assigned : ∀ leaf ∈ expression.variableLeaves,
      ∃ value, values leaf.id = some value ∧ value.WellStored ∧ value.shape = leaf.shape) :
    (∃ result, expression.evaluate values = .ok result ∧ result.shape = expression.shape ∧
        result.size = expression.shape.size) ∧
      ∀ part ∈ expression.parts,
        ∃ result, part.evaluate values = .ok result ∧ result.shape = part.shape := by
  obtain ⟨result, evaluated, stored⟩ := evaluates_constructed constructed constants assigned
  have shape := shape_of_evaluate evaluated
  refine ⟨⟨result, evaluated, shape, stored.full.trans (congrArg Shape.size shape)⟩, ?_⟩
  intro part member
  obtain ⟨value, evaluatedPart⟩ := evaluate_parts evaluated part member
  exact ⟨value, evaluatedPart, shape_of_evaluate evaluatedPart⟩

/-- The diagonal of a sparse row is taken twice: a row is flattened first, a square is read. -/
theorem evaluate_total_diagonal_of_row :
    let row : Expr Float := .var (.declare 5 (.matrix 1 3) none [])
    let spread := Expr.node .diagVec (.node (.reshape (.vector 3)) row)
    let values : Assignment Float := fun _ => some (.sparse (.zero 1 3))
    ∃ result, (Expr.node .diagMat spread).evaluate values = .ok result ∧
      result.shape = .vector 3 ∧ result.size = 3 := by
  intro row spread values
  have spreads : row.step .diag = .ok spread := rfl
  have reads : spread.step .diag = .ok (.node .diagMat spread) := rfl
  have dispatching : Step.diag.Dispatching := trivial
  have constructed : (Expr.node .diagMat spread).Constructed Step.Dispatching :=
    .step (.step (.var _) dispatching spreads) dispatching reads
  refine (evaluate_total constructed (fun _ member => nomatch member) fun leaf member => ?_).1
  cases List.mem_singleton.mp member
  exact ⟨_, rfl, trivial, rfl⟩

end Expr

end AffineArrays
