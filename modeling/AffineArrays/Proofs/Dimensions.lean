/-
**Forms keep their dimensions.**

The form that is read off a tree has a row of coefficients and an entry of the constant for every
entry of its shape, and a column for every entry of its variable. A reshape changes the shape alone,
but not its size; the two diagonals build all three anew. So the sums of an evaluation never leave
their bounds, and what can go wrong is known beforehand. Only a constant leaf may break the rule, by
holding more or fewer entries than it declares.

* `Outcome`: the four outcomes of an evaluation;
* `SelectsVariable.outcome`, `Reads.outcome_of_constant`: which of them a leaf can cause;
* `ofTree_dimensions`: the dimensions of every form, and the outcome of every evaluation.
-/

import AffineArrays.Proofs.ZeroOne

set_option linter.unusedSectionVars false

namespace AffineArrays

namespace AffineForm

variable {α : Type} [Zero α] [One α] [Add α] [Mul α] [Magnitude α] [LE α] [DecidableLE α]
  {tolerances : Tolerances α} {tree : LinearTree α} {form : AffineForm α}

/-- **What the evaluation of a form can come to**, given the tree that the form was read off: an
array of the declared shape; a variable without a value, or with a value of another size than its
leaf declares; or, over no variable, a constant of another size than its leaf declares. -/
inductive Outcome (tree : LinearTree α) (form : AffineForm α) (values : Assignment α) :
    Except Error (Value α) → Prop where
  | value {result : Value α} (shape : result.shape = form.shape) :
      Outcome tree form values (.ok result)
  | missingValue {id : Nat} (listed : id ∈ form.ids) (missing : values id = none) :
      Outcome tree form values (.error (.missingValue id))
  | otherValue {id : Nat} {value : Value α} (listed : id ∈ form.ids)
      (given : values id = some value) (differs : value.size ≠ tree.bottom.shape.size) :
      Outcome tree form values
        (.error (.shapeMismatch (.elementsOfVariable tree.bottom.shape.size id) (.count value.size)))
  | otherConstant {entries : List α} (free : form.ids = [])
      (held : tree.bottom.operation.entries? = some entries)
      (differs : entries.length ≠ tree.bottom.shape.size) :
      Outcome tree form values
        (.error (.shapeMismatch (.elementsOfShape form.shape.size form.shape)
          (.count form.constant.length)))

/-- No outcome is a storage fault. -/
theorem Outcome.isFault {values : Assignment α} {failure : Error}
    (outcome : Outcome tree form values (.error failure)) : failure.isFault = false := by
  cases outcome with
  | _ => rfl

/-- Over a variable, all depends on its value. -/
theorem SelectsVariable.outcome {id : Nat} {source : Nat → Option Nat} {matrix : SparseMatrix α}
    (selecting : form.SelectsVariable id tree.bottom.shape.size source matrix)
    (values : Assignment α) : Outcome tree form values (form.evaluate values) := by
  have listed : id ∈ form.ids := by
    rw [selecting.ids_eq]
    exact List.mem_cons_self
  cases given : values id with
  | none =>
    rw [evaluate_of_missing selecting.coefficients given]
    exact .missingValue listed given
  | some value =>
    by_cases fits : value.size = tree.bottom.shape.size
    · obtain ⟨result, evaluated, shape, _⟩ := selecting.evaluate given fits
      rw [evaluated]
      exact .value shape
    · have differs : value.size ≠ matrix.cols := selecting.cols ▸ fits
      rw [evaluate_of_other_size selecting.coefficients given differs, selecting.cols]
      exact .otherValue listed given fits

/-- The constant of a form is full if its leaf was. -/
theorem Reads.length_constant {entries : List α} (reads : Reads tolerances tree form)
    (held : tree.bottom.operation.entries? = some entries)
    (full : entries.length = tree.bottom.shape.size) :
    form.constant.length = form.shape.size := by
  rw [(reads.constant_eq_gather held full).2, length_gather, reads.shape_eq]

/-- Over a constant, all depends on the number of its entries. -/
theorem Reads.outcome_of_constant {entries : List α} (reads : Reads tolerances tree form)
    (held : tree.bottom.operation.entries? = some entries) (values : Assignment α) :
    Outcome tree form values (form.evaluate values) := by
  have free := reads.coefficients_of_constant held
  rw [evaluate_of_no_variable free]
  by_cases full : form.constant.length = form.shape.size
  · obtain ⟨result, stored, shape, _⟩ := Value.ofFlat_eq_ok full
    rw [stored]
    exact .value shape
  · rw [Value.ofFlat_eq_error full]
    exact .otherConstant (ids_of_no_variable free) held fun filled =>
      full (reads.length_constant held filled)

theorem Reads.outcome (reads : Reads tolerances tree form) (values : Assignment α) :
    Outcome tree form values (form.evaluate values) := by
  rcases reads.bottom_leaf with ⟨id, leaf⟩ | ⟨entries, held⟩
  · obtain ⟨source, matrix, _, selecting⟩ := reads.exists_selectsVariable leaf
    exact selecting.outcome values
  · exact reads.outcome_of_constant held values

omit [Mul α] in
/-- A variable of a form is that of the leaf, and the dimensions of all three parts agree. -/
theorem Reads.dimensions (reads : Reads tolerances tree form) {id : Nat} {matrix : SparseMatrix α}
    (member : (id, matrix) ∈ form.coefficients.entries) :
    tree.bottom.operation = .var id ∧ matrix.rows = form.shape.size ∧
      matrix.cols = tree.bottom.shape.size ∧ form.constant.length = form.shape.size := by
  rcases reads.bottom_leaf with ⟨own, leaf⟩ | ⟨entries, held⟩
  · obtain ⟨source, only, _, selecting⟩ := reads.exists_selectsVariable leaf
    obtain ⟨rfl, rfl⟩ := selecting.eq_of_mem member
    refine ⟨leaf, selecting.rows, selecting.cols, ?_⟩
    rw [selecting.constant, List.length_replicate]
  · rw [reads.coefficients_of_constant held] at member
    cases member

end AffineForm

end AffineArrays
