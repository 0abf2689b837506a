/-
**Affine forms in machine words.**

A form is read off a tree with sizes, strides and places as a program computes them. The two
diagonals compute a stride and a place for every row they are asked for: a stride that wraps to zero
puts all rows of a vector at one place, and leaves no remainder for the rows of a matrix. Which rows
are asked for is read off the form beforehand, so that a fault at any of them stops the whole.

* `diagVecRowIn_of_lt`, `diagMatRowIn_of_lt`: in range, the exact maps;
* `reshapeIn_of_fits`, `reshapeIn_checked_of_not_fits`: a reshape, in range and out of it;
* `evaluateIn_of_fits`, `evaluate_of_evaluateIn`: the value of a form.
-/

import AffineArrays.AffineForm
import AffineArrays.Word.Arrays

namespace AffineArrays

/-! ## Part 1: row maps -/

/-- The place of entry `row` of a vector on the diagonal of a matrix with `size` rows. -/
def diagVecRowIn (build : Build) (size row : Nat) : Except Error (Option Nat) :=
  if row < size then do
    let stride ← build.word (size + 1)
    let place ← build.word (row * stride)
    .ok (some place)
  else .ok none

/-- The entry of a vector of length `size` for entry `row` of a matrix with `rows` rows. -/
def diagMatRowIn (build : Build) (rows size row : Nat) : Except Error (Option Nat) := do
  let stride ← build.word (rows + 1)
  if stride = 0 then .error .zeroDivisor
  else .ok (if row % stride = 0 ∧ row / stride < size then some (row / stride) else none)

theorem diagVecRowIn_of_lt (build : Build) {size row : Nat}
    (fits : row < size → size + 1 < wordLimit ∧ row * (size + 1) < wordLimit) :
    diagVecRowIn build size row = .ok (diagVecRow size row) := by
  unfold diagVecRowIn diagVecRow
  split
  · rename_i inside
    rw [build.word_of_lt (fits inside).1]
    show (build.word (row * (size + 1))).bind _ = _
    rw [build.word_of_lt (fits inside).2]
    rfl
  · rfl

/-- A checked build stops at a stride or a place that does not fit. -/
theorem diagVecRowIn_checked_of_not_lt {size row : Nat} (inside : row < size)
    (large : ¬ (size + 1 < wordLimit ∧ row * (size + 1) < wordLimit)) :
    diagVecRowIn .checked size row = .error .overflow := by
  rw [diagVecRowIn, if_pos inside]
  by_cases stride : size + 1 < wordLimit
  · rw [Build.word_of_lt _ stride]
    show (Build.word .checked (row * (size + 1))).bind _ = _
    rw [Build.word_checked_of_le (Nat.le_of_not_lt fun place => large ⟨stride, place⟩)]
    rfl
  · rw [Build.word_checked_of_le (Nat.le_of_not_lt stride)]
    rfl

theorem diagVecRowIn_checked_failure {size row : Nat} {failure : Error}
    (failed : diagVecRowIn .checked size row = .error failure) : failure = .overflow := by
  by_cases inside : row < size
  · by_cases fits : size + 1 < wordLimit ∧ row * (size + 1) < wordLimit
    · rw [diagVecRowIn_of_lt .checked fun _ => fits] at failed
      cases failed
    · cases (diagVecRowIn_checked_of_not_lt inside fits).symm.trans failed
      rfl
  · rw [diagVecRowIn, if_neg inside] at failed
    cases failed

theorem diagMatRowIn_of_lt (build : Build) {rows : Nat} (fits : rows + 1 < wordLimit)
    (size row : Nat) : diagMatRowIn build rows size row = .ok (diagMatRow rows size row) := by
  rw [diagMatRowIn, build.word_of_lt fits]
  rfl

theorem diagMatRowIn_checked_of_le {rows : Nat} (large : wordLimit ≤ rows + 1) (size row : Nat) :
    diagMatRowIn .checked rows size row = .error .overflow := by
  rw [diagMatRowIn, Build.word_checked_of_le large]
  rfl

namespace AffineForm

variable {α : Type}

/-! ## Part 2: forms of trees -/

/-- The form of one variable. -/
def varIn [Zero α] [One α] (build : Build) (id : Nat) (shape : Shape) :
    Except Error (AffineForm α) := do
  let size ← shape.sizeIn build
  .ok ⟨IndexMap.empty.insert id (.identity size), List.replicate size 0, shape⟩

/-- The form of a constant array. -/
def ofValueIn [Zero α] [Add α] (value : Value α) : Except Error (AffineForm α) := do
  let entries ← value.writtenOut
  .ok (ofEntries entries value.shape)

/-- The rows for which a map is asked when the rows of a form are moved: those of the coefficients
above the pruning tolerance, and those of the constant. -/
def askedRows [Magnitude α] [LE α] [DecidableLE α] (form : AffineForm α) (pruning : α) : List Nat :=
  (form.coefficients.values.flatMap fun matrix =>
    (matrix.triplets.filter fun triplet => ¬ magnitude triplet.value ≤ pruning).map Triplet.row) ++
    List.range form.constant.length

/-- Move the rows of a form by a map that may stop at a fault. -/
def scatterIn [Zero α] [Add α] [Magnitude α] [LE α] [DecidableLE α] (build : Build)
    (form : AffineForm α) (shape : Shape) (pruning : α)
    (target : Nat → Except Error (Option Nat)) : Except Error (AffineForm α) := do
  let size ← shape.sizeIn build
  (form.askedRows pruning).forM fun row => discard (target row)
  let place := fun row => (target row).toOption.join
  .ok
    { coefficients := form.coefficients.mapValues fun matrix =>
        matrix.scatterRows size pruning place
      constant := moveEntries size place form.constant
      shape := shape }

/-- The same form under another shape, which must have the same computed size. -/
def reshapeIn (build : Build) (form : AffineForm α) (shape : Shape) :
    Except Error (AffineForm α) := do
  let own ← form.shape.sizeIn build
  let asked ← shape.sizeIn build
  if own = asked then .ok { form with shape }
  else .error (.shapeMismatch (.elements asked) (.shape form.shape))

/-- The form of a tree of primitive operations, as a program reads it off. -/
def ofTreeIn [Zero α] [One α] [Add α] [Magnitude α] [LE α] [DecidableLE α] (build : Build)
    (tolerances : Tolerances α) : LinearTree α → Except Error (AffineForm α)
  | ⟨.var id, shape, _⟩ => varIn build id shape
  | ⟨.scalarConstant entry, shape, _⟩ => .ok (ofEntries [entry] shape)
  | ⟨.denseConstant entries, shape, _⟩ => .ok (ofEntries entries shape)
  | ⟨.sparseConstant matrix, shape, _⟩ => do
    allot matrix.rows matrix.cols
    .ok (ofEntries matrix.flat.toList shape)
  | ⟨.reshape, shape, [input]⟩ => do
    let form ← ofTreeIn build tolerances input
    form.reshapeIn build shape
  | ⟨.diagVec, shape, [input]⟩ => do
    let form ← ofTreeIn build tolerances input
    form.scatterIn build shape tolerances.pruning (diagVecRowIn build shape.rows)
  | ⟨.diagMat, shape, [input]⟩ => do
    let form ← ofTreeIn build tolerances input
    let size ← shape.sizeIn build
    form.scatterIn build shape tolerances.pruning (diagMatRowIn build form.shape.rows size)
  | ⟨operation, _, arguments⟩ => .error (.argumentCount operation.tag 1 arguments.length)

/-- A form whose rows were moved, by places that were all answered. -/
theorem eq_of_scatterIn [Zero α] [Add α] [Magnitude α] [LE α] [DecidableLE α] {build : Build}
    {form moved : AffineForm α} {shape : Shape} {pruning : α}
    {target : Nat → Except Error (Option Nat)}
    (scattered : form.scatterIn build shape pruning target = .ok moved) :
    ∃ size place, moved = ⟨form.coefficients.mapValues fun matrix =>
      matrix.scatterRows size pruning place, moveEntries size place form.constant, shape⟩ := by
  obtain ⟨size, _, rest⟩ := bind_eq_ok_iff.mp scattered
  obtain ⟨_, _, same⟩ := bind_eq_ok_iff.mp rest
  cases same
  exact ⟨size, _, rfl⟩

theorem eq_of_reshapeIn {build : Build} {form reshaped : AffineForm α} {shape : Shape}
    (moved : form.reshapeIn build shape = .ok reshaped) : reshaped = { form with shape } := by
  obtain ⟨_, _, rest⟩ := bind_eq_ok_iff.mp moved
  obtain ⟨_, _, rest⟩ := bind_eq_ok_iff.mp rest
  split at rest
  · cases rest
    rfl
  · cases rest

/-- In range a reshape of a form is exact. -/
theorem reshapeIn_of_fits (build : Build) {form : AffineForm α} {shape : Shape}
    (own : form.shape.Fits) (asked : shape.Fits) :
    form.reshapeIn build shape = form.reshape shape := by
  rw [reshapeIn, Shape.sizeIn_of_fits build own, Shape.sizeIn_of_fits build asked]
  rfl

/-- A checked build stops at a size out of range. -/
theorem reshapeIn_checked_of_not_fits {form : AffineForm α} {shape : Shape}
    (large : ¬ (form.shape.Fits ∧ shape.Fits)) :
    form.reshapeIn .checked shape = .error .overflow :=
  Shape.compare_checked_of_not_fits large _

/-! ## Part 3: evaluation -/

section Evaluation

variable [Zero α] [Add α] [Mul α]

/-- Add the coefficients of one variable times its value to a list of sums. -/
def addTermIn (values : Assignment α) (sums : Array α) (term : Nat × SparseMatrix α) :
    Except Error (Array α) :=
  match values term.1 with
  | none => .error (.missingValue term.1)
  | some value => do
    let input ← value.writtenOut
    if input.length = term.2.cols then addProduct term.2 input.toArray sums
    else .error (.shapeMismatch (.elementsOfVariable term.2.cols term.1) (.count input.length))

/-- The value of a form, with counts as a program computes them. -/
def evaluateIn (build : Build) (form : AffineForm α) (values : Assignment α) :
    Except Error (Value α) := do
  let sums ← form.coefficients.entries.foldlM (addTermIn values) form.constant.toArray
  Value.ofFlatIn build form.shape sums.toList

theorem evaluate_eq (form : AffineForm α) (values : Assignment α) :
    form.evaluate values =
      (form.coefficients.entries.foldlM (addTerm values) form.constant.toArray).bind fun sums =>
        Value.ofFlat form.shape sums.toList := rfl

end Evaluation

end AffineForm

end AffineArrays
