/-
**Affine forms.**

An affine form is `A₁ x₁ + … + Aₙ xₙ + b` under a shape: a sparse coefficient matrix for each
variable, and a constant, with arrays and variables laid out column by column. `ofTree` reads the
form off a tree of primitive operations. A reshape changes the shape only; the two diagonal
operations move rows of the coefficients and entries of the constant by one partial map each.

* `length_moveEntries`: moving entries gives a list of the requested length;
* `diagVecRow_eq`: a vector is spread along the diagonal.
-/

import AffineArrays.LinearTree
import AffineArrays.Variable

namespace AffineArrays

/-- A sum of coefficient matrices times variables, plus a constant, under a shape. -/
structure AffineForm (α : Type) where
  /-- The coefficients of each variable: a row per entry of the form, a column per entry of the
  variable. -/
  coefficients : IndexMap (SparseMatrix α)
  constant : List α
  shape : Shape

/-! ## Part 1: row maps -/

/-- Entry `row` of a vector goes to place `(row, row)` of a matrix with `size` rows. The strides of both
maps are exact here, and in words in `diagVecRowIn` and `diagMatRowIn`. -/
def diagVecRow (size row : Nat) : Option Nat :=
  if row < size then some (row * (size + 1)) else none

/-- The entry at place `(i, i)` of a matrix with `rows` rows goes to entry `i` of a vector of
length `size`; an entry off the diagonal goes nowhere. -/
def diagMatRow (rows size row : Nat) : Option Nat :=
  if row % (rows + 1) = 0 ∧ row / (rows + 1) < size then some (row / (rows + 1)) else none

/-- Move entry `row` to place `target row` of a list of `size` zeros. Entries without a target, or
with one outside, are dropped; of several entries for one place the last stands. -/
def moveEntries {α : Type} [Zero α] (size : Nat) (target : Nat → Option Nat)
    (entries : List α) : List α :=
  (entries.zipIdx.foldl (fun moved item =>
    match target item.2 with
    | some place => moved.setIfInBounds place item.1
    | none => moved) (Array.replicate size 0)).toList

theorem diagVecRow_eq {size row : Nat} (inside : row < size) :
    diagVecRow size row = some (position size row row) := by
  rw [diagVecRow, if_pos inside, position_diagonal]

@[simp] theorem length_moveEntries {α : Type} [Zero α] (size : Nat) (target : Nat → Option Nat)
    (entries : List α) : (moveEntries size target entries).length = size := by
  have kept : ∀ (items : List (α × Nat)) (moved : Array α), (items.foldl (fun moved item =>
      match target item.2 with
      | some place => moved.setIfInBounds place item.1
      | none => moved) moved).size = moved.size := by
    intro items
    induction items with
    | nil => intro moved; rfl
    | cons item rest step =>
      intro moved
      rw [List.foldl_cons, step]
      split
      · exact Array.size_setIfInBounds
      · rfl
  rw [moveEntries, Array.length_toList, kept, Array.size_replicate]

namespace AffineForm

variable {α : Type}

/-! ## Part 2: forms of trees -/

/-- The form of one variable: the identity matrix and a zero constant. -/
def var [Zero α] [One α] (id : Nat) (shape : Shape) : AffineForm α :=
  ⟨IndexMap.empty.insert id (.identity shape.size), List.replicate shape.size 0, shape⟩

/-- The form without variables. -/
def ofEntries (entries : List α) (shape : Shape) : AffineForm α := ⟨.empty, entries, shape⟩

/-- The form of a constant array. -/
def ofValue [Zero α] [Add α] (value : Value α) : AffineForm α := ofEntries value.flat value.shape

/-- The number of entries that the shape asks for. -/
def size (form : AffineForm α) : Nat := form.shape.size

/-- The form has no variables. -/
def isConstant (form : AffineForm α) : Bool := form.coefficients.entries.isEmpty

/-- The numbers of the variables, ascending. -/
def ids (form : AffineForm α) : List Nat := form.coefficients.keys

theorem ids_of_no_variable {form : AffineForm α} (free : form.coefficients = .empty) :
    form.ids = [] := by
  rw [ids, free]
  rfl

/-- Move row `row` of the form to row `target row` of a form of another shape. -/
def scatter [Zero α] [Add α] [Magnitude α] [LE α] [DecidableLE α] (form : AffineForm α)
    (shape : Shape) (pruning : α) (target : Nat → Option Nat) : AffineForm α where
  coefficients := form.coefficients.mapValues fun matrix =>
    matrix.scatterRows shape.size pruning target
  constant := moveEntries shape.size target form.constant
  shape := shape

/-- The same form under another shape, which must have the same size. -/
def reshape (form : AffineForm α) (shape : Shape) : Except Error (AffineForm α) :=
  if form.size = shape.size then .ok { form with shape }
  else .error (.shapeMismatch (.elements shape.size) (.shape form.shape))

/-- The form of a tree of primitive operations. Arguments of a leaf are not looked at, and any other
node must have exactly one. -/
def ofTree [Zero α] [One α] [Add α] [Magnitude α] [LE α] [DecidableLE α]
    (tolerances : Tolerances α) : LinearTree α → Except Error (AffineForm α)
  | ⟨.var id, shape, _⟩ => .ok (var id shape)
  | ⟨.scalarConstant entry, shape, _⟩ => .ok (ofEntries [entry] shape)
  | ⟨.denseConstant entries, shape, _⟩ => .ok (ofEntries entries shape)
  | ⟨.sparseConstant matrix, shape, _⟩ => .ok (ofEntries matrix.flat.toList shape)
  | ⟨.reshape, shape, [input]⟩ => do
    let form ← ofTree tolerances input
    form.reshape shape
  | ⟨.diagVec, shape, [input]⟩ => do
    let form ← ofTree tolerances input
    .ok (form.scatter shape tolerances.pruning (diagVecRow shape.rows))
  | ⟨.diagMat, shape, [input]⟩ => do
    let form ← ofTree tolerances input
    .ok (form.scatter shape tolerances.pruning (diagMatRow form.shape.rows shape.size))
  | ⟨operation, _, arguments⟩ => .error (.argumentCount operation.tag 1 arguments.length)

/-! ## Part 3: evaluation -/

/-- Add one coefficient matrix times a variable to a list of sums. A coefficient outside the sums
or the variable is a fault. -/
def addProduct [Add α] [Mul α] (matrix : SparseMatrix α) (input sums : Array α) :
    Except Error (Array α) :=
  matrix.triplets.foldlM (fun sums triplet =>
    match input[triplet.col]? with
    | none => .error (.outOfRange triplet.col input.size)
    | some entry =>
      if triplet.row < sums.size then .ok (sums.modify triplet.row (· + triplet.value * entry))
      else .error (.outOfRange triplet.row sums.size)) sums

/-- Look the variable of one coefficient matrix up, and add the product to a list of sums. -/
def addTerm [Zero α] [Add α] [Mul α] (values : Assignment α) (sums : Array α)
    (term : Nat × SparseMatrix α) : Except Error (Array α) :=
  match values term.1 with
  | none => .error (.missingValue term.1)
  | some value =>
    if value.size = term.2.cols then addProduct term.2 value.flat.toArray sums
    else .error (.shapeMismatch (.elementsOfVariable term.2.cols term.1) (.count value.size))

/-- The value of a form: the constant plus each coefficient matrix times its variable, in the order
of the variables' numbers and of the stored coefficients. -/
def evaluate [Zero α] [Add α] [Mul α] (form : AffineForm α) (values : Assignment α) :
    Except Error (Value α) := do
  let sums ← form.coefficients.entries.foldlM (fun sums (id, matrix) =>
    match values id with
    | none => .error (.missingValue id)
    | some value =>
      if value.size = matrix.cols then addProduct matrix value.flat.toArray sums
      else .error (.shapeMismatch (.elementsOfVariable matrix.cols id) (.count value.size)))
    form.constant.toArray
  Value.ofFlat form.shape sums.toList

end AffineForm

end AffineArrays
