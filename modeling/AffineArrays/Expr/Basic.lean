/-
**Expressions.**

An expression is a variable, a constant array, or a transform of another expression. Expressions
are built by functions that check shapes, and only shapes: a transform is refused when it can
declare no shape for its argument. `diag` picks one of the two diagonal transforms by the shape of
its argument.

* `built_of_apply`, `built_flatten`, `built_of_diag`: what the functions return is built;
* `shape_flatten`: a flattened expression is one-dimensional and keeps its size.
-/

import AffineArrays.Transform
import AffineArrays.Variable

namespace AffineArrays

/-- An array-valued expression. -/
inductive Expr (α : Type) where
  | var (leaf : Variable)
  | const (value : Value α)
  | node (transform : Transform) (argument : Expr α)

namespace Expr

variable {α : Type}

/-! ## Part 1: shape and leaves -/

/-- The shape of the values of an expression. -/
def shape : Expr α → Shape
  | var leaf => leaf.shape
  | const value => value.shape
  | node transform argument => transform.declaredShape argument.shape

/-- The number of a variable expression. -/
def leaf? : Expr α → Option Variable
  | var leaf => some leaf
  | _ => none

/-- The array of a constant expression. -/
def constant? : Expr α → Option (Value α)
  | const value => some value
  | _ => none

/-- The numbers of the variables in an expression, ascending and each once. A transform has one
argument, so there is at most one. -/
def ids : Expr α → List Nat
  | var leaf => [leaf.id]
  | const _ => []
  | node _ argument => argument.ids

/-- The constant with one number. -/
def ofScalar (entry : α) : Expr α := const (.scalar entry)

/-- The one-dimensional constant with the given entries. -/
def ofVector (entries : List α) : Expr α := const (.vector entries)

/-- The constant of a dense matrix. -/
def ofDense (matrix : DenseMatrix α) : Expr α := const (.dense matrix)

/-- The constant of a sparse matrix. -/
def ofSparse (matrix : SparseMatrix α) : Expr α := const (.sparse matrix)

/-- The constant matrix with the given entries, column by column. -/
def ofMatrix (entries : List α) (rows cols : Nat) : Except Error (Expr α) :=
  (DenseMatrix.ofFlat rows cols entries).map ofDense

/-- The constant identity matrix. -/
def identity [Zero α] [One α] (size : Nat) : Expr α := const (.dense (.identity size))

/-! ## Part 2: transforms -/

/-- Apply a transform, if it can declare a shape. -/
def apply (transform : Transform) (argument : Expr α) : Except Error (Expr α) := do
  transform.check argument.shape
  .ok (node transform argument)

/-- The same entries under a shape of the same size. -/
def reshape (argument : Expr α) (target : Shape) : Except Error (Expr α) :=
  apply (.reshape target) argument

/-- The matrix with the argument on its diagonal, whatever the shape of the argument. -/
def diagVec (argument : Expr α) : Except Error (Expr α) := apply .diagVec argument

/-- The main diagonal of the argument, whatever its shape. -/
def diagMat (argument : Expr α) : Except Error (Expr α) := apply .diagMat argument

/-- The entries as a one-dimensional array. A one-dimensional expression is returned itself. -/
def flatten (argument : Expr α) : Expr α :=
  if argument.shape.rank = 1 then argument
  else node (.reshape argument.shape.flattened) argument

/-- The diagonal matrix of a vector-shaped expression, or the main diagonal of a square one. Any
other shape is refused. -/
def diag (argument : Expr α) : Except Error (Expr α) :=
  if argument.shape.isVector then diagVec argument.flatten
  else if argument.shape.isSquare then diagMat argument
  else .error .diagArgument

/-! ## Part 3: built expressions -/

/-- Every transform in the expression passed its check. -/
def Built : Expr α → Prop
  | var _ => True
  | const _ => True
  | node transform argument => argument.Built ∧ transform.check argument.shape = .ok ()

theorem apply_eq_ok_iff {transform : Transform} {argument result : Expr α} :
    apply transform argument = .ok result ↔
      transform.check argument.shape = .ok () ∧ result = node transform argument := by
  unfold apply
  cases checked : transform.check argument.shape with
  | error failure =>
    constructor
    · intro equal
      cases equal
    · rintro ⟨equal, _⟩
      cases equal
  | ok passed =>
    constructor
    · intro equal
      cases equal
      exact ⟨rfl, rfl⟩
    · rintro ⟨_, rfl⟩
      rfl

theorem built_of_apply {transform : Transform} {argument result : Expr α}
    (built : argument.Built) (applied : apply transform argument = .ok result) :
    result.Built := by
  obtain ⟨checked, rfl⟩ := apply_eq_ok_iff.mp applied
  exact ⟨built, checked⟩

theorem shape_flatten (argument : Expr α) : argument.flatten.shape = argument.shape.flattened := by
  unfold flatten
  split
  · rename_i one
    exact (Shape.flattened_of_rank_one one).symm
  · rfl

theorem built_flatten {argument : Expr α} (built : argument.Built) : argument.flatten.Built := by
  unfold flatten
  split
  · exact built
  · exact ⟨built, if_pos (Shape.size_flattened _).symm⟩

theorem built_of_diag {argument result : Expr α} (built : argument.Built)
    (applied : argument.diag = .ok result) : result.Built := by
  unfold diag at applied
  split at applied
  · exact built_of_apply (built_flatten built) applied
  · split at applied
    · exact built_of_apply built applied
    · cases applied

end Expr

end AffineArrays
