/-
**Curvature, sign and symmetry of expressions.**

The analyses read declarations of variables and entries of constants; nothing is evaluated. A
transform is affine and only moves entries or fills in zeros, so it keeps the curvature and the
sign of its argument. Symmetry is decided by the shape of a transform and its kind.

* `curvature_of_ids`: an expression is constant or affine, and constant exactly without variables;
* `isHermitian_node`: a transform is Hermitian exactly when it is symmetric.
-/

import AffineArrays.Curvature
import AffineArrays.Expr.Evaluation

namespace AffineArrays

namespace Expr

variable {α : Type}

/-- How the expression depends on its variables. -/
def curvature : Expr α → Curvature
  | var _ => .affine
  | const _ => .constant
  | node _ argument => .ofArguments [argument.curvature]

/-- What is known of the sign of the entries. -/
def sign [Zero α] [LE α] [DecidableLE α] : Expr α → Sign
  | var leaf => leaf.sign
  | const value => .ofBounds value.isNonneg value.isNonpos
  | node _ argument => argument.sign

/-- The expression is symmetric: a variable by declaration or by its single entry, a constant by
its entries up to the tolerance, a transform by its shape and kind. -/
def isSymmetricWithin [Zero α] [Add α] [Sub α] [Magnitude α] [LE α] [DecidableLE α]
    (tolerances : Tolerances α) : Expr α → Bool
  | var leaf => leaf.symmetric || leaf.shape.isUnit
  | const value => value.isSymmetric tolerances.symmetry
  | node transform argument => transform.isSymmetric (transform.declaredShape argument.shape)

/-- The expression is symmetric within the standard tolerances. -/
def isSymmetric [Zero α] [Add α] [Sub α] [Magnitude α] [LE α] [DecidableLE α] [OfScientific α]
    (expression : Expr α) : Bool :=
  expression.isSymmetricWithin .standard

/-- The expression is Hermitian: for leaves this is symmetry, and a transform declares it. -/
def isHermitian [Zero α] [Add α] [Sub α] [Magnitude α] [LE α] [DecidableLE α] [OfScientific α]
    (expression : Expr α) : Bool :=
  match expression.atom? with
  | none => expression.isSymmetric
  | some atom => atom.operation.isHermitian

theorem curvature_of_ids (expression : Expr α) :
    expression.curvature = if expression.ids = [] then .constant else .affine := by
  induction expression with
  | var leaf => rfl
  | const value => rfl
  | node transform argument step =>
    rw [curvature, Curvature.ofArguments_singleton, step, ids]
    split <;> rfl

theorem curvature_eq_constant_iff {expression : Expr α} :
    expression.curvature = .constant ↔ expression.ids = [] := by
  rw [curvature_of_ids]
  split <;> simp [*]

theorem curvature_eq_affine_iff {expression : Expr α} :
    expression.curvature = .affine ↔ expression.ids ≠ [] := by
  rw [curvature_of_ids]
  split <;> simp [*]

theorem isHermitian_node [Zero α] [Add α] [Sub α] [Magnitude α] [LE α] [DecidableLE α]
    [OfScientific α] (transform : Transform) (argument : Expr α) :
    (node transform argument).isHermitian = (node transform argument).isSymmetric :=
  transform.isHermitian_eq_isSymmetric _

end Expr

end AffineArrays
