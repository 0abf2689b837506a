/-
**Curvatures.**

How an expression depends on its variables. An affine operation keeps constants constant and
affine arguments affine; any other curvature is lost, because a linear map may mix convex and
concave entries.
-/

namespace AffineArrays

/-- How an expression depends on its variables. -/
inductive Curvature where
  | constant
  | affine
  | convex
  | concave
  | unknown
  deriving DecidableEq

namespace Curvature

/-- Constant, affine or convex. -/
def isConvex : Curvature → Bool
  | constant | affine | convex => true
  | _ => false

/-- Constant, affine or concave. -/
def isConcave : Curvature → Bool
  | constant | affine | concave => true
  | _ => false

/-- Constant or affine. -/
def isAffine : Curvature → Bool
  | constant | affine => true
  | _ => false

/-- Constant. -/
def isConstant : Curvature → Bool
  | constant => true
  | _ => false

/-- The curvature of an affine operation on one argument. -/
def throughAffine : Curvature → Curvature
  | constant => constant
  | affine => affine
  | _ => unknown

/-- The curvature of two arguments together. -/
def join : Curvature → Curvature → Curvature
  | constant, other => other
  | other, constant => other
  | affine, affine => affine
  | _, _ => unknown

/-- The curvature of an affine operation on a list of arguments. -/
def ofArguments (arguments : List Curvature) : Curvature :=
  (arguments.map throughAffine).foldl join constant

@[simp] theorem ofArguments_singleton (argument : Curvature) :
    ofArguments [argument] = argument.throughAffine := by
  cases argument <;> rfl

end Curvature

end AffineArrays
