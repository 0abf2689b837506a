/-
**Sequences of construction steps.**

A step builds one expression on top of another. A sequence is applied in order up to the first
step that is refused, and the last expression that could be built is kept.
-/

import AffineArrays.Expr.Basic

namespace AffineArrays

/-- One way to build an expression on another. -/
inductive Step where
  | transform (transform : Transform)
  | diag
  | flatten
  deriving DecidableEq

/-- What came of a sequence of steps. -/
structure Chain (α : Type) where
  shapes : List Shape
  failure : Option Error
  last : Expr α

namespace Expr

variable {α : Type}

/-- Build one step on an expression. -/
def step (argument : Expr α) : Step → Except Error (Expr α)
  | .transform transform => apply transform argument
  | .diag => argument.diag
  | .flatten => .ok argument.flatten

/-- Build a sequence of steps, up to the first that is refused. -/
def chain (argument : Expr α) : List Step → Chain α
  | [] => ⟨[], none, argument⟩
  | first :: rest =>
    match argument.step first with
    | .error failure => ⟨[], some failure, argument⟩
    | .ok next =>
      let tail := next.chain rest
      { tail with shapes := next.shape :: tail.shapes }

/-- What a step builds on a built expression is built. -/
theorem built_of_step {argument result : Expr α} {step : Step} (built : argument.Built)
    (stepped : argument.step step = .ok result) : result.Built := by
  cases step with
  | transform transform => exact built_of_apply built stepped
  | diag => exact built_of_diag built stepped
  | flatten =>
    cases stepped
    exact built_flatten built

end Expr

end AffineArrays
