/-
**Constructed expressions.**

An expression is constructed from leaves by steps that were not refused. Which steps may be used is
a parameter: all of them, or only those that look at the shape of their argument before they choose
a diagonal.

* `constructed_iff_built`: all steps together construct exactly the built expressions;
* `leaves_of_step`: a step neither adds nor loses a leaf.
-/

import AffineArrays.Expr.Step

namespace AffineArrays

namespace Expr

variable {α : Type}

/-! ## Part 1: constructions -/

/-- The expressions that the allowed steps can construct. -/
inductive Constructed (allowed : Step → Prop) : Expr α → Prop where
  | var (leaf : Variable) : Constructed allowed (.var leaf)
  | const (value : Value α) : Constructed allowed (.const value)
  | step {argument result : Expr α} {step : Step} (constructed : Constructed allowed argument)
      (permitted : allowed step) (stepped : argument.step step = .ok result) :
      Constructed allowed result

theorem Constructed.built {allowed : Step → Prop} {expression : Expr α}
    (constructed : expression.Constructed allowed) : expression.Built := by
  induction constructed with
  | var leaf => exact trivial
  | const value => exact trivial
  | step _ _ stepped built => exact built_of_step built stepped

/-- All steps together construct exactly the built expressions. -/
theorem constructed_iff_built {expression : Expr α} :
    expression.Constructed (fun _ => True) ↔ expression.Built := by
  refine ⟨Constructed.built, fun built => ?_⟩
  induction expression with
  | var leaf => exact .var leaf
  | const value => exact .const value
  | node transform argument step =>
    obtain ⟨inner, checked⟩ := built
    have stepped : argument.step (.transform transform) = .ok (node transform argument) :=
      apply_eq_ok_iff.mpr ⟨checked, rfl⟩
    exact .step (step inner) trivial stepped

/-! ## Part 2: leaves and parts -/

/-- The variables in an expression. -/
def variableLeaves : Expr α → List Variable
  | var leaf => [leaf]
  | const _ => []
  | node _ argument => argument.variableLeaves

/-- The constants in an expression. -/
def constantLeaves : Expr α → List (Value α)
  | var _ => []
  | const value => [value]
  | node _ argument => argument.constantLeaves

/-- The expression and everything it is made of, from the outside in. -/
def parts : Expr α → List (Expr α)
  | var leaf => [var leaf]
  | const value => [const value]
  | node transform argument => node transform argument :: argument.parts

@[simp] theorem variableLeaves_flatten (argument : Expr α) :
    argument.flatten.variableLeaves = argument.variableLeaves := by
  unfold flatten
  split <;> rfl

@[simp] theorem constantLeaves_flatten (argument : Expr α) :
    argument.flatten.constantLeaves = argument.constantLeaves := by
  unfold flatten
  split <;> rfl

theorem leaves_of_apply {transform : Transform} {argument result : Expr α}
    (applied : apply transform argument = .ok result) :
    result.variableLeaves = argument.variableLeaves ∧
      result.constantLeaves = argument.constantLeaves := by
  obtain ⟨_, rfl⟩ := apply_eq_ok_iff.mp applied
  exact ⟨rfl, rfl⟩

/-- A step neither adds nor loses a leaf. -/
theorem leaves_of_step {argument result : Expr α} {step : Step}
    (stepped : argument.step step = .ok result) :
    result.variableLeaves = argument.variableLeaves ∧
      result.constantLeaves = argument.constantLeaves := by
  cases step with
  | transform transform => exact leaves_of_apply stepped
  | flatten =>
    cases stepped
    exact ⟨variableLeaves_flatten argument, constantLeaves_flatten argument⟩
  | diag =>
    rw [Expr.step, diag] at stepped
    split at stepped
    · obtain ⟨sameVariables, sameConstants⟩ := leaves_of_apply stepped
      exact ⟨sameVariables.trans (variableLeaves_flatten argument),
        sameConstants.trans (constantLeaves_flatten argument)⟩
    · split at stepped
      · exact leaves_of_apply stepped
      · cases stepped

end Expr

end AffineArrays
