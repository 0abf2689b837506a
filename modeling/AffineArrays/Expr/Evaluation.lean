/-
**Evaluation and lowering of expressions.**

A transform is evaluated and lowered by the contract of its operation, on its one argument.
Evaluation needs a value of the declared shape for each variable; lowering needs nothing.

* `evaluate_node`, `lower_node`: a transform acts on the result of its argument;
* `shape_of_evaluate`: the value of an expression has its shape;
* `value_atom`, `lowered_atom`: reading a transform as an operation with a list of arguments
  changes neither.
-/

import AffineArrays.Expr.Basic

namespace AffineArrays

namespace Expr

variable {α : Type}

/-! ## Part 1: the operation of a node -/

/-- The value of an expression under an assignment. -/
def evaluate [Zero α] [Add α] (values : Assignment α) : Expr α → Except Error (Value α)
  | var leaf =>
    match values leaf.id with
    | none => .error (.missingValue leaf.id)
    | some value =>
      if value.shape = leaf.shape then .ok value
      else .error (.shapeMismatch (.shape leaf.shape) (.shape value.shape))
  | const value => .ok value
  | node transform argument =>
    (transform.operation (transform.declaredShape argument.shape)).value
      [argument.evaluate values]

/-- The value of an expression without variables. -/
def value [Zero α] [Add α] (expression : Expr α) : Except Error (Value α) :=
  expression.evaluate .empty

/-- The lowered form of an expression. -/
def lower [Zero α] [Add α] : Expr α → Except Error (Lowered α)
  | var leaf => .ok (.unconstrained (.var leaf.shape leaf.id))
  | const value => .ok (.unconstrained (.constant value))
  | node transform argument =>
    (transform.operation (transform.declaredShape argument.shape)).lowered [argument.lower]

theorem evaluate_node [Zero α] [Add α] (values : Assignment α) (transform : Transform)
    (argument : Expr α) :
    (node transform argument).evaluate values = (argument.evaluate values).bind fun value =>
      (transform.apply value).bind fun result =>
        if result.shape = transform.declaredShape argument.shape then .ok result
        else .error
          (.shapeMismatch (.shape (transform.declaredShape argument.shape)) (.shape result.shape)) :=
  transform.value_operation _ _

theorem evaluate_var_eq_ok_iff [Zero α] [Add α] {values : Assignment α} {leaf : Variable}
    {result : Value α} :
    (var leaf).evaluate values = .ok result ↔
      values leaf.id = some result ∧ result.shape = leaf.shape := by
  unfold evaluate
  cases given : values leaf.id with
  | none => exact iff_of_false nofun nofun
  | some value =>
    by_cases fits : value.shape = leaf.shape
    · simp only [if_pos fits, Except.ok.injEq, Option.some.injEq]
      exact ⟨fun same => ⟨same, same ▸ fits⟩, fun found => found.1⟩
    · simp only [if_neg fits, Option.some.injEq]
      refine iff_of_false nofun ?_
      rintro ⟨rfl, same⟩
      exact fits same

theorem evaluate_node_eq_ok_iff [Zero α] [Add α] {values : Assignment α} {transform : Transform}
    {argument : Expr α} {result : Value α} :
    (node transform argument).evaluate values = .ok result ↔
      ∃ value, argument.evaluate values = .ok value ∧ transform.apply value = .ok result ∧
        result.shape = transform.declaredShape argument.shape := by
  rw [evaluate_node, bind_eq_ok_iff]
  refine exists_congr fun value => and_congr_right fun _ => ?_
  rw [bind_eq_ok_iff]
  constructor
  · rintro ⟨moved, applied, kept⟩
    split at kept
    · cases kept
      exact ⟨applied, ‹_›⟩
    · cases kept
  · rintro ⟨applied, declared⟩
    exact ⟨result, applied, if_pos declared⟩

theorem shape_of_evaluate [Zero α] [Add α] {values : Assignment α} {expression : Expr α}
    {result : Value α} (evaluated : expression.evaluate values = .ok result) :
    result.shape = expression.shape := by
  cases expression with
  | var leaf => exact (evaluate_var_eq_ok_iff.mp evaluated).2
  | const value => cases evaluated; rfl
  | node transform argument =>
    obtain ⟨_, _, _, declared⟩ := evaluate_node_eq_ok_iff.mp evaluated
    exact declared

theorem lower_node [Zero α] [Add α] (transform : Transform) (argument : Expr α) :
    (node transform argument).lower = argument.lower.map fun part =>
      ⟨transform.lower part.tree (transform.declaredShape argument.shape), part.constraints⟩ :=
  transform.lowered_operation _ _

end Expr

/-! ## Part 2: operations with arguments -/

/-- An operation with the expressions it is applied to. -/
structure Atom (α : Type) where
  operation : Operation α
  arguments : List (Expr α)

namespace Atom

variable {α : Type}

/-- The value of the operation on the values of its arguments. -/
def value [Zero α] [Add α] (atom : Atom α) (values : Assignment α) : Except Error (Value α) :=
  atom.operation.value (atom.arguments.map fun argument => argument.evaluate values)

/-- The lowered form of the operation on its lowered arguments. -/
def lowered [Zero α] [Add α] (atom : Atom α) : Except Error (Lowered α) :=
  atom.operation.lowered (atom.arguments.map Expr.lower)

end Atom

namespace Expr

variable {α : Type}

/-- The operation of an expression and its arguments; a leaf has none. -/
def atom? [Zero α] [Add α] : Expr α → Option (Atom α)
  | node transform argument =>
    some ⟨transform.operation (transform.declaredShape argument.shape), [argument]⟩
  | _ => none

/-- The arguments of an expression. -/
def arguments : Expr α → List (Expr α)
  | node _ argument => [argument]
  | _ => []

theorem value_atom [Zero α] [Add α] {expression : Expr α} {atom : Atom α}
    (read : expression.atom? = some atom) (values : Assignment α) :
    atom.value values = expression.evaluate values := by
  cases expression with
  | var leaf => cases read
  | const value => cases read
  | node transform argument =>
    cases read
    rfl

theorem lowered_atom [Zero α] [Add α] {expression : Expr α} {atom : Atom α}
    (read : expression.atom? = some atom) : atom.lowered = expression.lower := by
  cases expression with
  | var leaf => cases read
  | const value => cases read
  | node transform argument =>
    cases read
    rfl

end Expr

end AffineArrays
