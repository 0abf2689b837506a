/-
**The contract of an operation.**

An operation declares its shape and says how it computes on arrays and how it lowers. Everything
else follows the same two rules for all operations, whatever the number of arguments: a failing
argument stops the computation, the first one first; then the operation's own answer decides; and a
computed array must have the declared shape.

* `value_of_failure`, `lowered_of_failure`: the first failing argument is the failure;
* `value_of_arguments`, `lowered_of_arguments`: without one, the operation's own answer decides.
-/

import AffineArrays.LinearTree

namespace AffineArrays

/-- An operation on arrays, with the shape it declares for its result. -/
structure Operation (α : Type) where
  name : String
  shape : Shape
  apply : List (Value α) → Except Error (Value α)
  /-- The lowered form on the lowered arguments, given the shape to declare. -/
  lower : List (LinearTree α) → Shape → Except Error (Lowered α)
  isSymmetric : Bool := shape.isUnit
  /-- Whether the result is Hermitian. Entries are real, so this is symmetry. -/
  isHermitian : Bool := isSymmetric

namespace Operation

variable {α : Type}

/-- The result of an operation on arguments that were computed before it. The first failure among
them is the failure of the whole, and a result of another than the declared shape is refused. -/
def value (operation : Operation α) (arguments : List (Except Error (Value α))) :
    Except Error (Value α) := do
  let values ← arguments.mapM id
  let result ← operation.apply values
  if result.shape = operation.shape then .ok result
  else .error (.shapeMismatch (.shape operation.shape) (.shape result.shape))

/-- The lowered form of an operation on arguments that were lowered before it. Constraints are
collected in the order of the arguments, the operation's own last. -/
def lowered (operation : Operation α) (arguments : List (Except Error (Lowered α))) :
    Except Error (Lowered α) := do
  let parts ← arguments.mapM id
  let own ← operation.lower (parts.map Lowered.tree) operation.shape
  .ok ⟨own.tree, parts.flatMap Lowered.constraints ++ own.constraints⟩

theorem mapM_id_of_failure {β : Type} {before after : List (Except Error β)} {results : List β}
    {failure : Error} (computed : before = results.map Except.ok) :
    (before ++ Except.error failure :: after).mapM id = .error failure := by
  subst computed
  induction results with
  | nil => rfl
  | cons result rest step =>
    rw [List.map_cons, List.cons_append, List.mapM_cons, step]
    rfl

theorem mapM_id_of_results {β : Type} (results : List β) :
    (results.map Except.ok : List (Except Error β)).mapM id = .ok results := by
  induction results with
  | nil => rfl
  | cons result rest step =>
    rw [List.map_cons, List.mapM_cons, step]
    rfl

theorem value_of_failure (operation : Operation α) (results : List (Value α)) (failure : Error)
    (after : List (Except Error (Value α))) :
    operation.value (results.map Except.ok ++ .error failure :: after) = .error failure := by
  rw [value, mapM_id_of_failure rfl]
  rfl

theorem value_of_arguments (operation : Operation α) (results : List (Value α)) :
    operation.value (results.map Except.ok) = (operation.apply results).bind fun result =>
      if result.shape = operation.shape then .ok result
      else .error (.shapeMismatch (.shape operation.shape) (.shape result.shape)) := by
  rw [value, mapM_id_of_results]
  rfl

theorem lowered_of_failure (operation : Operation α) (results : List (Lowered α))
    (failure : Error) (after : List (Except Error (Lowered α))) :
    operation.lowered (results.map Except.ok ++ .error failure :: after) = .error failure := by
  rw [lowered, mapM_id_of_failure rfl]
  rfl

theorem lowered_of_arguments (operation : Operation α) (results : List (Lowered α)) :
    operation.lowered (results.map Except.ok) =
      (operation.lower (results.map Lowered.tree) operation.shape).map fun own =>
        ⟨own.tree, results.flatMap Lowered.constraints ++ own.constraints⟩ := by
  rw [lowered, mapM_id_of_results]
  show (operation.lower (results.map Lowered.tree) operation.shape).bind _ = _
  cases operation.lower (results.map Lowered.tree) operation.shape <;> rfl

end Operation

end AffineArrays
