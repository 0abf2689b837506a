/-
**Which answer an operation gives.**

An operation has many ways to fail: each of its arguments may, its own rule may, and its result may
have another shape than declared. The answers are written down here as rules, one for each way, and the
two computations follow them: they give the answer of a rule, and no rule gives another. Nothing is asked
of the operation or of the number of its arguments.

* `results_or_failure`: a list of outcomes has only results, or a first failure;
* `Operation.Answers`: the answers of an operation that is computed;
* `Operation.Lowers`: the answers of one that is lowered, with all constraints in their order;
* `first_failure_decides`: the computations give these answers.
-/

import AffineArrays.Expr.Evaluation

namespace AffineArrays

variable {α : Type}

/-! ## Part 1: outcomes -/

/-- A list of outcomes has only results, or a first failure. -/
theorem results_or_failure {β : Type} (outcomes : List (Except Error β)) :
    (∃ results : List β, outcomes = results.map Except.ok) ∨
      ∃ (results : List β) (failure : Error) (after : List (Except Error β)),
        outcomes = results.map Except.ok ++ .error failure :: after := by
  induction outcomes with
  | nil => exact .inl ⟨[], rfl⟩
  | cons outcome rest step =>
    cases outcome with
    | error failure => exact .inr ⟨[], failure, rest, rfl⟩
    | ok result =>
      rcases step with ⟨results, rfl⟩ | ⟨results, failure, after, rfl⟩
      · exact .inl ⟨result :: results, rfl⟩
      · exact .inr ⟨result :: results, failure, after, rfl⟩

namespace Operation

/-! ## Part 2: rules -/

/-- What an operation answers to the outcomes of its arguments when it is computed. -/
inductive Answers (operation : Operation α) :
    List (Except Error (Value α)) → Except Error (Value α) → Prop where
  /-- The first failing argument is the failure, whatever comes after it. -/
  | argument (results : List (Value α)) (failure : Error) (after : List (Except Error (Value α))) :
      Answers operation (results.map Except.ok ++ .error failure :: after) (.error failure)
  /-- The operation itself refuses the values of its arguments. -/
  | refused {results : List (Value α)} {failure : Error}
      (refuses : operation.apply results = .error failure) :
      Answers operation (results.map Except.ok) (.error failure)
  /-- The result has another shape than the operation declares. -/
  | misshapen {results : List (Value α)} {result : Value α}
      (computes : operation.apply results = .ok result)
      (other : result.shape ≠ operation.shape) :
      Answers operation (results.map Except.ok)
        (.error (.shapeMismatch (.shape operation.shape) (.shape result.shape)))
  /-- The result is given as it was computed. -/
  | computed {results : List (Value α)} {result : Value α}
      (computes : operation.apply results = .ok result)
      (declared : result.shape = operation.shape) :
      Answers operation (results.map Except.ok) (.ok result)

/-- What an operation answers to the outcomes of its arguments when it is lowered. -/
inductive Lowers (operation : Operation α) :
    List (Except Error (Lowered α)) → Except Error (Lowered α) → Prop where
  /-- The first failing argument is the failure, whatever comes after it. -/
  | argument (parts : List (Lowered α)) (failure : Error) (after : List (Except Error (Lowered α))) :
      Lowers operation (parts.map Except.ok ++ .error failure :: after) (.error failure)
  /-- The operation itself refuses the trees of its arguments. -/
  | refused {parts : List (Lowered α)} {failure : Error}
      (refuses : operation.lower (parts.map Lowered.tree) operation.shape = .error failure) :
      Lowers operation (parts.map Except.ok) (.error failure)
  /-- The tree is the operation's own. Before its own constraints stand those of the arguments. -/
  | lowered {parts : List (Lowered α)} {own : Lowered α}
      (lowers : operation.lower (parts.map Lowered.tree) operation.shape = .ok own) :
      Lowers operation (parts.map Except.ok)
        (.ok ⟨own.tree, parts.flatMap Lowered.constraints ++ own.constraints⟩)

/-! ## Part 3: the computations follow the rules -/

theorem answers_value (operation : Operation α) (outcomes : List (Except Error (Value α))) :
    operation.Answers outcomes (operation.value outcomes) := by
  rcases results_or_failure outcomes with ⟨results, rfl⟩ | ⟨results, failure, after, rfl⟩
  · rw [value_of_arguments]
    cases computes : operation.apply results with
    | error failure => exact .refused computes
    | ok result =>
      by_cases declared : result.shape = operation.shape
      · simpa [Except.bind, declared] using Answers.computed computes declared
      · simpa [Except.bind, declared] using Answers.misshapen computes declared
  · rw [value_of_failure]
    exact .argument results failure after

theorem Answers.value_eq {operation : Operation α} {outcomes : List (Except Error (Value α))}
    {answer : Except Error (Value α)} (answers : operation.Answers outcomes answer) :
    operation.value outcomes = answer := by
  cases answers with
  | argument results failure after => exact value_of_failure operation results failure after
  | refused refuses =>
    rw [value_of_arguments, refuses]
    rfl
  | misshapen computes other =>
    rw [value_of_arguments, computes]
    exact if_neg other
  | computed computes declared =>
    rw [value_of_arguments, computes]
    exact if_pos declared

theorem lowers_lowered (operation : Operation α) (outcomes : List (Except Error (Lowered α))) :
    operation.Lowers outcomes (operation.lowered outcomes) := by
  rcases results_or_failure outcomes with ⟨parts, rfl⟩ | ⟨parts, failure, after, rfl⟩
  · rw [lowered_of_arguments]
    cases lowers : operation.lower (parts.map Lowered.tree) operation.shape with
    | error failure => exact .refused lowers
    | ok own => exact .lowered lowers
  · rw [lowered_of_failure]
    exact .argument parts failure after

theorem Lowers.lowered_eq {operation : Operation α} {outcomes : List (Except Error (Lowered α))}
    {answer : Except Error (Lowered α)} (lowers : operation.Lowers outcomes answer) :
    operation.lowered outcomes = answer := by
  cases lowers with
  | argument parts failure after => exact lowered_of_failure operation parts failure after
  | refused refuses =>
    rw [lowered_of_arguments, refuses]
    rfl
  | lowered lowers =>
    rw [lowered_of_arguments, lowers]
    rfl

theorem value_eq_iff {operation : Operation α} {outcomes : List (Except Error (Value α))}
    {answer : Except Error (Value α)} :
    operation.value outcomes = answer ↔ operation.Answers outcomes answer :=
  ⟨fun same => same ▸ answers_value operation outcomes, Answers.value_eq⟩

theorem lowered_eq_iff {operation : Operation α} {outcomes : List (Except Error (Lowered α))}
    {answer : Except Error (Lowered α)} :
    operation.lowered outcomes = answer ↔ operation.Lowers outcomes answer :=
  ⟨fun same => same ▸ lowers_lowered operation outcomes, Lowers.lowered_eq⟩

/-- **The first failure decides.** An operation that is computed or lowered gives exactly the answers of
the rules, to every list of outcomes. So does an operation on expressions, to the outcomes of these
expressions in their order. -/
theorem first_failure_decides (operation : Operation α) :
    (∀ outcomes answer, operation.value outcomes = answer ↔ operation.Answers outcomes answer) ∧
      (∀ outcomes answer, operation.lowered outcomes = answer ↔
        operation.Lowers outcomes answer) ∧
      ∀ [Zero α] [Add α] (arguments : List (Expr α)),
        (∀ values answer, (Atom.mk operation arguments).value values = answer ↔
          operation.Answers (arguments.map fun argument => argument.evaluate values) answer) ∧
        ∀ answer, (Atom.mk operation arguments).lowered = answer ↔
          operation.Lowers (arguments.map Expr.lower) answer :=
  ⟨fun _ _ => value_eq_iff, fun _ _ => lowered_eq_iff,
    fun _ => ⟨fun _ _ => value_eq_iff, fun _ => lowered_eq_iff⟩⟩

/-- Two arguments bring constraints, one of them twice, and the operation adds its own. -/
example (tree : LinearTree Float) (first second own : Constraint Float) :
    let operation : Operation Float :=
      { name := "pair"
        shape := .vector 2
        apply := fun _ => .error (.numerical "not computed")
        lower := fun trees shape => .ok ⟨⟨.reshape, shape, trees⟩, [own]⟩ }
    operation.lowered [.ok ⟨tree, [first]⟩, .ok ⟨tree, [second, first]⟩] =
      .ok ⟨⟨.reshape, .vector 2, [tree, tree]⟩, [first, second, first, own]⟩ := rfl

end Operation

end AffineArrays
