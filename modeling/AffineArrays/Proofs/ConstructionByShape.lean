/-
**Construction looks at shapes only.**

A step is accepted or refused for the shape of its argument, and the shape alone says which shape it
leads to. So a sequence of steps can be followed on shapes (`Shape.follow`), without an expression to
build on. Two expressions of one shape cannot be told apart by building on them: not by their leaves,
storages or entries, nor by the steps that they were built with.

* `shape_step`: one step, followed on the shape of its argument;
* `course_chain`: a whole sequence, followed on shapes;
* `refused_at`, `length_shapes_of_accepted`: a sequence ends at its first refused step, and only there;
* `construction_by_shape`: two expressions of one shape go through a sequence side by side.
-/

import AffineArrays.Expr.Step

namespace AffineArrays

variable {α : Type}

/-! ## Part 1: steps on shapes -/

/-- The shape that a step makes of a shape, or why it refuses it. -/
def Shape.step (shape : Shape) : Step → Except Error Shape
  | .transform transform => transform.shapeOf shape
  | .diag =>
    if shape.isVector then Transform.diagVec.shapeOf shape.flattened
    else if shape.isSquare then Transform.diagMat.shapeOf shape
    else .error .diagArgument
  | .flatten => .ok shape.flattened

/-- What came of a sequence of steps, as far as shapes show it: the shape after each step, the failure
that ended the sequence, and the last shape. -/
structure Course where
  shapes : List Shape
  failure : Option Error
  last : Shape

/-- The course of a sequence of steps from a shape, up to the first step that is refused. -/
def Shape.follow (shape : Shape) : List Step → Course
  | [] => ⟨[], none, shape⟩
  | first :: rest =>
    match shape.step first with
    | .error failure => ⟨[], some failure, shape⟩
    | .ok next =>
      let tail := next.follow rest
      { tail with shapes := next :: tail.shapes }

/-- What shapes show of a chain. -/
def Chain.course (chain : Chain α) : Course := ⟨chain.shapes, chain.failure, chain.last.shape⟩

namespace Expr

theorem shape_apply (transform : Transform) (argument : Expr α) :
    (apply transform argument).map shape = transform.shapeOf argument.shape := by
  unfold apply Transform.shapeOf
  cases transform.check argument.shape <;> rfl

/-- A step makes of an expression what it makes of its shape. -/
theorem shape_step (argument : Expr α) (step : Step) :
    (argument.step step).map shape = argument.shape.step step := by
  cases step with
  | transform transform => exact shape_apply transform argument
  | flatten => exact congrArg Except.ok (shape_flatten argument)
  | diag =>
    rw [Expr.step, diag, Shape.step]
    split
    · rw [← shape_flatten]
      exact shape_apply .diagVec argument.flatten
    · split
      · exact shape_apply .diagMat argument
      · rfl

/-! ## Part 2: sequences -/

/-- **A sequence on an expression takes the course of its shape.** -/
theorem course_chain (argument : Expr α) (steps : List Step) :
    (argument.chain steps).course = argument.shape.follow steps := by
  induction steps generalizing argument with
  | nil => rfl
  | cons first rest more =>
    have followed := shape_step argument first
    unfold chain Shape.follow
    rw [← followed]
    cases argument.step first with
    | error failure => rfl
    | ok next =>
      show { (next.chain rest).course with
        shapes := next.shape :: (next.chain rest).course.shapes } = _
      rw [more next]
      rfl

/-- A sequence that failed has ended at the step after its last shape, which its last expression
refuses. -/
theorem refused_at {argument : Expr α} {steps : List Step} {failure : Error}
    (failed : (argument.chain steps).failure = some failure) :
    ∃ refused, steps[(argument.chain steps).shapes.length]? = some refused ∧
      (argument.chain steps).last.step refused = .error failure := by
  induction steps generalizing argument with
  | nil => cases failed
  | cons first rest more =>
    unfold chain at failed ⊢
    cases stepped : argument.step first with
    | error cause =>
      rw [stepped] at failed
      cases failed
      exact ⟨first, rfl, stepped⟩
    | ok next =>
      rw [stepped] at failed
      obtain ⟨refused, listed, refuses⟩ := more failed
      exact ⟨refused, listed, refuses⟩

theorem length_shapes_of_accepted {argument : Expr α} {steps : List Step}
    (accepted : (argument.chain steps).failure = none) :
    (argument.chain steps).shapes.length = steps.length := by
  induction steps generalizing argument with
  | nil => rfl
  | cons first rest more =>
    unfold chain at accepted ⊢
    cases stepped : argument.step first with
    | error cause =>
      rw [stepped] at accepted
      cases accepted
    | ok next =>
      rw [stepped] at accepted
      exact congrArg (· + 1) (more accepted)

/-- **Construction looks at shapes only.** On two expressions of one shape, whatever they are made of and
whatever their numbers are, a sequence of steps gives the same shape after every step. If it fails, it
fails on both at the same step for the same cause, and so with the same message; otherwise it has a shape
after each of the steps. -/
theorem construction_by_shape {β : Type} {first : Expr α} {second : Expr β}
    (same : first.shape = second.shape) (steps : List Step) :
    (first.chain steps).shapes = (second.chain steps).shapes ∧
      (first.chain steps).failure = (second.chain steps).failure ∧
      (first.chain steps).last.shape = (second.chain steps).last.shape ∧
      ((first.chain steps).failure = none →
        (first.chain steps).shapes.length = steps.length) ∧
      ∀ failure, (first.chain steps).failure = some failure →
        ∃ refused, steps[(first.chain steps).shapes.length]? = some refused ∧
          (first.chain steps).last.step refused = .error failure ∧
          (second.chain steps).last.step refused = .error failure := by
  have course : (first.chain steps).course = (second.chain steps).course := by
    rw [course_chain, course_chain, same]
  have shapes : (first.chain steps).shapes = (second.chain steps).shapes :=
    congrArg Course.shapes course
  have failures : (first.chain steps).failure = (second.chain steps).failure :=
    congrArg Course.failure course
  refine ⟨shapes, failures, congrArg Course.last course, length_shapes_of_accepted,
    fun failure failed => ?_⟩
  obtain ⟨refused, listed, refuses⟩ := refused_at failed
  obtain ⟨other, listedToo, refusesToo⟩ := refused_at (failures ▸ failed)
  rw [← shapes, listed] at listedToo
  cases listedToo
  exact ⟨refused, listed, refuses, refusesToo⟩

/-- A variable and a constant in the wrong storage, with the wrong number of entries and numbers of
another type, are both flattened, put on a diagonal and read off again. Neither has a diagonal after
that. -/
theorem construction_by_shape_malformed_column :
    let column : Expr Float := .var (.declare 3 (.matrix 3 1) none [.nonneg])
    let broken : Expr Int := .const (.tensor (.matrix 3 1) [5])
    let steps : List Step := [.flatten, .transform .diagVec, .diag, .transform .diagMat, .diag]
    (broken.chain steps).shapes = [.vector 3, .matrix 3 3, .vector 3] ∧
      ∃ refused, steps[3]? = some refused ∧
        (column.chain steps).last.step refused =
          .error (.shapeMismatch .twoDimensions (.shape (.vector 3))) ∧
        (broken.chain steps).last.step refused =
          .error (.shapeMismatch .twoDimensions (.shape (.vector 3))) := by
  intro column broken steps
  obtain ⟨shapes, _, _, _, refusal⟩ :=
    construction_by_shape (show column.shape = broken.shape from rfl) steps
  exact ⟨shapes.symm, refusal _ rfl⟩

end Expr

end AffineArrays
