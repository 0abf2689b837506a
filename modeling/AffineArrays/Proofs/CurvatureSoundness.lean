/-
**Sound curvature.**

An expression without variables is constant, and any other is affine. Both are facts about
evaluation. Nothing but its own variables is looked at, so a constant expression has one answer under
all assignments. A transform only moves entries and fills in zeros, so it goes through every operation
on entries that takes zeros to zero, and `t * x + (1 - t) * y` is one.

* `evaluate_congr`: evaluation depends on the variables of the expression alone;
* `Value.Mixes`: one array combines two others entry by entry, in whatever storage;
* `mixes_of_evaluate`: what combines the variables combines the values;
* `curvature_sound`: constant and affine expressions are what their names say.
-/

import AffineArrays.Expr.Analysis
import AffineArrays.Proofs.Progress

namespace AffineArrays

variable {α : Type} [Zero α] [Add α]

/-! ## Part 1: combined arrays -/

namespace Value

/-- Two full arrays of one shape, and one of that shape with the combined entries. -/
structure Mixes (combine : α → α → α) (first second mixed : Value α) : Prop where
  full_first : first.Full
  full_second : second.Full
  shape_second : second.shape = first.shape
  shape_mixed : mixed.shape = first.shape
  flat : mixed.flat = List.zipWith combine first.flat second.flat

variable {combine : α → α → α} {first second mixed : Value α}

theorem Mixes.same_length (mixes : Mixes combine first second mixed) :
    first.flat.length = second.flat.length := by
  rw [length_flat, length_flat, mixes.full_first, mixes.full_second, mixes.shape_second]

/-- A transform of combined arrays combines the transformed arrays. -/
theorem Mixes.apply (mixes : Mixes combine first second mixed) (keeps : combine 0 0 = 0)
    {transform : Transform} {declared : Shape} {movedFirst movedSecond movedMixed : Value α}
    (appliedFirst : transform.apply first = .ok movedFirst)
    (appliedSecond : transform.apply second = .ok movedSecond)
    (appliedMixed : transform.apply mixed = .ok movedMixed)
    (declaredFirst : movedFirst.shape = declared) (declaredSecond : movedSecond.shape = declared)
    (declaredMixed : movedMixed.shape = declared) :
    Mixes combine movedFirst movedSecond movedMixed where
  full_first := (wellStored_of_apply appliedFirst).full
  full_second := (wellStored_of_apply appliedSecond).full
  shape_second := declaredSecond.trans declaredFirst.symm
  shape_mixed := declaredMixed.trans declaredFirst.symm
  flat := by
    rw [Transform.flat_of_apply appliedFirst, Transform.flat_of_apply appliedSecond,
      Transform.flat_of_apply appliedMixed, declaredFirst, declaredSecond, declaredMixed,
      mixes.shape_second, mixes.shape_mixed, mixes.flat]
    exact Transform.move_zipWith keeps mixes.same_length _ _ _

end Value

/-! ## Part 2: expressions -/

namespace Expr

variable {expression : Expr α} {first second mixed : Assignment α}

/-- Evaluation depends on the variables of the expression alone. -/
theorem evaluate_congr (agree : ∀ id ∈ expression.ids, first id = second id) :
    expression.evaluate first = expression.evaluate second := by
  induction expression with
  | var leaf =>
    unfold evaluate
    rw [agree leaf.id List.mem_cons_self]
  | const value => rfl
  | node transform argument step => rw [evaluate_node, evaluate_node, step agree]

/-- Wherever all three assignments give a value to a variable of the expression, the third value
combines the other two. -/
def Mixes (combine : α → α → α) (first second mixed : Assignment α) (expression : Expr α) : Prop :=
  ∀ leaf ∈ expression.variableLeaves, ∀ valueFirst valueSecond valueMixed,
    first leaf.id = some valueFirst → second leaf.id = some valueSecond →
      mixed leaf.id = some valueMixed → valueFirst.Mixes combine valueSecond valueMixed

/-- **What combines the variables combines the values** of an expression that has a variable. -/
theorem mixes_of_evaluate {combine : α → α → α} (keeps : combine 0 0 = 0)
    (varies : expression.ids ≠ []) (mixes : expression.Mixes combine first second mixed)
    {resultFirst resultSecond resultMixed : Value α}
    (evaluatedFirst : expression.evaluate first = .ok resultFirst)
    (evaluatedSecond : expression.evaluate second = .ok resultSecond)
    (evaluatedMixed : expression.evaluate mixed = .ok resultMixed) :
    resultFirst.Mixes combine resultSecond resultMixed := by
  induction expression generalizing resultFirst resultSecond resultMixed with
  | var leaf =>
    exact mixes leaf List.mem_cons_self _ _ _ (evaluate_var_eq_ok_iff.mp evaluatedFirst).1
      (evaluate_var_eq_ok_iff.mp evaluatedSecond).1 (evaluate_var_eq_ok_iff.mp evaluatedMixed).1
  | const value => exact absurd rfl varies
  | node transform argument step =>
    obtain ⟨_, before, applied, declared⟩ := evaluate_node_eq_ok_iff.mp evaluatedFirst
    obtain ⟨_, beforeSecond, appliedSecond, declaredSecond⟩ :=
      evaluate_node_eq_ok_iff.mp evaluatedSecond
    obtain ⟨_, beforeMixed, appliedMixed, declaredMixed⟩ := evaluate_node_eq_ok_iff.mp evaluatedMixed
    have inner := step varies mixes before beforeSecond beforeMixed
    exact inner.apply keeps applied appliedSecond appliedMixed declared declaredSecond declaredMixed

/-- **Curvature is exact and sound.** An expression is constant if it has no variables, and otherwise
affine. A constant one has the same answer under all assignments. An affine one carries
`t * x + (1 - t) * y` from the entries of its variables to the entries of its values, for every `t`
that takes zeros to zero this way. In exact arithmetic every `t` does. -/
theorem curvature_sound [One α] [Sub α] [Mul α] (expression : Expr α) :
    (expression.curvature = if expression.ids = [] then .constant else .affine) ∧
      (expression.curvature = .constant → ∀ first second : Assignment α,
        expression.evaluate first = expression.evaluate second) ∧
      (expression.curvature = .affine → ∀ t : α, t * 0 + (1 - t) * 0 = 0 →
        ∀ first second mixed : Assignment α,
          expression.Mixes (fun x y => t * x + (1 - t) * y) first second mixed →
            ∀ resultFirst resultSecond resultMixed,
              expression.evaluate first = .ok resultFirst →
              expression.evaluate second = .ok resultSecond →
              expression.evaluate mixed = .ok resultMixed →
                resultFirst.Mixes (fun x y => t * x + (1 - t) * y) resultSecond resultMixed) := by
  refine ⟨curvature_of_ids expression, fun constant first second => ?_, ?_⟩
  · refine evaluate_congr fun id member => ?_
    rw [curvature_eq_constant_iff.mp constant] at member
    cases member
  · intro affine t keeps first second mixed mixes resultFirst resultSecond resultMixed
    exact mixes_of_evaluate keeps (curvature_eq_affine_iff.mp affine) mixes

/-- A dense and a sparse column are combined under a shape, with a factor outside of zero to one. -/
theorem curvature_sound_spread_column :
    let spread : Expr Float := .node .diagVec (.var (.declare 4 (.matrix 2 1) none []))
    let fixed : Expr Float := .node .diagVec (.const (.vector [1, 2]))
    let first : Assignment Float := fun _ => some (.dense ⟨2, 1, #[1, 2], rfl⟩)
    let second : Assignment Float := fun _ => some (.sparse (.ofTriplets 2 1 [⟨0, 0, 5⟩]))
    let mixed : Assignment Float := fun _ => some (.tensor (.matrix 2 1) [-7, 6])
    (∃ resultFirst resultSecond resultMixed, spread.evaluate first = .ok resultFirst ∧
        spread.evaluate second = .ok resultSecond ∧ spread.evaluate mixed = .ok resultMixed ∧
        resultFirst.Mixes (fun x y => 3 * x + (1 - 3) * y) resultSecond resultMixed) ∧
      fixed.evaluate first = fixed.evaluate .empty := by
  intro spread fixed first second mixed
  have mixes : spread.Mixes (fun x y => 3 * x + (1 - 3) * y) first second mixed := by
    rintro leaf member _ _ _ ⟨⟩ ⟨⟩ ⟨⟩
    exact ⟨rfl, rfl, rfl, rfl, rfl⟩
  refine ⟨⟨_, _, _, rfl, rfl, rfl, ?_⟩, (curvature_sound fixed).2.1 rfl first .empty⟩
  exact (curvature_sound spread).2.2 rfl 3 rfl first second mixed mixes _ _ _ rfl rfl rfl

end Expr

end AffineArrays
