/-
**Sound signs.**

The sign of an expression is read off its leaf without evaluating it: off the declaration of a
variable, and off the stored entries of a constant. It holds of every value the expression has,
because a transform adds nothing but zeros. The stored entries of a sparse matrix speak for all of
them, and a NaN has no sign.

* `forall_mem_flat_iff`: what holds of zero and of the stored entries holds of all entries;
* `isNonneg_iff`, `isNonpos_iff`: so the two checks of an array decide its sign;
* `HasSign.apply`: a transform keeps every sign;
* `hasSign_of_evaluate`: the value of an expression has its sign;
* `sign_of_variable`, `sign_of_constant`: and no transform loses the sign of the leaf;
* `sign_sound`: at least zero, at most zero, or zero everywhere.
-/

import AffineArrays.Expr.Analysis
import AffineArrays.Proofs.Construction
import AffineArrays.Proofs.FloatEntries
import AffineArrays.Proofs.MovedEntries
import AffineArrays.Proofs.StoredEntries

namespace AffineArrays

/-! ## Part 1: all entries from the stored ones -/

section Stored

variable {α : Type} [Zero α] [Add α] {holds : α → Prop}

namespace SparseMatrix

theorem forall_mem_flat_iff (zero : holds 0) (sum : ∀ entry, holds (0 + entry) ↔ holds entry)
    (matrix : SparseMatrix α) :
    (∀ entry ∈ matrix.flat.toList, holds entry) ↔ ∀ entry ∈ matrix.cells.values, holds entry := by
  constructor
  · intro all entry member
    obtain ⟨⟨key, held⟩, listed, rfl⟩ := List.mem_map.mp member
    have inside : key < matrix.rows * matrix.cols :=
      matrix.bounded key (List.mem_map_of_mem (f := Prod.fst) listed)
    have read := matrix.getElem?_flat inside
    rw [IndexMap.mem_entries_iff.mp listed, ← Array.getElem?_toList] at read
    exact (sum held).mp (all _ (List.mem_of_getElem? read))
  · intro all entry member
    obtain ⟨place, read⟩ := List.mem_iff_getElem?.mp member
    have inside : place < matrix.rows * matrix.cols := by
      obtain ⟨below, _⟩ := List.getElem?_eq_some_iff.mp read
      rwa [Array.length_toList, matrix.size_flat] at below
    rw [Array.getElem?_toList, matrix.getElem?_flat inside] at read
    cases found : matrix.cells.get? place with
    | none =>
      rw [found] at read
      exact Option.some.inj read ▸ zero
    | some held =>
      rw [found] at read
      have listed : held ∈ matrix.cells.values :=
        List.mem_map_of_mem (f := Prod.snd) (IndexMap.mem_entries_iff.mpr found)
      exact Option.some.inj read ▸ (sum held).mpr (all held listed)

end SparseMatrix

/-- What holds of zero, and survives a sum with zero, holds of all entries of an array as soon as it
holds of the stored ones. -/
theorem Value.forall_mem_flat_iff (zero : holds 0)
    (sum : ∀ entry, holds (0 + entry) ↔ holds entry) (value : Value α) :
    (∀ entry ∈ value.flat, holds entry) ↔ ∀ entry ∈ value.stored, holds entry := by
  cases value with
  | sparse matrix => exact matrix.forall_mem_flat_iff zero sum
  | _ => exact Iff.rfl

end Stored

/-! ## Part 2: arrays of one sign -/

namespace Value

theorem isNonneg_iff {value : Value Float} :
    value.isNonneg = true ↔ ∀ entry ∈ value.flat, 0 ≤ entry := by
  rw [forall_mem_flat_iff (by decide) fun _ => FloatEntries.nonneg_zero_add]
  simp [isNonneg]

theorem isNonpos_iff {value : Value Float} :
    value.isNonpos = true ↔ ∀ entry ∈ value.flat, entry ≤ 0 := by
  rw [forall_mem_flat_iff (by decide) fun _ => FloatEntries.nonpos_zero_add]
  simp [isNonpos]

/-- Every entry is as the sign says. -/
structure HasSign (value : Value Float) (sign : Sign) : Prop where
  nonneg : sign.isNonneg = true → ∀ entry ∈ value.flat, 0 ≤ entry
  nonpos : sign.isNonpos = true → ∀ entry ∈ value.flat, entry ≤ 0

theorem hasSign_ofBounds (value : Value Float) :
    value.HasSign (.ofBounds value.isNonneg value.isNonpos) where
  nonneg found := isNonneg_iff.mp (by rwa [Sign.isNonneg_ofBounds] at found)
  nonpos found := isNonpos_iff.mp (by rwa [Sign.isNonpos_ofBounds] at found)

/-- A transform keeps every sign: it adds nothing but zeros. -/
theorem HasSign.apply {value result : Value Float} {sign : Sign} {transform : Transform}
    (known : value.HasSign sign) (applied : transform.apply value = .ok result) :
    result.HasSign sign := by
  refine ⟨fun nonneg => ?_, fun nonpos => ?_⟩
  · exact Transform.forall_mem_flat_of_apply applied (by decide) (known.nonneg nonneg)
  · exact Transform.forall_mem_flat_of_apply applied (by decide) (known.nonpos nonpos)

theorem HasSign.zero {value : Value Float} {sign : Sign} (known : value.HasSign sign)
    (zero : sign.isZero = true) {entry : Float} (member : entry ∈ value.flat) :
    entry = 0 ∨ entry = -0.0 := by
  cases sign with
  | zero =>
    exact FloatEntries.nonneg_and_nonpos_iff.mp
      ⟨known.nonneg rfl entry member, known.nonpos rfl entry member⟩
  | _ => cases zero

end Value

/-! ## Part 3: expressions -/

namespace Expr

variable {expression : Expr Float} {values : Assignment Float} {result : Value Float}

/-- Those variables of the expression that have a value have one as they declare. -/
def SignsKept (values : Assignment Float) (expression : Expr Float) : Prop :=
  ∀ leaf ∈ expression.variableLeaves, ∀ value, values leaf.id = some value →
    value.HasSign leaf.sign

theorem hasSign_of_evaluate (kept : expression.SignsKept values)
    (evaluated : expression.evaluate values = .ok result) : result.HasSign expression.sign := by
  induction expression generalizing result with
  | var leaf =>
    obtain ⟨given, _⟩ := evaluate_var_eq_ok_iff.mp evaluated
    exact kept leaf List.mem_cons_self result given
  | const value =>
    cases evaluated
    exact value.hasSign_ofBounds
  | node transform argument step =>
    obtain ⟨value, inner, applied, _⟩ := evaluate_node_eq_ok_iff.mp evaluated
    exact (step kept inner).apply applied

theorem sign_of_variable {leaf : Variable} (member : leaf ∈ expression.variableLeaves) :
    expression.sign = leaf.sign := by
  induction expression with
  | var own => rw [List.mem_singleton.mp member, sign]
  | const value => cases member
  | node transform argument step => exact step member

theorem sign_of_constant {value : Value Float} (member : value ∈ expression.constantLeaves) :
    expression.sign = .ofBounds value.isNonneg value.isNonpos := by
  induction expression with
  | var leaf => cases member
  | const own => rw [List.mem_singleton.mp member, sign]
  | node transform argument step => exact step member

/-- **Signs are sound.** Under values as declared, every value of an expression found to be at
least zero has only such entries, and likewise at most zero. The entries of one found to be zero are
zeros of either sign. What is found is all that is known of the leaf: the declaration of a variable,
or the bounds that all entries of a constant keep. -/
theorem sign_sound (kept : expression.SignsKept values)
    (evaluated : expression.evaluate values = .ok result) :
    (expression.sign.isNonneg = true → ∀ entry ∈ result.flat, 0 ≤ entry) ∧
      (expression.sign.isNonpos = true → ∀ entry ∈ result.flat, entry ≤ 0) ∧
      (expression.sign.isZero = true → ∀ entry ∈ result.flat, entry = 0 ∨ entry = -0.0) ∧
      (∀ leaf ∈ expression.variableLeaves, expression.sign = leaf.sign) ∧
      ∀ value ∈ expression.constantLeaves,
        (expression.sign.isNonneg = true ↔ ∀ entry ∈ value.flat, 0 ≤ entry) ∧
          (expression.sign.isNonpos = true ↔ ∀ entry ∈ value.flat, entry ≤ 0) := by
  have known := hasSign_of_evaluate kept evaluated
  refine ⟨known.nonneg, known.nonpos, fun zero _ member => known.zero zero member,
    fun leaf member => sign_of_variable member, fun value member => ?_⟩
  rw [sign_of_constant member, Sign.isNonneg_ofBounds, Sign.isNonpos_ofBounds]
  exact ⟨Value.isNonneg_iff, Value.isNonpos_iff⟩

/-- A sparse constant that stores zeros of both signs is zero, and so is its diagonal. Of two
declared signs the second stands. -/
theorem sign_sound_stored_zeros :
    let held : SparseMatrix Float := .ofTriplets 2 2 [⟨0, 0, 0⟩, ⟨1, 1, -0.0⟩]
    let zeros : Expr Float := .node .diagMat (.const (.sparse held))
    let spread : Expr Float := .node .diagVec (.var (.declare 4 (.vector 2) none [.nonpos, .nonneg]))
    let values : Assignment Float := fun _ => some (.vector [3, -0.0])
    (∃ result, zeros.evaluate values = .ok result ∧
        ∀ entry ∈ result.flat, entry = 0 ∨ entry = -0.0) ∧
      ∃ result, spread.evaluate values = .ok result ∧ ∀ entry ∈ result.flat, 0 ≤ entry := by
  intro held zeros spread values
  have zerosKept : zeros.SignsKept values := nofun
  have spreadKept : spread.SignsKept values := fun leaf member value given => by
    cases List.mem_singleton.mp member
    cases given
    exact ⟨fun _ => by decide, nofun⟩
  exact ⟨⟨_, rfl, (sign_sound zerosKept rfl).2.2.1 (by decide)⟩,
    ⟨_, rfl, (sign_sound spreadKept rfl).1 (by decide)⟩⟩

end Expr

end AffineArrays
