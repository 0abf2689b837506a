/-
**Entries by row and column.**

Arrays are computed as flat lists, column by column, while a statement about a matrix goes by row and
column. The two views are tied together here once, for dense and sparse storage alike. An entry of a
sparse matrix is zero plus what is stored for it, so an entry that is not stored is zero.

* `SparseMatrix.get?_toDense`: writing a sparse matrix out keeps its entries;
* `Value.getElem?_flat`: the flat list holds an entry at its column-major position;
* `Value.getElem?_readDiagonal`: a main diagonal read off the flat list holds the entries `(i, i)`;
* `Value.beq_flat_iff`: two matrices compare equal exactly if they do entry by entry.
-/

import AffineArrays.Proofs.Progress

namespace AffineArrays

variable {α : Type}

/-! ## Part 1: lists that compare equal -/

/-- Lists of one length compare equal exactly if they do place by place. The comparison need not be
reflexive: NaN is equal to nothing. -/
theorem beq_iff_of_length [BEq α] {first second : List α} (same : first.length = second.length) :
    (first == second) = true ↔ ∀ (place : Nat) (entry other : α), first[place]? = some entry →
      second[place]? = some other → (entry == other) = true := by
  induction first generalizing second with
  | nil =>
    cases List.eq_nil_of_length_eq_zero same.symm
    exact iff_of_true rfl nofun
  | cons entry rest step =>
    obtain ⟨other, tail, rfl⟩ := List.exists_cons_of_length_eq_add_one same.symm
    rw [List.cons_beq_cons, Bool.and_eq_true, step (Nat.succ.inj same)]
    constructor
    · rintro ⟨head, below⟩ (_ | place) found foundToo here hereToo
      · cases here
        cases hereToo
        exact head
      · exact below place found foundToo here hereToo
    · intro all
      exact ⟨all 0 entry other rfl rfl, fun place => all (place + 1)⟩

variable [Zero α] [Add α]

/-! ## Part 2: sparse matrices -/

namespace SparseMatrix

/-- The entry at `(row, col)`, if that lies inside: zero plus what is stored. -/
def get? (matrix : SparseMatrix α) (row col : Nat) : Option α :=
  if row < matrix.rows ∧ col < matrix.cols then
    some (match matrix.stored? row col with
      | some value => 0 + value
      | none => 0)
  else none

/-- Writing a sparse matrix out keeps its entries. -/
theorem get?_toDense (matrix : SparseMatrix α) (row col : Nat) :
    matrix.toDense.get? row col = matrix.get? row col := by
  show (if row < matrix.rows ∧ col < matrix.cols then
    matrix.flat[position matrix.rows row col]? else none) = _
  unfold get? stored?
  by_cases inside : row < matrix.rows ∧ col < matrix.cols
  · rw [if_pos inside, if_pos inside, if_pos inside]
    exact matrix.getElem?_flat (position_lt inside.1 inside.2)
  · rw [if_neg inside, if_neg inside]

end SparseMatrix

/-! ## Part 3: arrays -/

namespace Value

/-- The entry at `(row, col)` of a dense or a sparse matrix, if that lies inside. -/
def entry? : Value α → Nat → Nat → Option α
  | dense matrix => matrix.get?
  | sparse matrix => matrix.get?
  | _ => fun _ _ => none

variable {value : Value α} {rows cols row col : Nat}

/-- The flat list of a matrix holds every entry at its column-major position. -/
theorem getElem?_flat (stored : value.WellStored) (shape : value.shape = .matrix rows cols)
    (rowInside : row < rows) (colInside : col < cols) :
    value.flat[position rows row col]? = value.entry? row col := by
  have rank : value.shape.rank = 2 := congrArg Shape.rank shape
  cases value with
  | scalar entry => cases rank
  | vector entries => cases rank
  | tensor shape entries => exact absurd stored.1 (by rw [Value.shape] at rank; omega)
  | dense matrix =>
    obtain ⟨rfl, rfl⟩ := Shape.matrix_inj.mp shape
    show matrix.data.toList[_]? = matrix.get? row col
    rw [DenseMatrix.get?, if_pos ⟨rowInside, colInside⟩, Array.getElem?_toList]
  | sparse matrix =>
    obtain ⟨rfl, rfl⟩ := Shape.matrix_inj.mp shape
    show matrix.flat.toList[_]? = matrix.get? row col
    rw [← matrix.get?_toDense, DenseMatrix.get?, if_pos ⟨rowInside, colInside⟩,
      Array.getElem?_toList]
    rfl

theorem exists_entry? (stored : value.WellStored) (shape : value.shape = .matrix rows cols)
    (rowInside : row < rows) (colInside : col < cols) :
    ∃ entry ∈ value.flat, value.entry? row col = some entry := by
  have length : value.flat.length = rows * cols := by
    rw [length_flat, stored.full, shape, Shape.size_matrix]
  have inside : position rows row col < value.flat.length :=
    length ▸ position_lt rowInside colInside
  refine ⟨value.flat[position rows row col], List.getElem_mem inside, ?_⟩
  rw [← getElem?_flat stored shape rowInside colInside, List.getElem?_eq_getElem inside]

/-- A main diagonal that is read off the flat list of a matrix holds its entries `(i, i)`. -/
theorem getElem?_readDiagonal (stored : value.WellStored) (shape : value.shape = .matrix rows cols)
    {size index : Nat} (inside : index < size) (rowInside : index < rows) (colInside : index < cols) :
    (readDiagonal rows size value.flat)[index]? = value.entry? index index := by
  obtain ⟨entry, _, found⟩ := exists_entry? stored shape rowInside colInside
  rw [readDiagonal, List.getElem?_map, List.getElem?_range inside, Option.map_some,
    List.getD_eq_getElem?_getD, getElem?_flat stored shape rowInside colInside, found,
    Option.getD_some]

/-- Two matrices compare equal exactly if they do entry by entry. -/
theorem beq_flat_iff [BEq α] {other : Value α} (stored : value.WellStored)
    (storedToo : other.WellStored) (shape : value.shape = .matrix rows cols)
    (shapeToo : other.shape = .matrix rows cols) :
    (value.flat == other.flat) = true ↔ ∀ row col, row < rows → col < cols →
      ∀ entry found, value.entry? row col = some entry → other.entry? row col = some found →
        (entry == found) = true := by
  have length : value.flat.length = rows * cols := by
    rw [length_flat, stored.full, shape, Shape.size_matrix]
  have same : value.flat.length = other.flat.length := by
    rw [length, length_flat, storedToo.full, shapeToo, Shape.size_matrix]
  rw [beq_iff_of_length same]
  constructor
  · intro all row col rowInside colInside
    rw [← getElem?_flat stored shape rowInside colInside,
      ← getElem?_flat storedToo shapeToo rowInside colInside]
    exact all _
  · intro all place entry found here hereToo
    have inside : place < rows * cols := length ▸ (List.getElem?_eq_some_iff.mp here).1
    have rowInside := mod_lt_of_lt_size inside
    have colInside := div_lt_of_lt_size inside
    refine all _ _ rowInside colInside entry found ?_ ?_
    · rw [← getElem?_flat stored shape rowInside colInside, position_mod_div, here]
    · rw [← getElem?_flat storedToo shapeToo rowInside colInside, position_mod_div, hereToo]

end Value

end AffineArrays
