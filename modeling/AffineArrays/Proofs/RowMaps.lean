/-
**Moving rows, as a product with the row map.**

A row map may send several rows to one place, send rows past the end or nowhere at all. Moving the rows
of a sparse matrix along it adds up, at each place of a column, what is stored in the rows that are sent
there and is not pruned. Under a tolerance that prunes nothing, moving along one map and then along
another is moving along both at once; this is why nested diagonals lower to composed maps.

* `SparseMatrix.filter_col_triplets`: the stored entries of a column, row by row;
* `SparseMatrix.stored?_scatterRows`: what is stored after rows were moved;
* `SparseMatrix.scatterRows_within`: a target past the end counts as none;
* `SparseMatrix.kept?_of_neg`: a negative tolerance prunes nothing;
* `SparseMatrix.scatterRows_scatterRows`: moving twice is moving once;
* `SparseMatrix.scatterRows_sums`: the entries of the moved matrix, and the law of composition.
-/

import AffineArrays.Proofs.CanonicalSums
import AffineArrays.Proofs.Selection
import Mathlib.Algebra.Order.Group.Abs
import Mathlib.Algebra.Order.Group.Int

set_option linter.unusedSectionVars false

namespace AffineArrays

variable {α : Type}

namespace SparseMatrix

variable {matrix : SparseMatrix α}

/-! ## Part 1: the rows of a column -/

/-- The stored entries of a column are listed row by row. -/
theorem filter_col_triplets (matrix : SparseMatrix α) (col : Nat) :
    (matrix.triplets.filter fun triplet => triplet.col == col) =
      (List.range matrix.rows).filterMap fun row =>
        (matrix.stored? row col).map fun value => ⟨row, col, value⟩ := by
  -- both lists ascend, so it is enough that they have the same members
  refine List.Pairwise.eq_of_mem_iff (matrix.triplets_ascending.filter _) ?_ fun triplet => ?_
  · refine List.pairwise_lt_range.filterMap _ ?_
    rintro row other less _ found _ foundToo
    obtain ⟨_, _, rfl⟩ := Option.map_eq_some_iff.mp found
    obtain ⟨_, _, rfl⟩ := Option.map_eq_some_iff.mp foundToo
    exact .inr ⟨rfl, less⟩
  · rw [List.mem_filter, mem_triplets, beq_iff_eq, List.mem_filterMap]
    constructor
    · rintro ⟨stored, rfl⟩
      exact ⟨triplet.row, List.mem_range.mpr (inside_of_stored? stored).1, by rw [stored]; rfl⟩
    · rintro ⟨row, _, found⟩
      obtain ⟨value, stored, rfl⟩ := Option.map_eq_some_iff.mp found
      exact ⟨stored, rfl⟩

/-! ## Part 2: what arrives at a place -/

variable [Magnitude α] [LE α] [DecidableLE α]

/-- The rows of the matrix that are sent to a place. -/
def sources (matrix : SparseMatrix α) (target : Nat → Option Nat) (place : Nat) : List Nat :=
  (List.range matrix.rows).filter fun row => target row == some place

/-- The stored entry at `(row, col)`, unless its magnitude is at or below the tolerance. -/
def kept? (matrix : SparseMatrix α) (pruning : α) (row col : Nat) : Option α :=
  (matrix.stored? row col).filter fun value => ¬ magnitude value ≤ pruning

/-- The values that are moved to a place of a column, in the order of their rows. -/
def arrivals (matrix : SparseMatrix α) (pruning : α) (target : Nat → Option Nat)
    (place col : Nat) : List α :=
  (matrix.sources target place).filterMap fun row => matrix.kept? pruning row col

theorem kept?_of_stored {pruning value : α} {row col : Nat}
    (stored : matrix.stored? row col = some value) :
    matrix.kept? pruning row col = if magnitude value ≤ pruning then none else some value := by
  rw [kept?, stored, Option.filter_some]
  by_cases pruned : magnitude value ≤ pruning <;> simp [pruned]

/-- The triplets that are moved to a place hold the values that arrive there. -/
theorem values_at_movedTriplets (matrix : SparseMatrix α) (pruning : α)
    (target : Nat → Option Nat) (place col : Nat) :
    ((matrix.movedTriplets pruning target).filter (Triplet.isAt place col)).map Triplet.value =
      matrix.arrivals pruning target place col := by
  let arrive : Triplet α → Option α := fun triplet =>
    if target triplet.row = some place then
      if magnitude triplet.value ≤ pruning then none else some triplet.value
    else none
  calc ((matrix.movedTriplets pruning target).filter (Triplet.isAt place col)).map Triplet.value
      _ = (matrix.triplets.filter fun triplet => triplet.col == col).filterMap arrive := by
        rw [movedTriplets, List.filter_filterMap, List.map_filterMap, List.filterMap_filter]
        refine List.filterMap_congr fun triplet _ => ?_
        by_cases pruned : magnitude triplet.value ≤ pruning
        · simp [arrive, pruned]
        · cases goes : target triplet.row with
          | none => simp [arrive, pruned, goes]
          | some row =>
            by_cases here : row = place <;> by_cases same : triplet.col = col <;>
              simp [arrive, pruned, goes, here, same, Triplet.isAt, Option.filter_some]
      _ = matrix.arrivals pruning target place col := by
        rw [filter_col_triplets, List.filterMap_filterMap, arrivals, sources, List.filterMap_filter]
        refine List.filterMap_congr fun row _ => ?_
        cases stored : matrix.stored? row col with
        | none => simp [kept?, stored]
        | some value =>
          by_cases goes : target row = some place <;> simp [arrive, kept?_of_stored stored, goes]

variable [Add α]

/-- **What is stored after rows were moved:** the running sum of what arrives at the place. -/
theorem stored?_scatterRows {rows place col : Nat} (rowInside : place < rows)
    (colInside : col < matrix.cols) (pruning : α) (target : Nat → Option Nat) :
    (matrix.scatterRows rows pruning target).stored? place col =
      runningSum? (matrix.arrivals pruning target place col) := by
  rw [scatterRows_eq, stored?_ofTriplets rowInside colInside, values_at_movedTriplets]

/-- Moved matrices are equal if the same arrives at every place inside. -/
theorem scatterRows_eq_of_stored? {other : SparseMatrix α} {rows : Nat} {pruning : α}
    {target : Nat → Option Nat} (rowCount : other.rows = rows) (colCount : other.cols = matrix.cols)
    (same : ∀ place col, place < rows → col < matrix.cols → other.stored? place col =
      runningSum? (matrix.arrivals pruning target place col)) :
    other = matrix.scatterRows rows pruning target := by
  refine ext_inside (by simp [rowCount]) (by simp [colCount]) fun place col rowInside colInside => ?_
  rw [rows_scatterRows] at rowInside
  rw [cols_scatterRows] at colInside
  rw [same place col rowInside colInside, stored?_scatterRows rowInside colInside]

/-! ## Part 3: targets past the end -/

theorem mem_sources {target : Nat → Option Nat} {place row : Nat} :
    row ∈ matrix.sources target place ↔ row < matrix.rows ∧ target row = some place := by
  rw [sources, List.mem_filter, List.mem_range, beq_iff_eq]

/-- A target past the end counts as none. -/
theorem scatterRows_within (matrix : SparseMatrix α) (rows : Nat) (pruning : α)
    (target : Nat → Option Nat) :
    matrix.scatterRows rows pruning target =
      matrix.scatterRows rows pruning fun row => (target row).bind (within rows) := by
  refine scatterRows_eq_of_stored? (rows_scatterRows _ _ _ _) (cols_scatterRows _ _ _ _)
    fun place col rowInside colInside => ?_
  have same : matrix.sources target place =
      matrix.sources (fun row => (target row).bind (within rows)) place := by
    refine List.filter_congr fun row _ => ?_
    rw [Bool.eq_iff_iff, beq_iff_eq, beq_iff_eq, Option.bind_eq_some_iff]
    constructor
    · intro goes
      exact ⟨place, goes, within_eq_some_iff.mpr ⟨rowInside, rfl⟩⟩
    · rintro ⟨reached, goes, kept⟩
      obtain ⟨_, rfl⟩ := within_eq_some_iff.mp kept
      exact goes
  rw [stored?_scatterRows rowInside colInside, arrivals, arrivals, same]

end SparseMatrix

/-! ## Part 4: tolerances that prune nothing -/

/-- Absolute values are not negative. -/
theorem magnitudesNonneg_of_abs [AddCommGroup α] [LinearOrder α] [IsOrderedAddMonoid α] [Magnitude α]
    (absolute : ∀ entry : α, magnitude entry = |entry|) : MagnitudesNonneg α := by
  intro entry tolerance negative
  rw [absolute]
  exact not_le_of_gt (negative.trans_le (abs_nonneg entry))

namespace SparseMatrix

variable {matrix : SparseMatrix α} [Zero α] [Add α] [Magnitude α] [LE α] [LT α] [DecidableLE α]

/-- A negative tolerance prunes nothing. -/
theorem kept?_of_neg (magnitudes : MagnitudesNonneg α) {pruning : α} (negative : pruning < 0)
    (row col : Nat) : matrix.kept? pruning row col = matrix.stored? row col := by
  cases stored : matrix.stored? row col with
  | none => rw [kept?, stored, Option.filter_none]
  | some value => rw [kept?_of_stored stored, if_neg (magnitudes value pruning negative)]

/-! ## Part 5: moving twice -/

/-- The second of two maps after the first. A row that the first map sends past the end of the matrix
between them goes nowhere. -/
def throughRows (middle : Nat) (first second : Nat → Option Nat) (row : Nat) : Option Nat :=
  ((first row).bind (within middle)).bind second

theorem throughRows_eq_some_iff {middle row place : Nat} {first second : Nat → Option Nat} :
    throughRows middle first second row = some place ↔
      ∃ between, between < middle ∧ first row = some between ∧ second between = some place := by
  simp only [throughRows, Option.bind_eq_some_iff, within_eq_some_iff]
  constructor
  · rintro ⟨between, ⟨_, goes, inside, rfl⟩, onward⟩
    exact ⟨_, inside, goes, onward⟩
  · rintro ⟨between, inside, goes, onward⟩
    exact ⟨between, ⟨between, goes, inside, rfl⟩, onward⟩

/-- The rows that reach a place in two moves, grouped by the row between them. -/
theorem sources_through (matrix : SparseMatrix α) (middle place : Nat)
    (first second : Nat → Option Nat) :
    (((List.range middle).filter fun row => second row == some place).flatMap
        (matrix.sources first)).Perm
      (matrix.sources (throughRows middle first second) place) := by
  have once : ∀ target place, (matrix.sources target place).Nodup := fun target place =>
    List.nodup_range.filter _
  refine (List.perm_ext_iff_of_nodup ?_ (once _ _)).mpr fun row => ?_
  · refine List.nodup_flatMap.mpr ⟨fun between _ => once first between, ?_⟩
    refine (List.nodup_range.filter _).imp fun {between other} apart row member memberToo => ?_
    have goes := (mem_sources.mp member).2
    rw [(mem_sources.mp memberToo).2] at goes
    exact apart (Option.some.inj goes).symm
  · simp only [List.mem_flatMap, List.mem_filter, List.mem_range, beq_iff_eq, mem_sources,
      throughRows_eq_some_iff]
    constructor
    · rintro ⟨between, ⟨inside, onward⟩, rowInside, goes⟩
      exact ⟨rowInside, between, inside, goes, onward⟩
    · rintro ⟨rowInside, between, inside, goes, onward⟩
      exact ⟨between, ⟨inside, onward⟩, rowInside, goes⟩

/-- **Moving twice is moving once**, in exact addition and under a negative tolerance. -/
theorem scatterRows_scatterRows (laws : ExactAddition α) (magnitudes : MagnitudesNonneg α)
    {pruning : α} (negative : pruning < 0) (matrix : SparseMatrix α) (middle rows : Nat)
    (first second : Nat → Option Nat) :
    (matrix.scatterRows middle pruning first).scatterRows rows pruning second =
      matrix.scatterRows rows pruning (throughRows middle first second) := by
  refine scatterRows_eq_of_stored? (rows_scatterRows _ _ _ _)
    ((cols_scatterRows _ _ _ _).trans (cols_scatterRows _ _ _ _))
    fun place col rowInside colInside => ?_
  let moved := matrix.scatterRows middle pruning first
  let between := (List.range middle).filter fun row => second row == some place
  have colInsideMoved : col < moved.cols := by rwa [cols_scatterRows]
  have arrived : moved.arrivals pruning second place col =
      between.filterMap fun row => runningSum? (matrix.arrivals pruning first row col) := by
    rw [arrivals, sources, rows_scatterRows]
    refine List.filterMap_congr fun row member => ?_
    have inside : row < middle := List.mem_range.mp (List.mem_filter.mp member).1
    rw [kept?_of_neg magnitudes negative, stored?_scatterRows inside colInside]
  calc (moved.scatterRows rows pruning second).stored? place col
      _ = runningSum? (moved.arrivals pruning second place col) :=
        stored?_scatterRows rowInside colInsideMoved _ _
      _ = runningSum? (between.flatMap fun row => matrix.arrivals pruning first row col) := by
        rw [arrived, runningSum?_flatMap laws]
      _ = runningSum? ((between.flatMap (matrix.sources first)).filterMap fun row =>
          matrix.kept? pruning row col) := by
        rw [List.filterMap_flatMap]
        rfl
      _ = runningSum? (matrix.arrivals pruning (throughRows middle first second) place col) :=
        runningSum?_perm laws ((sources_through matrix middle place first second).filterMap _)

/-! ## Part 6: the moved matrix -/

/-- **Moving rows is the product with the row map**, for every map. The moved matrix has the rows asked
for and the columns of the old one. In exact addition its entry at `(place, col)` is the sum of what is
stored in column `col` in the rows that are sent to `place` and is not pruned. Rows that are sent past
the end might as well be sent nowhere. In exact addition and under a negative tolerance, moving the rows
once more is moving them once, along the second map after the first. -/
theorem scatterRows_sums (matrix : SparseMatrix α) (rows : Nat) (pruning : α)
    (target : Nat → Option Nat) :
    let moved := matrix.scatterRows rows pruning target
    (moved.rows = rows ∧ moved.cols = matrix.cols) ∧
      (ExactAddition α → ∀ place col, place < rows → col < matrix.cols →
        moved.toDense.get? place col =
          some ((matrix.sources target place).filterMap fun row =>
            matrix.kept? pruning row col).sum) ∧
      moved = matrix.scatterRows rows pruning (fun row => (target row).bind (within rows)) ∧
      (ExactAddition α → MagnitudesNonneg α → pruning < 0 →
        ∀ (last : Nat) (onward : Nat → Option Nat), moved.scatterRows last pruning onward =
          matrix.scatterRows last pruning (throughRows rows target onward)) := by
  intro moved
  have rowCount : moved.rows = rows := rows_scatterRows _ _ _ _
  have colCount : moved.cols = matrix.cols := cols_scatterRows _ _ _ _
  refine ⟨⟨rowCount, colCount⟩, fun laws place col rowInside colInside => ?_,
    scatterRows_within matrix rows pruning target,
    fun laws magnitudes negative last onward =>
      scatterRows_scatterRows laws magnitudes negative matrix rows last target onward⟩
  have inside : place < moved.rows ∧ col < moved.cols := by
    rw [rowCount, colCount]
    exact ⟨rowInside, colInside⟩
  obtain ⟨entry, found⟩ := moved.toDense.exists_get? inside.1 inside.2
  refine found.trans (congrArg some ?_)
  calc entry
      _ = (moved.get? place col).getD 0 := by
        rw [← moved.get?_toDense, found, Option.getD_some]
      _ = (runningSum? (matrix.arrivals pruning target place col)).getD 0 := by
        rw [getD_get? laws, stored?_scatterRows rowInside colInside]
      _ = (matrix.arrivals pruning target place col).sum := getD_runningSum? laws _

end SparseMatrix

/-- The magnitude of an integer is its absolute value. -/
instance : Magnitude Int := ⟨fun entry => |entry|⟩

/-- Two rows that meet, one that is dropped and one that is sent past the end, with a stored zero; and
the same moved on, to where only the meeting rows arrive. -/
theorem SparseMatrix.scatterRows_sums_meeting_rows :
    let matrix : SparseMatrix Int :=
      .ofTriplets 4 2 [⟨0, 0, 3⟩, ⟨2, 0, -3⟩, ⟨2, 1, 5⟩, ⟨1, 1, 0⟩, ⟨3, 0, 7⟩]
    let first : Nat → Option Nat := fun row =>
      if row = 1 then none else if row = 3 then some 9 else some 1
    let second : Nat → Option Nat := fun row => if row = 0 then none else some (row - 1)
    ExactAddition Int ∧ MagnitudesNonneg Int ∧ (-1 : Int) < 0 ∧
      (matrix.scatterRows 2 (-1) first).toDense.get? 1 0 = some 0 ∧
      (matrix.scatterRows 2 3 first).toDense.get? 1 1 = some 5 ∧
      (matrix.scatterRows 2 (-1) first).scatterRows 9 (-1) second =
        matrix.scatterRows 9 (-1) (throughRows 2 first second) ∧
      throughRows 2 first second 3 = none := by
  intro matrix first second
  have laws : ExactAddition Int := exactArithmetic_of_semiring.toExactAddition
  have magnitudes : MagnitudesNonneg Int := magnitudesNonneg_of_abs fun _ => rfl
  have negative : (-1 : Int) < 0 := by decide
  obtain ⟨_, sums, _, twice⟩ := scatterRows_sums matrix 2 (-1) first
  obtain ⟨_, sumsPruned, _, _⟩ := scatterRows_sums matrix 2 3 first
  exact ⟨laws, magnitudes, negative, sums laws 1 0 (by decide) (by decide),
    sumsPruned laws 1 1 (by decide) (by decide), twice laws magnitudes negative 9 second, rfl⟩

end AffineArrays
