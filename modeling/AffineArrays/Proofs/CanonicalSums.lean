/-
**Matrices built from triplets, as sums.**

A matrix may be given by any list of triplets, in any order, with places named several times or lying
outside. What is built is canonical: one stored entry for each place inside that is named, in ascending
order, with the sum of the values given for it. Floating-point sums depend on the order of their terms,
so the sum as such, and the freedom to exchange triplets, are facts of exact addition.

* `runningSum?_eq_some`, `runningSum?_perm`, `runningSum?_flatMap`: running sums in exact addition;
* `SparseMatrix.getD_get?`: the entries of a matrix in exact addition;
* `SparseMatrix.triplets_ascending`: stored entries are listed by column and then by row;
* `SparseMatrix.ofTriplets_perm`: triplets may be given in any order;
* `SparseMatrix.ofTriplets_triplets`: a matrix is rebuilt from its own triplets;
* `Triplet.values_at_ofLists`: the values given for a place, by the indices that name it;
* `SparseMatrix.ofCoordinates_canonical`: what is built from three lists.
-/

import AffineArrays.Proofs.ExactSums
import AffineArrays.Proofs.PlacedEntries
import Mathlib.Algebra.Ring.Int.Defs
import Mathlib.Data.List.Sort

set_option linter.unusedSectionVars false

namespace AffineArrays

variable {α : Type}

namespace SparseMatrix

/-! ## Part 1: sums and entries in exact addition -/

section RunningSums

variable [Add α] {values others : List α}

theorem runningSum?_eq_none : runningSum? values = none ↔ values = [] := by
  cases values with
  | nil => exact iff_of_true rfl rfl
  | cons first rest => exact iff_of_false nofun nofun

variable [Zero α]

/-- A running sum is the sum, if there is a value to add. -/
theorem runningSum?_eq_some (laws : ExactAddition α) {sum : α} :
    runningSum? values = some sum ↔ values ≠ [] ∧ values.sum = sum := by
  cases values with
  | nil => exact iff_of_false nofun fun found => found.1 rfl
  | cons first rest =>
    have total : rest.foldl (· + ·) first = (first :: rest).sum := by
      have added := laws.foldl_add id rest first
      rwa [List.map_id] at added
    rw [runningSum?, Option.some.injEq, total]
    exact (and_iff_right (List.cons_ne_nil _ _)).symm

/-- Nothing to add counts as zero. -/
theorem getD_runningSum? (laws : ExactAddition α) (values : List α) :
    (runningSum? values).getD 0 = values.sum := by
  cases sum : runningSum? values with
  | none =>
    rw [runningSum?_eq_none.mp sum]
    rfl
  | some total => exact ((runningSum?_eq_some laws).mp sum).2.symm

/-- A running sum tells of its values the sum and whether there are any. -/
theorem runningSum?_congr (laws : ExactAddition α) (empty : values = [] ↔ others = [])
    (sum : values.sum = others.sum) : runningSum? values = runningSum? others := by
  refine Option.ext fun total => ?_
  rw [runningSum?_eq_some laws, runningSum?_eq_some laws, sum, ne_eq, ne_eq, empty]

/-- The values of a running sum may come in any order. -/
theorem runningSum?_perm (laws : ExactAddition α) (same : values.Perm others) :
    runningSum? values = runningSum? others := by
  refine runningSum?_congr laws ⟨?_, ?_⟩ ?_
  · rintro rfl
    exact same.nil_eq.symm
  · rintro rfl
    exact same.eq_nil
  · have mapped := laws.sum_map_perm same id
    rwa [List.map_id, List.map_id] at mapped

/-- A running sum of running sums is the running sum of all values. -/
theorem runningSum?_flatMap (laws : ExactAddition α) {β : Type} (keys : List β)
    (group : β → List α) :
    runningSum? (keys.filterMap fun key => runningSum? (group key)) =
      runningSum? (keys.flatMap group) := by
  refine runningSum?_congr laws ?_ ?_
  · simp only [List.filterMap_eq_nil_iff, List.flatMap_eq_nil_iff, runningSum?_eq_none]
  · let _ := laws.addCommMonoid
    induction keys with
    | nil => rfl
    | cons key rest step =>
      rw [List.flatMap_cons, List.sum_append, ← step, List.filterMap_cons]
      cases found : runningSum? (group key) with
      | none => rw [runningSum?_eq_none.mp found, List.sum_nil, laws.zero_add]
      | some sum => rw [((runningSum?_eq_some laws).mp found).2, List.sum_cons]

/-- In exact addition, an entry is what is stored for it, or zero. -/
theorem getD_get? (laws : ExactAddition α) (matrix : SparseMatrix α) (row col : Nat) :
    (matrix.get? row col).getD 0 = (matrix.stored? row col).getD 0 := by
  cases stored : matrix.stored? row col with
  | none =>
    rw [get?, stored]
    split <;> rfl
  | some value =>
    rw [get?, if_pos (inside_of_stored? stored), stored]
    exact laws.zero_add value

end RunningSums

end SparseMatrix

/-! ## Part 2: the order of the stored entries -/

namespace Triplet

/-- The place of the first triplet comes before that of the second: in an earlier column, or further
up in the same one. -/
def Before (first second : Triplet α) : Prop :=
  first.col < second.col ∨ first.col = second.col ∧ first.row < second.row

instance : Std.Asymm (Before (α := α)) where
  asymm first second before after := by
    unfold Before at before after
    omega

/-- Positions inside a matrix ascend with their places. -/
theorem before_of_position_lt {rows : Nat} {first second : Triplet α} (inside : second.row < rows)
    (less : position rows first.row first.col < position rows second.row second.col) :
    first.Before second := by
  unfold position at less
  by_cases earlier : first.col < second.col
  · exact .inl earlier
  · refine .inr ?_
    by_cases same : first.col = second.col
    · rw [same] at less
      omega
    · -- a later column starts below every row of an earlier one
      have later : (second.col + 1) * rows ≤ first.col * rows :=
        Nat.mul_le_mul_right rows (by omega)
      rw [Nat.succ_mul] at later
      omega

end Triplet

namespace SparseMatrix

/-- The stored entries are listed by column, and by row in each column. -/
theorem triplets_ascending (matrix : SparseMatrix α) : matrix.triplets.Pairwise Triplet.Before := by
  refine List.pairwise_map.mpr (matrix.cells.ascending.imp_of_mem ?_)
  intro first second _ memberToo less
  have inside : second.1 < matrix.rows * matrix.cols :=
    matrix.bounded second.1 (List.mem_map_of_mem memberToo)
  refine Triplet.before_of_position_lt (mod_lt_of_lt_size inside) ?_
  rwa [position_mod_div, position_mod_div]

/-! ## Part 3: lists of triplets -/

variable [Add α]

/-- In exact addition the triplets may be given in any order. -/
theorem ofTriplets_perm [Zero α] (laws : ExactAddition α) (rows cols : Nat)
    {triplets others : List (Triplet α)} (same : triplets.Perm others) :
    ofTriplets rows cols triplets = ofTriplets rows cols others := by
  refine ext_inside (by simp) (by simp) fun row col rowInside colInside => ?_
  rw [rows_ofTriplets] at rowInside
  rw [cols_ofTriplets] at colInside
  rw [stored?_ofTriplets rowInside colInside, stored?_ofTriplets rowInside colInside]
  exact runningSum?_perm laws ((same.filter _).map _)

/-- A matrix is rebuilt from its own triplets: they name no place twice, so nothing is added. -/
theorem ofTriplets_triplets (matrix : SparseMatrix α) :
    ofTriplets matrix.rows matrix.cols matrix.triplets = matrix := by
  refine ext_stored? (rows_ofTriplets _ _ _) (cols_ofTriplets _ _ _) fun row col =>
    Option.ext fun value => ?_
  rw [stored?_ofTriplets_of_distinct matrix.distinct_triplets, mem_triplets]
  constructor
  · rintro ⟨_, _, stored⟩
    exact stored
  · intro stored
    obtain ⟨rowInside, colInside⟩ := inside_of_stored? stored
    exact ⟨rowInside, colInside, stored⟩

/-- A place is stored exactly if it lies inside and is named. -/
theorem exists_mem_ofTriplets_iff {rows cols row col : Nat} {triplets : List (Triplet α)} :
    (∃ value, ⟨row, col, value⟩ ∈ (ofTriplets rows cols triplets).triplets) ↔
      row < rows ∧ col < cols ∧ ∃ triplet ∈ triplets, triplet.isAt row col = true := by
  simp only [mem_triplets]
  constructor
  · rintro ⟨value, stored⟩
    obtain ⟨rowInside, colInside⟩ := inside_of_ofTriplets stored
    rw [stored?_ofTriplets rowInside colInside] at stored
    refine ⟨rowInside, colInside, ?_⟩
    by_contra unnamed
    have nothing : triplets.filter (Triplet.isAt row col) = [] :=
      List.filter_eq_nil_iff.mpr fun triplet member here => unnamed ⟨triplet, member, here⟩
    rw [nothing] at stored
    cases stored
  · rintro ⟨rowInside, colInside, triplet, member, here⟩
    have named : (triplets.filter (Triplet.isAt row col)).map Triplet.value ≠ [] :=
      mt List.map_eq_nil_iff.mp (List.ne_nil_of_mem (List.mem_filter.mpr ⟨member, here⟩))
    obtain ⟨value, sum⟩ := Option.ne_none_iff_exists'.mp (mt runningSum?_eq_none.mp named)
    exact ⟨value, (stored?_ofTriplets rowInside colInside triplets).trans sum⟩

/-- In exact addition, what is stored is the sum of the values given for the place. -/
theorem value_of_mem_ofTriplets [Zero α] (laws : ExactAddition α) {rows cols : Nat}
    {triplets : List (Triplet α)} {triplet : Triplet α}
    (member : triplet ∈ (ofTriplets rows cols triplets).triplets) :
    triplet.value =
      ((triplets.filter (Triplet.isAt triplet.row triplet.col)).map Triplet.value).sum := by
  have stored := mem_triplets.mp member
  obtain ⟨rowInside, colInside⟩ := inside_of_ofTriplets stored
  rw [stored?_ofTriplets rowInside colInside, runningSum?_eq_some laws] at stored
  exact stored.2.symm

end SparseMatrix

/-! ## Part 4: three lists -/

/-- The indices below the lengths of all three lists at which they name the place. -/
def namings (rowIndices colIndices : List Nat) (values : List α) (row col : Nat) : List Nat :=
  (List.range (min (min rowIndices.length colIndices.length) values.length)).filter fun index =>
    rowIndices[index]? == some row && colIndices[index]? == some col

section Lists

variable {rowIndices colIndices : List Nat} {values : List α} {row col : Nat}

theorem mem_namings {index : Nat} : index ∈ namings rowIndices colIndices values row col ↔
    index < values.length ∧ rowIndices[index]? = some row ∧ colIndices[index]? = some col := by
  rw [namings, List.mem_filter, List.mem_range, Bool.and_eq_true, beq_iff_eq, beq_iff_eq]
  refine and_congr_left fun ⟨atRow, atCol⟩ => ?_
  have rowListed := (List.getElem?_eq_some_iff.mp atRow).1
  have colListed := (List.getElem?_eq_some_iff.mp atCol).1
  omega

namespace Triplet

theorem ofLists_eq_map [Zero α] : ofLists rowIndices colIndices values =
    (List.range (min (min rowIndices.length colIndices.length) values.length)).map fun index =>
      ⟨rowIndices.getD index 0, colIndices.getD index 0, values.getD index 0⟩ := by
  refine List.ext_getElem (by simp [ofLists]) fun index listed inRange => ?_
  simp only [ofLists, List.length_map, List.length_zip] at listed
  have rowListed : index < rowIndices.length := by omega
  have colListed : index < colIndices.length := by omega
  have valueListed : index < values.length := by omega
  simp [ofLists, rowListed, colListed, valueListed]

/-- The values given for a place are those of the indices that name it, in order. -/
theorem values_at_ofLists [Zero α] :
    ((ofLists rowIndices colIndices values).filter (isAt row col)).map value =
      (namings rowIndices colIndices values row col).map fun index => values.getD index 0 := by
  rw [ofLists_eq_map, List.filter_map, List.map_map, namings]
  refine congrArg (List.map _) (List.filter_congr fun index inRange => ?_)
  have bound := List.mem_range.mp inRange
  have rowListed : index < rowIndices.length := by omega
  have colListed : index < colIndices.length := by omega
  simp [isAt, rowListed, colListed]

theorem exists_mem_ofLists_iff : (∃ triplet ∈ ofLists rowIndices colIndices values,
    triplet.isAt row col = true) ↔ ∃ index, index ∈ namings rowIndices colIndices values row col := by
  simp only [mem_namings]
  constructor
  · rintro ⟨triplet, member, here⟩
    obtain ⟨item, listed, rfl⟩ := List.mem_map.mp member
    obtain ⟨index, found⟩ := List.mem_iff_getElem?.mp listed
    obtain ⟨places, valueFound⟩ := List.getElem?_zip_eq_some.mp found
    obtain ⟨rowFound, colFound⟩ := List.getElem?_zip_eq_some.mp places
    obtain ⟨rfl, rfl⟩ := isAt_iff.mp here
    exact ⟨index, (List.getElem?_eq_some_iff.mp valueFound).1, rowFound, colFound⟩
  · rintro ⟨index, listed, rowFound, colFound⟩
    have found : ((rowIndices.zip colIndices).zip values)[index]? =
        some ((row, col), values[index]) :=
      List.getElem?_zip_eq_some.mpr
        ⟨List.getElem?_zip_eq_some.mpr ⟨rowFound, colFound⟩, List.getElem?_eq_getElem listed⟩
    exact ⟨_, List.mem_map_of_mem (List.mem_of_getElem? found), isAt_iff.mpr ⟨rfl, rfl⟩⟩

end Triplet

end Lists

namespace SparseMatrix

variable [Zero α] [Add α]

/-- **What is built from three lists** of any lengths. The matrix has the dimensions asked for, and its
stored entries lie inside and ascend by column and then by row. A place inside is stored exactly if an
index below all three lengths names it, whatever the values are. In exact addition the stored value is
the sum of the values at the indices that name its place, and the triplets may be exchanged at will. A
matrix comes back from the three lists of its own triplets, in any arithmetic. -/
theorem ofCoordinates_canonical (rows cols : Nat) (rowIndices colIndices : List Nat)
    (values : List α) :
    let matrix := ofCoordinates rows cols rowIndices colIndices values
    (matrix.rows = rows ∧ matrix.cols = cols) ∧
      (∀ triplet ∈ matrix.triplets, triplet.row < rows ∧ triplet.col < cols) ∧
      matrix.triplets.Pairwise Triplet.Before ∧
      (∀ row col, (∃ value, ⟨row, col, value⟩ ∈ matrix.triplets) ↔
        row < rows ∧ col < cols ∧ ∃ index, index ∈ namings rowIndices colIndices values row col) ∧
      (ExactAddition α → ∀ triplet ∈ matrix.triplets, triplet.value =
        ((namings rowIndices colIndices values triplet.row triplet.col).map fun index =>
          values.getD index 0).sum) ∧
      (ExactAddition α → ∀ otherRows otherCols otherValues,
        (Triplet.ofLists rowIndices colIndices values).Perm
          (Triplet.ofLists otherRows otherCols otherValues) →
        ofCoordinates rows cols otherRows otherCols otherValues = matrix) ∧
      ∀ own : SparseMatrix α, ofCoordinates own.rows own.cols (own.triplets.map Triplet.row)
        (own.triplets.map Triplet.col) (own.triplets.map Triplet.value) = own := by
  intro matrix
  have built : matrix = ofTriplets rows cols (Triplet.ofLists rowIndices colIndices values) :=
    ofCoordinates_eq rows cols rowIndices colIndices values
  have rowCount : matrix.rows = rows := built ▸ rows_ofTriplets _ _ _
  have colCount : matrix.cols = cols := built ▸ cols_ofTriplets _ _ _
  refine ⟨⟨rowCount, colCount⟩, fun triplet member => ?_, matrix.triplets_ascending,
    fun row col => ?_, fun laws triplet member => ?_, fun laws _ _ _ same => ?_, fun own => ?_⟩
  · have inside := inside_of_stored? (mem_triplets.mp member)
    rwa [rowCount, colCount] at inside
  · rw [← Triplet.exists_mem_ofLists_iff, built]
    exact exists_mem_ofTriplets_iff
  · rw [← Triplet.values_at_ofLists]
    rw [built] at member
    exact value_of_mem_ofTriplets laws member
  · rw [built, ofCoordinates_eq]
    exact ofTriplets_perm laws rows cols same.symm
  · rw [ofCoordinates_eq, Triplet.ofLists_unzipped, ofTriplets_triplets]

/-- Lists of three lengths, with a place outside, a sum that cancels and an entry that nothing names;
the same triplets once more, from the last to the first. -/
theorem ofCoordinates_canonical_uneven_lists :
    let matrix : SparseMatrix Int :=
      .ofCoordinates 2 2 [1, 0, 0, 5, 1, 0] [0, 1, 1, 0, 0, 1, 1] [2, 3, -3, 9, 4]
    ExactAddition Int ∧ (∃ value, ⟨0, 1, value⟩ ∈ matrix.triplets) ∧
      (¬ ∃ value, ⟨0, 0, value⟩ ∈ matrix.triplets) ∧
      (∀ value, ⟨0, 1, value⟩ ∈ matrix.triplets → value = 0) ∧
      (∀ value, ⟨1, 0, value⟩ ∈ matrix.triplets → value = 6) ∧
      .ofCoordinates 2 2 [1, 5, 0, 0, 1] [0, 0, 1, 1, 0] [4, 9, -3, 3, 2] = matrix := by
  intro matrix
  have laws : ExactAddition Int := exactArithmetic_of_semiring.toExactAddition
  obtain ⟨_, _, _, stored, sums, exchanged, _⟩ := ofCoordinates_canonical 2 2
    [1, 0, 0, 5, 1, 0] [0, 1, 1, 0, 0, 1, 1] ([2, 3, -3, 9, 4] : List Int)
  refine ⟨laws, (stored 0 1).mpr ⟨by decide, by decide, 1, by decide⟩, fun found => ?_,
    fun value member => sums laws _ member, fun value member => sums laws _ member,
    exchanged laws _ _ _ (List.reverse_perm _).symm⟩
  obtain ⟨_, _, index, named⟩ := (stored 0 0).mp found
  cases named

end SparseMatrix

end AffineArrays
