/-
**The stored entries of a sparse matrix, read through `stored?`.**

A sparse matrix keeps its entries in a keyed map, lists them as triplets and is built from
triplets. This module ties the three together:

* `mem_triplets`: the triplets are exactly the stored entries;
* `distinct_triplets`: no place is listed twice;
* `ext_stored?`, `ext_inside`: a matrix is its dimensions and what it stores;
* `stored?_ofTriplets`: a matrix built from triplets stores, at each place inside, the running sum
  of the values given for it;
* `stored?_ofTriplets_of_distinct`: from a list without repeated places it stores the list.
-/

import AffineArrays.SparseMatrix
import Mathlib.Data.List.Basic
import Mathlib.Data.List.Induction

namespace AffineArrays

namespace IndexMap

theorem mem_entries_iff {β : Type} {map : IndexMap β} {key : Nat} {value : β} :
    (key, value) ∈ map.entries ↔ map.get? key = some value := by
  obtain ⟨entries, ascending⟩ := map
  show (key, value) ∈ entries ↔ entries.lookup key = some value
  induction entries with
  | nil => simp
  | cons entry rest step =>
    obtain ⟨head, first⟩ := entry
    obtain ⟨below, tail⟩ := List.pairwise_cons.mp ascending
    rw [List.mem_cons, step tail, List.lookup_cons]
    by_cases same : key = head
    · subst same
      rw [lookup_eq_none_of_below below]
      simp [eq_comm]
    · have differ : (key == head) = false := by simpa using same
      simp [differ, same]

end IndexMap

namespace Triplet

variable {α : Type}

/-- The triplet names this place. -/
def isAt (row col : Nat) (triplet : Triplet α) : Bool :=
  triplet.row == row && triplet.col == col

theorem isAt_iff {row col : Nat} {triplet : Triplet α} :
    triplet.isAt row col = true ↔ triplet.row = row ∧ triplet.col = col := by
  simp [isAt]

/-- No two triplets of the list name one place. -/
def Distinct (triplets : List (Triplet α)) : Prop :=
  triplets.Pairwise fun first second => ¬ (first.row = second.row ∧ first.col = second.col)

/-- In a list without repeated places, a triplet is the only one at its place. -/
theorem Distinct.filter_isAt {triplets : List (Triplet α)} (distinct : Distinct triplets)
    {triplet : Triplet α} (member : triplet ∈ triplets) :
    triplets.filter (isAt triplet.row triplet.col) = [triplet] := by
  induction triplets with
  | nil => cases member
  | cons first rest step =>
    obtain ⟨apart, tail⟩ := List.pairwise_cons.mp distinct
    rcases List.mem_cons.mp member with rfl | inRest
    · have none : rest.filter (isAt triplet.row triplet.col) = [] := by
        refine List.filter_eq_nil_iff.mpr fun other inside found => ?_
        obtain ⟨sameRow, sameCol⟩ := isAt_iff.mp found
        exact apart other inside ⟨sameRow.symm, sameCol.symm⟩
      rw [List.filter_cons_of_pos (isAt_iff.mpr ⟨rfl, rfl⟩), none]
    · have elsewhere : ¬ first.isAt triplet.row triplet.col = true := fun found =>
        apart triplet inRest (isAt_iff.mp found)
      rw [List.filter_cons_of_neg elsewhere, step tail inRest]

end Triplet

namespace SparseMatrix

variable {α : Type}

/-! ## Part 1: the triplets of a matrix -/

/-- A matrix stores nothing outside its dimensions. -/
theorem inside_of_stored? {matrix : SparseMatrix α} {row col : Nat} {value : α}
    (stored : matrix.stored? row col = some value) : row < matrix.rows ∧ col < matrix.cols := by
  by_contra outside
  rw [stored?, if_neg outside] at stored
  cases stored

/-- The triplets of a matrix are exactly its stored entries. -/
theorem mem_triplets {matrix : SparseMatrix α} {triplet : Triplet α} :
    triplet ∈ matrix.triplets ↔ matrix.stored? triplet.row triplet.col = some triplet.value := by
  constructor
  · intro member
    obtain ⟨⟨key, value⟩, inside, rfl⟩ := List.mem_map.mp member
    have bound : key < matrix.rows * matrix.cols :=
      matrix.bounded key (List.mem_map_of_mem (f := Prod.fst) inside)
    have place : position matrix.rows (key % matrix.rows) (key / matrix.rows) = key :=
      position_mod_div matrix.rows key
    show matrix.stored? (key % matrix.rows) (key / matrix.rows) = some value
    rw [stored?, if_pos ⟨mod_lt_of_lt_size bound, div_lt_of_lt_size bound⟩, place]
    exact IndexMap.mem_entries_iff.mp inside
  · intro stored
    obtain ⟨rowInside, colInside⟩ := inside_of_stored? stored
    rw [stored?, if_pos ⟨rowInside, colInside⟩] at stored
    refine List.mem_map.mpr ⟨_, IndexMap.mem_entries_iff.mpr stored, ?_⟩
    rw [position_mod rowInside, position_div rowInside]

/-- No place is listed twice. -/
theorem distinct_triplets (matrix : SparseMatrix α) : Triplet.Distinct matrix.triplets := by
  refine List.pairwise_map.mpr (matrix.cells.ascending.imp ?_)
  rintro ⟨first, _⟩ ⟨second, _⟩ less ⟨sameRow, sameCol⟩
  have same : first = second := by
    rw [← position_mod_div matrix.rows first, ← position_mod_div matrix.rows second]
    exact congrArg₂ (position matrix.rows) sameRow sameCol
  exact absurd same (Nat.ne_of_lt less)

/-- Matrices of the same dimensions that store the same are equal. -/
theorem ext_stored? {first second : SparseMatrix α} (rows : first.rows = second.rows)
    (cols : first.cols = second.cols)
    (same : ∀ row col, first.stored? row col = second.stored? row col) : first = second := by
  obtain ⟨rowCount, colCount, cells, bounded⟩ := first
  obtain ⟨_, _, others, othersBounded⟩ := second
  cases rows
  cases cols
  have equal : cells = others := IndexMap.ext_get? fun index => by
    by_cases inside : index < rowCount * colCount
    · have places : index % rowCount < rowCount ∧ index / rowCount < colCount :=
        ⟨mod_lt_of_lt_size inside, div_lt_of_lt_size inside⟩
      have stored := same (index % rowCount) (index / rowCount)
      rw [stored?, stored?, if_pos places, if_pos places, position_mod_div] at stored
      exact stored
    · have absent : ∀ map : IndexMap α, (∀ key ∈ map.keys, key < rowCount * colCount) →
          map.get? index = none := fun map below =>
        Option.not_isSome_iff_eq_none.mp fun found => inside (below _ (IndexMap.isSome_get?_iff.mp found))
      rw [absent cells bounded, absent others othersBounded]
  cases equal
  rfl

/-- Matrices of the same dimensions that store the same inside are equal. -/
theorem ext_inside {first second : SparseMatrix α} (rows : first.rows = second.rows)
    (cols : first.cols = second.cols)
    (same : ∀ row col, row < second.rows → col < second.cols →
      first.stored? row col = second.stored? row col) : first = second := by
  refine ext_stored? rows cols fun row col => ?_
  by_cases inside : row < second.rows ∧ col < second.cols
  · exact same row col inside.1 inside.2
  · rw [stored?, stored?, if_neg inside, if_neg (by rwa [rows, cols])]

/-! ## Part 2: matrices built from triplets -/

/-- The values added from left to right; no value has no sum. -/
def runningSum? [Add α] : List α → Option α
  | [] => none
  | first :: rest => some (rest.foldl (· + ·) first)

theorem runningSum?_concat [Add α] (values : List α) (last : α) :
    runningSum? (values ++ [last]) = some (match runningSum? values with
      | some sum => sum + last
      | none => last) := by
  cases values with
  | nil => rfl
  | cons first rest => simp [runningSum?, List.foldl_append]

@[simp] theorem stored?_zero (rows cols row col : Nat) :
    (zero rows cols : SparseMatrix α).stored? row col = none := by
  unfold stored?
  split <;> rfl

/-- A matrix built from triplets stores the running sum of the values given for a place. -/
theorem stored?_ofTriplets [Add α] {rows cols row col : Nat} (rowInside : row < rows)
    (colInside : col < cols) (triplets : List (Triplet α)) :
    (ofTriplets rows cols triplets).stored? row col =
      runningSum? ((triplets.filter (Triplet.isAt row col)).map Triplet.value) := by
  -- the list is taken apart at its end, where the last value is added
  induction triplets using List.reverseRecOn with
  | nil => exact stored?_zero rows cols row col
  | append_singleton before last step =>
    have built : ofTriplets rows cols (before ++ [last]) = (ofTriplets rows cols before).add last :=
      List.foldl_append
    rw [built, stored?_add _ _ (by rwa [rows_ofTriplets]) (by rwa [cols_ofTriplets]), step,
      List.filter_append, List.map_append]
    by_cases here : row = last.row ∧ col = last.col
    · have found : last.isAt row col = true := Triplet.isAt_iff.mpr ⟨here.1.symm, here.2.symm⟩
      rw [if_pos here, List.filter_cons_of_pos found]
      exact (runningSum?_concat _ _).symm
    · have missed : ¬ last.isAt row col = true := fun found =>
        here ⟨(Triplet.isAt_iff.mp found).1.symm, (Triplet.isAt_iff.mp found).2.symm⟩
      rw [if_neg here, List.filter_cons_of_neg missed]
      simp

theorem inside_of_ofTriplets [Add α] {rows cols row col : Nat} {triplets : List (Triplet α)}
    {value : α} (stored : (ofTriplets rows cols triplets).stored? row col = some value) :
    row < rows ∧ col < cols := by
  have inside := inside_of_stored? stored
  rwa [rows_ofTriplets, cols_ofTriplets] at inside

/-- From a list without repeated places, a matrix stores exactly the list, as far as it lies
inside. -/
theorem stored?_ofTriplets_of_distinct [Add α] {rows cols row col : Nat} {value : α}
    {triplets : List (Triplet α)} (distinct : Triplet.Distinct triplets) :
    (ofTriplets rows cols triplets).stored? row col = some value ↔
      row < rows ∧ col < cols ∧ ⟨row, col, value⟩ ∈ triplets := by
  by_cases inside : row < rows ∧ col < cols
  · rw [stored?_ofTriplets inside.1 inside.2]
    constructor
    · intro sum
      have some : triplets.filter (Triplet.isAt row col) ≠ [] := by
        intro empty
        rw [empty] at sum
        cases sum
      obtain ⟨⟨foundRow, foundCol, foundValue⟩, member⟩ := List.exists_mem_of_ne_nil _ some
      obtain ⟨listed, place⟩ := List.mem_filter.mp member
      obtain ⟨rfl, rfl⟩ := Triplet.isAt_iff.mp place
      rw [distinct.filter_isAt listed] at sum
      cases sum
      exact ⟨inside.1, inside.2, listed⟩
    · rintro ⟨_, _, listed⟩
      rw [distinct.filter_isAt listed]
      rfl
  · constructor
    · intro stored
      exact absurd (inside_of_ofTriplets stored) inside
    · rintro ⟨rowInside, colInside, _⟩
      exact absurd ⟨rowInside, colInside⟩ inside

end SparseMatrix

end AffineArrays
