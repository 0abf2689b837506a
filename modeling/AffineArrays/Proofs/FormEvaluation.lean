/-
**Evaluating affine forms.**

The evaluator adds one coefficient after the other into a list of sums. Inside its bounds this
never fails, and each sum receives the coefficients of its own row. Two kinds of forms arise from
trees: without a variable, and with one variable under a zero-one matrix.

* `addProduct_eq_ok`: a product with fitting dimensions is added row by row;
* `evaluate_of_no_variable`: the form without variables is its constant;
* `SelectsVariable.evaluate`: under a zero-one matrix and a zero constant, every entry is zero or
  `0 + 1 * x` for the entry `x` that its row selects.
-/

import AffineArrays.Proofs.Selection
import Mathlib.Data.List.Forall2

namespace AffineArrays

variable {α : Type}

namespace AffineForm

/-! ## Part 1: one product -/

section Product

variable [Zero α] [Add α] [Mul α]

/-- A sum after the listed coefficients of one row were added to it, from left to right. -/
def rowSum (triplets : List (Triplet α)) (input : Array α) (row : Nat) (sum : α) : α :=
  (triplets.filter fun triplet => triplet.row == row).foldl
    (fun sum triplet => sum + triplet.value * input.getD triplet.col 0) sum

theorem rowSum_cons_of_eq {first : Triplet α} {rest : List (Triplet α)} {input : Array α}
    {row : Nat} {entry sum : α} (here : first.row = row) (read : input[first.col]? = some entry) :
    rowSum (first :: rest) input row sum = rowSum rest input row (sum + first.value * entry) := by
  have found : input.getD first.col 0 = entry := by rw [Array.getD_eq_getD_getElem?, read]; rfl
  rw [rowSum, List.filter_cons_of_pos (by simpa using here), List.foldl_cons, found]
  rfl

theorem rowSum_cons_of_ne {first : Triplet α} {rest : List (Triplet α)} {row : Nat}
    (elsewhere : first.row ≠ row) (input : Array α) (sum : α) :
    rowSum (first :: rest) input row sum = rowSum rest input row sum := by
  rw [rowSum, List.filter_cons_of_neg (by simpa using elsewhere)]
  rfl

theorem foldlM_addProduct {triplets : List (Triplet α)} {input : Array α} (sums : Array α)
    (inside : ∀ triplet ∈ triplets, triplet.row < sums.size ∧ triplet.col < input.size) :
    ∃ result : Array α, triplets.foldlM (fun sums triplet =>
        match input[triplet.col]? with
        | none => Except.error (Error.outOfRange triplet.col input.size)
        | some entry =>
          if triplet.row < sums.size then .ok (sums.modify triplet.row (· + triplet.value * entry))
          else .error (.outOfRange triplet.row sums.size)) sums = .ok result ∧
      result.size = sums.size ∧
      ∀ row, result[row]? = sums[row]?.map (rowSum triplets input row) := by
  induction triplets generalizing sums with
  | nil => exact ⟨sums, rfl, rfl, fun row => Option.map_id'.symm⟩
  | cons first rest step =>
    obtain ⟨rowInside, colInside⟩ := inside first List.mem_cons_self
    have read : input[first.col]? = some input[first.col] := Array.getElem?_eq_getElem colInside
    obtain ⟨result, added, size, rows⟩ :=
      step (sums.modify first.row (· + first.value * input[first.col])) fun other member => by
        rw [Array.size_modify]
        exact inside other (List.mem_cons_of_mem _ member)
    refine ⟨result, ?_, by rw [size, Array.size_modify], fun row => ?_⟩
    · rw [List.foldlM_cons, read]
      show (if first.row < sums.size then _ else _ : Except Error (Array α)).bind _ = _
      rw [if_pos rowInside]
      exact added
    · rw [rows, Array.getElem?_modify]
      by_cases here : first.row = row
      · rw [if_pos here, Option.map_map]
        exact congrArg (Option.map · _) (funext fun sum => (rowSum_cons_of_eq here read).symm)
      · rw [if_neg here]
        exact congrArg (Option.map · _)
          (funext fun sum => (rowSum_cons_of_ne here input sum).symm)

/-- A product with fitting dimensions is added row by row. -/
theorem addProduct_eq_ok {matrix : SparseMatrix α} {input sums : Array α}
    (rows : matrix.rows = sums.size) (cols : matrix.cols = input.size) :
    ∃ result, addProduct matrix input sums = .ok result ∧ result.size = sums.size ∧
      ∀ row, result[row]? = sums[row]?.map (rowSum matrix.triplets input row) :=
  foldlM_addProduct sums fun _ member => by
    have stored := SparseMatrix.inside_of_stored? (SparseMatrix.mem_triplets.mp member)
    rwa [rows, cols] at stored

/-! ## Part 2: forms with at most one variable -/

/-- The form without variables is its constant. -/
theorem evaluate_of_no_variable {form : AffineForm α} (free : form.coefficients = .empty)
    (values : Assignment α) : form.evaluate values = Value.ofFlat form.shape form.constant := by
  rw [evaluate, free]
  rfl

theorem evaluate_of_one_variable {form : AffineForm α} {id : Nat} {matrix : SparseMatrix α}
    (only : form.coefficients = IndexMap.empty.insert id matrix) {values : Assignment α}
    {value : Value α} (given : values id = some value) (fits : value.size = matrix.cols) :
    form.evaluate values =
      (addProduct matrix value.flat.toArray form.constant.toArray).bind fun sums =>
        Value.ofFlat form.shape sums.toList := by
  rw [evaluate, only, IndexMap.entries_insert_empty, List.foldlM_cons]
  simp only [given, if_pos fits]
  cases addProduct matrix value.flat.toArray form.constant.toArray <;> rfl

theorem evaluate_of_missing {form : AffineForm α} {id : Nat} {matrix : SparseMatrix α}
    (only : form.coefficients = IndexMap.empty.insert id matrix) {values : Assignment α}
    (missing : values id = none) : form.evaluate values = .error (.missingValue id) := by
  rw [evaluate, only, IndexMap.entries_insert_empty, List.foldlM_cons]
  simp only [missing]
  rfl

theorem evaluate_of_other_size {form : AffineForm α} {id : Nat} {matrix : SparseMatrix α}
    (only : form.coefficients = IndexMap.empty.insert id matrix) {values : Assignment α}
    {value : Value α} (given : values id = some value) (differs : value.size ≠ matrix.cols) :
    form.evaluate values =
      .error (.shapeMismatch (.elementsOfVariable matrix.cols id) (.count value.size)) := by
  rw [evaluate, only, IndexMap.entries_insert_empty, List.foldlM_cons]
  simp only [given, if_neg differs]
  rfl

/-- Without a value of the right size for its one variable, a form has no value. -/
theorem evaluate_ne_ok {form : AffineForm α} {id : Nat} {matrix : SparseMatrix α}
    (only : form.coefficients = IndexMap.empty.insert id matrix) {values : Assignment α}
    (unfit : ∀ value, values id = some value → value.size ≠ matrix.cols) (result : Value α) :
    form.evaluate values ≠ .ok result := by
  cases given : values id with
  | none =>
    rw [evaluate_of_missing only given]
    nofun
  | some value =>
    rw [evaluate_of_other_size only given (unfit value given)]
    nofun

end Product

/-! ## Part 3: forms that select -/

section Selecting

variable [Zero α] [One α]

/-- The form has one variable, of `cols` entries, under a zero-one matrix, and its constant is
zero. -/
structure SelectsVariable (form : AffineForm α) (id cols : Nat) (source : Nat → Option Nat)
    (matrix : SparseMatrix α) : Prop where
  coefficients : form.coefficients = IndexMap.empty.insert id matrix
  selects : matrix.Selects source
  rows : matrix.rows = form.shape.size
  cols : matrix.cols = cols
  constant : form.constant = List.replicate form.shape.size 0

theorem SelectsVariable.ids_eq {form : AffineForm α} {id cols : Nat} {source : Nat → Option Nat}
    {matrix : SparseMatrix α} (selecting : form.SelectsVariable id cols source matrix) :
    form.ids = [id] := by
  rw [ids, selecting.coefficients, IndexMap.keys, IndexMap.entries_insert_empty]
  rfl

theorem SelectsVariable.eq_of_mem {form : AffineForm α} {id cols : Nat}
    {source : Nat → Option Nat} {matrix : SparseMatrix α}
    (selecting : form.SelectsVariable id cols source matrix) {other : Nat} {found : SparseMatrix α}
    (member : (other, found) ∈ form.coefficients.entries) : other = id ∧ found = matrix := by
  rw [selecting.coefficients, IndexMap.entries_insert_empty] at member
  exact Prod.mk.inj (List.mem_singleton.mp member)

/-- Two forms of one shape that select the same are equal. -/
theorem SelectsVariable.unique {form other : AffineForm α} {id cols : Nat}
    {source : Nat → Option Nat} {matrix otherMatrix : SparseMatrix α}
    (selecting : form.SelectsVariable id cols source matrix)
    (selectingToo : other.SelectsVariable id cols source otherMatrix)
    (shape : form.shape = other.shape) : form = other := by
  have same : matrix = otherMatrix :=
    selecting.selects.unique selectingToo.selects
      (by rw [selecting.rows, selectingToo.rows, shape])
      (selecting.cols.trans selectingToo.cols.symm)
  have coefficients : form.coefficients = other.coefficients := by
    rw [selecting.coefficients, selectingToo.coefficients, same]
  have constant : form.constant = other.constant := by
    rw [selecting.constant, selectingToo.constant, shape]
  cases form
  cases other
  cases coefficients
  cases constant
  cases shape
  rfl

variable [Add α] [Mul α]

/-- What an entry may become when it is read through a coefficient: itself, or itself after a
product with one and a sum with zero. -/
def Agrees (direct carried : α) : Prop := carried = direct ∨ carried = 0 + 1 * direct

theorem eq_of_agrees (unit : ∀ entry : α, 0 + 1 * entry = entry) {direct carried : List α}
    (agrees : List.Forall₂ Agrees direct carried) : carried = direct := by
  induction agrees with
  | nil => rfl
  | cons first _ step =>
    rw [step]
    exact congrArg (· :: _) (first.elim id fun through => through.trans (unit _))

theorem agrees_gather (size : Nat) (source : Nat → Option Nat) (entries : List α) :
    List.Forall₂ Agrees (gather size source entries)
      (gather size source (entries.map (0 + 1 * ·))) := by
  rw [gather, gather, List.forall₂_map_left_iff, List.forall₂_map_right_iff, List.forall₂_same]
  intro place _
  cases source place with
  | none => exact .inl rfl
  | some col =>
    rw [Option.bind_some, Option.bind_some, List.getElem?_map]
    cases entries[col]? with
    | none => exact .inl rfl
    | some entry => exact .inr rfl

theorem rowSum_of_selects {matrix : SparseMatrix α} {source : Nat → Option Nat}
    (selects : matrix.Selects source) {entries : List α} (cols : matrix.cols = entries.length)
    (row : Nat) :
    rowSum matrix.triplets entries.toArray row 0 =
      ((source row).bind fun col => (entries.map (0 + 1 * ·))[col]?).getD 0 := by
  rw [rowSum, selects.filter_row]
  cases found : source row with
  | none => rfl
  | some col =>
    have inside : col < entries.length := cols ▸ (selects.inside found).2
    have read : entries[col]? = some entries[col] := List.getElem?_eq_getElem inside
    rw [Option.bind_some, List.getElem?_map, read]
    show 0 + 1 * entries.toArray.getD col 0 = 0 + 1 * entries[col]
    rw [Array.getD_eq_getD_getElem?, List.getElem?_toArray, read]
    rfl

/-- **A form that selects** has zero or `0 + 1 * x` at every place, for the entry `x` selected. -/
theorem SelectsVariable.evaluate {form : AffineForm α} {id cols : Nat} {source : Nat → Option Nat}
    {matrix : SparseMatrix α} (selecting : form.SelectsVariable id cols source matrix)
    {values : Assignment α} {value : Value α} (given : values id = some value)
    (fits : value.size = cols) :
    ∃ result, form.evaluate values = .ok result ∧ result.shape = form.shape ∧
      result.flat = gather form.shape.size source (value.flat.map (0 + 1 * ·)) := by
  have fitsMatrix : value.size = matrix.cols := fits.trans selecting.cols.symm
  have length : matrix.cols = value.flat.length := by rw [Value.length_flat, fitsMatrix]
  have rowsFit : matrix.rows = form.constant.toArray.size := by
    simp [selecting.rows, selecting.constant]
  have colsFit : matrix.cols = value.flat.toArray.size := by simp [length]
  obtain ⟨sums, added, size, entries⟩ := addProduct_eq_ok rowsFit colsFit
  have full : sums.toList.length = form.shape.size := by simp [size, selecting.constant]
  obtain ⟨result, stored, shape, flat⟩ := Value.ofFlat_eq_ok full
  refine ⟨result, ?_, shape, ?_⟩
  · rw [evaluate_of_one_variable selecting.coefficients given fitsMatrix, added]
    exact stored
  · rw [flat]
    refine eq_gather full fun place inside => ?_
    have start : form.constant.toArray[place]? = some 0 := by simp [selecting.constant, inside]
    rw [Array.getElem?_toList, entries, start, Option.map_some,
      rowSum_of_selects selecting.selects length]

end Selecting

end AffineForm

end AffineArrays
