/-
**Round trips over the diagonal.**

A vector that is put on a diagonal and read off again is the same vector, and so is its coefficient
form: the two row maps undo each other. The other way round, a matrix keeps its diagonal and loses the
rest, which shows only the first time.

* `diagVecOrigin_diagMatOrigin`: the way back from a diagonal and the way onto it cancel;
* `evaluate_recovered`, `form_recovered`: a vector comes back, its value and its form;
* `Value.beq_diagonalPart_iff`: the diagonal part is the whole exactly if only zeros stand beside it;
* `evaluate_kept`, `evaluate_kept_twice`: a matrix keeps its diagonal part, once and for all;
* `diagonal_round_trips`: all of this of the expressions that the constructors build.
-/

import AffineArrays.Proofs.Dispatch
import AffineArrays.Proofs.FloatEntries

set_option linter.unusedSectionVars false

namespace AffineArrays

variable {α : Type}

/-! ## Part 1: onto the diagonal and back -/

/-- What is read off at a place was put there from the same place. -/
theorem diagVecOrigin_diagMatOrigin (length place : Nat) :
    (diagMatOrigin length length place).bind (diagVecOrigin length (length * length)) =
      within length place := by
  unfold diagMatOrigin within
  by_cases inside : place < length
  · have onto : diagVecRow length place = some (position length place place) := diagVecRow_eq inside
    rw [if_pos inside, if_pos inside, Option.bind_some]
    exact ((undoes_diagVecRow _ _).leads place _).mpr ⟨position_lt inside inside, onto⟩
  · rw [if_neg inside, if_neg inside]
    rfl

theorem readDiagonal_spreadDiagonal [Zero α] {length : Nat} {entries : List α}
    (full : entries.length = length) :
    readDiagonal length length (spreadDiagonal length (length * length) entries) = entries := by
  have bounded : ∀ row col, diagVecOrigin length (length * length) row = some col →
      row < length * length := fun row col found =>
    (((undoes_diagVecRow length (length * length)).leads col row).mp found).1
  calc readDiagonal length length (spreadDiagonal length (length * length) entries)
    _ = gather length (diagMatOrigin length length)
          (gather (length * length) (diagVecOrigin length (length * length)) entries) := by
        rw [readDiagonal_eq_gather, spreadDiagonal_eq_gather]
    _ = gather length (within length) entries := by
        rw [gather_gather bounded, funext (diagVecOrigin_diagMatOrigin length)]
    _ = entries := gather_within full

/-- The main diagonal of a diagonal matrix is its diagonal. -/
theorem readDiagonal_ofDiagonal [Zero α] {length : Nat} {diagonal : List α}
    (full : diagonal.length = length) :
    readDiagonal length length (DenseMatrix.ofDiagonal diagonal).data.toList = diagonal := by
  rw [DenseMatrix.toList_ofDiagonal, full]
  exact readDiagonal_spreadDiagonal full

/-- The matrix with one entry on its diagonal has that entry. -/
theorem toList_ofDiagonal_single [Zero α] {diagonal : List α} (single : diagonal.length = 1) :
    (DenseMatrix.ofDiagonal diagonal).data.toList = diagonal := by
  obtain ⟨entry, rfl⟩ := List.length_eq_one_iff.mp single
  simp [DenseMatrix.ofDiagonal, DenseMatrix.ofEntries]

/-! ## Part 2: the diagonal part of an array -/

section DiagonalPart

variable [Zero α] [Add α] {value : Value α} {side : Nat}

/-- The square matrix with the main diagonal of an array, and zeros beside it. -/
def Value.diagonalPart (value : Value α) (side : Nat) : DenseMatrix α :=
  .ofDiagonal (readDiagonal side side value.flat)

theorem Value.shape_diagonalPart (value : Value α) (side : Nat) :
    (Value.dense (value.diagonalPart side)).shape = .matrix side side :=
  congrArg (fun side => Shape.matrix side side) (length_readDiagonal _ _ _)

/-- The diagonal part of a diagonal part is the same. -/
theorem Value.diagonalPart_diagonalPart (value : Value α) (side : Nat) :
    (Value.dense (value.diagonalPart side)).diagonalPart side = value.diagonalPart side :=
  congrArg DenseMatrix.ofDiagonal (readDiagonal_ofDiagonal (length_readDiagonal _ _ _))

/-- The diagonal part has the entries of the diagonal. -/
theorem Value.get?_diagonalPart (stored : value.WellStored) (shape : value.shape = .matrix side side)
    {row col : Nat} (rowInside : row < side) (colInside : col < side) :
    (value.diagonalPart side).get? row col = if row = col then value.entry? row col else some 0 := by
  have full : (readDiagonal side side value.flat).length = side := length_readDiagonal _ _ _
  rw [diagonalPart, DenseMatrix.get?_ofDiagonal (by rwa [full]) (by rwa [full])]
  by_cases on : row = col
  · rw [if_pos on, if_pos on, ← on]
    exact getElem?_readDiagonal stored shape rowInside rowInside rowInside
  · rw [if_neg on, if_neg on]

/-- **The diagonal part is the whole** exactly if nothing but zeros stands beside the diagonal, as long
as every entry compares equal to itself. -/
theorem Value.beq_diagonalPart_iff [BEq α] (stored : value.WellStored)
    (shape : value.shape = .matrix side side)
    (comparable : ∀ entry ∈ value.flat, (entry == entry) = true) :
    (value.flat == (Value.dense (value.diagonalPart side)).flat) = true ↔
      ∀ row col, row < side → col < side → row ≠ col →
        ∃ entry, value.entry? row col = some entry ∧ (entry == 0) = true := by
  have storedToo : (Value.dense (value.diagonalPart side)).WellStored := trivial
  rw [beq_flat_iff stored storedToo shape (value.shape_diagonalPart side)]
  constructor
  · intro alike row col rowInside colInside off
    obtain ⟨entry, _, found⟩ := exists_entry? stored shape rowInside colInside
    have zero := get?_diagonalPart stored shape rowInside colInside
    rw [if_neg off] at zero
    exact ⟨entry, found, alike row col rowInside colInside entry 0 found zero⟩
  · intro zeros row col rowInside colInside entry kept found here
    have read := (get?_diagonalPart stored shape rowInside colInside).symm.trans here
    -- on the diagonal an entry meets itself, beside it a zero
    by_cases on : row = col
    · rw [if_pos on, found] at read
      obtain ⟨listed, member, same⟩ := exists_entry? stored shape rowInside colInside
      cases read
      cases found.symm.trans same
      exact comparable _ member
    · rw [if_neg on] at read
      obtain ⟨other, same, zero⟩ := zeros row col rowInside colInside on
      cases read
      cases found.symm.trans same
      exact zero

end DiagonalPart

/-! ## Part 3: values -/

namespace Expr

section Values

variable [Zero α] [Add α] {values : Assignment α} {vector matrix : Expr α} {value : Value α}
  {length side : Nat}

theorem flat_length_of_vector (line : vector.shape = .vector length)
    (evaluated : vector.evaluate values = .ok value) (full : value.Full) :
    value.flat.length = length := by
  rw [value.length_flat, full, shape_of_evaluate evaluated, line, Shape.size_vector]

theorem evaluate_spread (line : vector.shape = .vector length)
    (evaluated : vector.evaluate values = .ok value) (full : value.Full) :
    (node .diagVec vector).evaluate values = .ok (.dense (.ofDiagonal value.flat)) := by
  refine evaluate_diagVec evaluated (by rw [line]; rfl) ?_
  rw [← value.length_flat, flat_length_of_vector line evaluated full, line, Shape.rows_vector]

theorem shape_spread (line : vector.shape = .vector length) :
    (node .diagVec vector).shape = .matrix length length := by
  rw [shape, line]
  rfl

/-- **A vector comes back** from the diagonal that it was put on. -/
theorem evaluate_recovered (line : vector.shape = .vector length)
    (evaluated : vector.evaluate values = .ok value) (full : value.Full) :
    (node .diagMat (node .diagVec vector)).evaluate values = .ok (.vector value.flat) := by
  have spread := evaluate_spread line evaluated full
  have square := shape_spread line
  have stored : (Value.dense (.ofDiagonal value.flat)).WellStored := trivial
  rw [evaluate_diagMat spread stored (by rw [square]; rfl)
    (by rw [square]; exact Nat.le_refl length), square, Shape.rows_matrix]
  exact congrArg (Except.ok ∘ Value.vector)
    (readDiagonal_ofDiagonal (flat_length_of_vector line evaluated full))

/-- **A matrix keeps its diagonal** when the diagonal is read off and put back. -/
theorem evaluate_kept (square : matrix.shape = .matrix side side)
    (evaluated : matrix.evaluate values = .ok value) (stored : value.WellStored) :
    (node .diagVec (node .diagMat matrix)).evaluate values =
      .ok (.dense (value.diagonalPart side)) := by
  have read := evaluate_diagMat evaluated stored (by rw [square]; rfl)
    (by rw [square]; exact Nat.le_refl side)
  rw [square, Shape.rows_matrix] at read
  have line : (node .diagMat matrix).shape = .vector side := by
    rw [shape, square]
    rfl
  exact evaluate_spread line read (Shape.size_vector _).symm

theorem shape_kept (square : matrix.shape = .matrix side side) :
    (node .diagVec (node .diagMat matrix)).shape = .matrix side side := by
  rw [shape, shape, square]
  rfl

/-- Keeping the diagonal a second time changes nothing. -/
theorem evaluate_kept_twice (square : matrix.shape = .matrix side side)
    (evaluated : matrix.evaluate values = .ok value) (stored : value.WellStored) :
    (node .diagVec (node .diagMat (node .diagVec (node .diagMat matrix)))).evaluate values =
      (node .diagVec (node .diagMat matrix)).evaluate values := by
  have once := evaluate_kept square evaluated stored
  rw [evaluate_kept (shape_kept square) once trivial, once, value.diagonalPart_diagonalPart]

end Values

end Expr

/-! ## Part 4: forms -/

section Forms

variable [Zero α] [One α] [Add α] [Magnitude α] [LE α] [DecidableLE α] {tolerances : Tolerances α}

/-- Onto the diagonal and back, every place of a vector keeps its source. -/
theorem AffineForm.Reads.source_recovered {tree : LinearTree α} {form : AffineForm α} {length : Nat}
    (reads : Reads tolerances tree form) (line : tree.shape = .vector length) :
    tree.diagVec.diagMat.source = tree.source := by
  funext place
  have rows : tree.shape.rows = length := by rw [line, Shape.rows_vector]
  calc tree.diagVec.diagMat.source place
    _ = (diagMatOrigin length length place).bind fun row =>
          (diagVecOrigin length (length * length) row).bind tree.source := by
        show (diagMatOrigin tree.shape.rows (Shape.vector tree.shape.rows).size place).bind
          (fun row => (diagVecOrigin tree.shape.rows
            (Shape.matrix tree.shape.rows tree.shape.rows).size row).bind tree.source) = _
        rw [rows, Shape.size_vector, Shape.size_matrix]
    _ = (within length place).bind tree.source := by
        rw [← Option.bind_assoc, diagVecOrigin_diagMatOrigin]
    _ = tree.source place := by
        by_cases inside : place < length
        · rw [within, if_pos inside, Option.bind_some]
        · rw [within, if_neg inside]
          refine (Option.eq_none_iff_forall_ne_some.mpr fun col found => inside ?_).symm
          have below := reads.source_inside found
          rwa [line, Shape.size_vector] at below

/-- **The form of a vector comes back** over a variable: reading off the diagonal undoes every move
of its rows. -/
theorem AffineForm.Reads.recovered {tree : LinearTree α} {form : AffineForm α} {id length : Nat}
    (reads : Reads tolerances tree form) (kept : ¬ magnitude (1 : α) ≤ tolerances.pruning)
    (leaf : tree.bottom.operation = .var id) (line : tree.shape = .vector length) :
    Reads tolerances tree.diagVec.diagMat form := by
  have around : Reads tolerances tree.diagVec.diagMat _ := (reads.diagVec _).diagMat _
  obtain ⟨matrix, selecting⟩ := reads.selectsVariable kept leaf
  obtain ⟨moved, selectingToo⟩ := around.selectsVariable kept leaf
  have shape : form.shape = tree.diagVec.diagMat.shape := by
    rw [reads.shape_eq, line]
    show _ = Shape.vector tree.shape.rows
    rw [line, Shape.rows_vector]
  rw [reads.source_recovered line] at selectingToo
  have same := selecting.unique selectingToo (shape.trans around.shape_eq.symm)
  exact same ▸ around

/-- So does the form of a variable, through both diagonals and the lowering. -/
theorem Expr.form_recovered {leaf : Variable} {length : Nat} (line : leaf.shape = .vector length)
    (kept : ¬ magnitude (1 : α) ≤ tolerances.pruning) :
    AffineForm.ofTree tolerances (node .diagMat (node .diagVec (var leaf)) : Expr α).tree =
      .ok (.var leaf.id (.vector length)) := by
  have reads : AffineForm.Reads tolerances (LinearTree.var leaf.shape leaf.id) _ :=
    .var leaf.id leaf.shape []
  rw [← line]
  exact (reads.recovered kept rfl line).ofTree_eq

end Forms

/-! ## Part 5: what the constructors build -/

namespace Expr

section Constructors

variable {vector matrix : Expr α} {length side : Nat}

theorem flatten_of_vector (line : vector.shape = .vector length) : vector.flatten = vector := by
  rw [flatten, line]
  exact if_pos rfl

theorem diagMat_diagVec (line : vector.shape = .vector length) :
    vector.diagVec.bind diagMat = .ok (node .diagMat (node .diagVec vector)) := by
  have first : vector.diagVec = .ok (node .diagVec vector) :=
    apply_eq_ok_iff.mpr ⟨Transform.check_diagVec.mpr (by rw [line]; exact Nat.succ_ne_zero 0), rfl⟩
  rw [first]
  exact apply_eq_ok_iff.mpr ⟨Transform.check_diagMat.mpr rfl, rfl⟩

theorem diagVec_diagMat (square : matrix.shape = .matrix side side) :
    matrix.diagMat.bind diagVec = .ok (node .diagVec (node .diagMat matrix)) := by
  have first : matrix.diagMat = .ok (node .diagMat matrix) :=
    apply_eq_ok_iff.mpr ⟨Transform.check_diagMat.mpr (by rw [square]; rfl), rfl⟩
  rw [first]
  exact apply_eq_ok_iff.mpr ⟨Transform.check_diagVec.mpr (Nat.succ_ne_zero 0), rfl⟩

theorem diag_of_vector (line : vector.shape = .vector length) :
    vector.diag = .ok (node .diagVec vector) := by
  rw [diag_of_line (line ▸ .vector length), flatten_of_vector line]

end Constructors

/-- The dispatcher leads back as well. Of a single entry it makes a matrix both times, for a matrix
with one entry is taken for a vector. -/
theorem evaluate_diag_diag [Zero α] [Add α] {values : Assignment α} {vector : Expr α}
    {value : Value α} {length : Nat} (line : vector.shape = .vector length)
    (evaluated : vector.evaluate values = .ok value) (full : value.Full) :
    ∃ result recovered, vector.diag.bind diag = .ok result ∧
      result.evaluate values = .ok recovered ∧ recovered.flat = value.flat ∧
      recovered.shape = if length = 1 then .matrix 1 1 else .vector length := by
  have spread := evaluate_spread line evaluated full
  have count := flat_length_of_vector line evaluated full
  have square := shape_spread line
  rw [diag_of_vector line]
  -- the matrix that is built first has one entry or is no vector, and the second choice turns on that
  by_cases single : length = 1
  · subst single
    have stored : (Value.dense (.ofDiagonal value.flat)).WellStored := trivial
    have once : (Value.dense (.ofDiagonal value.flat)).flat = value.flat :=
      toList_ofDiagonal_single count
    have again := evaluate_diagVec_flatten spread stored.full
    rw [once] at again
    exact ⟨_, _, diag_of_line (square ▸ .row (Nat.le_refl 1)), again, once,
      congrArg (fun side => Shape.matrix side side) count⟩
  · refine ⟨_, _, diag_of_square single square, evaluate_recovered line evaluated full, rfl, ?_⟩
    rw [if_neg single]
    exact congrArg Shape.vector count

/-! ## Part 6: the round trips -/

/-- A vector with these entries comes back from both diagonals, built directly or by dispatch. -/
structure RecoversVector (values : Assignment Float) (vector : Expr Float) (length : Nat)
    (entries : List Float) : Prop where
  count : entries.length = length
  direct : ∃ result, vector.diagVec.bind diagMat = .ok result ∧
    result.evaluate values = .ok (.vector entries)
  dispatched : ∃ result value, vector.diag.bind diag = .ok result ∧
    result.evaluate values = .ok value ∧ value.flat = entries ∧
    value.shape = if length = 1 then .matrix 1 1 else .vector length

/-- The form of a variable comes back from both diagonals: an identity matrix and nothing else. -/
structure RecoversForm (leaf : Variable) (length : Nat) (tolerances : Tolerances Float)
    (form : AffineForm Float) : Prop where
  read : ∃ result lowered, (var leaf : Expr Float).diagVec.bind diagMat = .ok result ∧
    result.lower = .ok lowered ∧ AffineForm.ofTree tolerances lowered.tree = .ok form
  coefficients : form.coefficients = IndexMap.empty.insert leaf.id (.identity length)
  constant : form.constant = List.replicate length 0
  shape : form.shape = .vector length

/-- The matrix is left with its diagonal, at once and for good, and that is all of it exactly if
every entry beside the diagonal was zero. -/
structure KeepsDiagonal (values : Assignment Float) (matrix : Expr Float) (side : Nat)
    (value : Value Float) (kept : Expr Float) (dense : DenseMatrix Float) : Prop where
  built : matrix.diagMat.bind diagVec = .ok kept
  evaluated : kept.evaluate values = .ok (.dense dense)
  rows : dense.rows = side
  cols : dense.cols = side
  entries : ∀ row col, row < side → col < side →
    dense.get? row col = if row = col then value.entry? row col else some 0
  again : ∃ twice, kept.diagMat.bind diagVec = .ok twice ∧
    twice.evaluate values = .ok (.dense dense)
  whole : (∀ entry ∈ value.flat, entry.isNaN = false) →
    ((value.flat == (Value.dense dense).flat) = true ↔
      ∀ row col, row < side → col < side → row ≠ col →
        ∃ entry, value.entry? row col = some entry ∧ (entry == 0) = true)

theorem keepsDiagonal {values : Assignment Float} {matrix : Expr Float} {side : Nat}
    {value : Value Float} (square : matrix.shape = .matrix side side)
    (evaluated : matrix.evaluate values = .ok value)
    (storage : value.storage = .dense ∨ value.storage = .sparse) :
    KeepsDiagonal values matrix side value (node .diagVec (node .diagMat matrix))
      (value.diagonalPart side) := by
  have shape : value.shape = .matrix side side := (shape_of_evaluate evaluated).trans square
  have stored : value.WellStored := by
    cases value with
    | dense matrix => trivial
    | sparse matrix => trivial
    | _ => rcases storage with dense | sparse <;> contradiction
  have once := evaluate_kept square evaluated stored
  obtain ⟨rows, cols⟩ := Shape.matrix_inj.mp (value.shape_diagonalPart side)
  exact {
    built := diagVec_diagMat square
    evaluated := once
    rows := rows
    cols := cols
    entries := fun _ _ => Value.get?_diagonalPart stored shape
    again := ⟨_, diagVec_diagMat (shape_kept square),
      (evaluate_kept_twice square evaluated stored).trans once⟩
    whole := fun numbers => by
      refine Value.beq_diagonalPart_iff stored shape fun entry member => ?_
      exact FloatEntries.beq_self_of_number (numbers entry member) }

/-- **Round trips over the diagonal**, for every length and in every storage. A vector comes back as it
was, and so does the form of a variable unless the tolerances prune a one. A matrix keeps its diagonal. -/
theorem diagonal_round_trips (values : Assignment Float) :
    (∀ (vector : Expr Float) (length : Nat) (value : Value Float), vector.shape = .vector length →
        vector.evaluate values = .ok value → value.Full →
        RecoversVector values vector length value.flat) ∧
      (∀ (leaf : Variable) (length : Nat) (tolerances : Tolerances Float),
        leaf.shape = .vector length → ¬ magnitude (1 : Float) ≤ tolerances.pruning →
        ∃ form, RecoversForm leaf length tolerances form) ∧
      ∀ (matrix : Expr Float) (side : Nat) (value : Value Float), matrix.shape = .matrix side side →
        matrix.evaluate values = .ok value → value.storage = .dense ∨ value.storage = .sparse →
        ∃ kept dense, KeepsDiagonal values matrix side value kept dense := by
  refine ⟨fun vector length value line evaluated full => ?_,
    fun leaf length tolerances line kept => ?_, fun matrix side value square evaluated storage => ?_⟩
  · exact {
      count := flat_length_of_vector line evaluated full
      direct := ⟨_, diagMat_diagVec line, evaluate_recovered line evaluated full⟩
      dispatched := evaluate_diag_diag line evaluated full }
  · have lineToo : (var leaf : Expr Float).shape = .vector length := line
    exact ⟨_, {
      read := ⟨_, _, diagMat_diagVec lineToo, lower_eq _, form_recovered line kept⟩
      coefficients := by rw [AffineForm.var, Shape.size_vector]
      constant := by rw [AffineForm.var, Shape.size_vector]
      shape := rfl }⟩
  · exact ⟨_, _, keepsDiagonal square evaluated storage⟩

/-- A negative zero comes back as the one entry of a matrix, the form of a variable is read under the
standard tolerances, and a sparse matrix loses what stood above its diagonal. -/
theorem diagonal_round_trips_single_and_sparse :
    let single : Expr Float := .const (.vector [-0.0])
    let leaf : Variable := .declare 3 (.vector 2) none []
    let upper : Expr Float := .const (.sparse (.ofTriplets 2 2 [⟨0, 0, 3⟩, ⟨0, 1, 9⟩]))
    let values : Assignment Float := fun _ => none
    (∃ result value, single.diag.bind diag = .ok result ∧ result.evaluate values = .ok value ∧
        value.flat = [-0.0] ∧ value.shape = .matrix 1 1) ∧
      (∃ form, RecoversForm leaf 2 .standard form) ∧
      ∃ kept dense, upper.diagMat.bind diagVec = .ok kept ∧
        kept.evaluate values = .ok (.dense dense) ∧ dense.get? 0 1 = some 0 ∧
        ¬ ((Value.sparse (.ofTriplets 2 2 [⟨0, 0, 3⟩, ⟨0, 1, 9⟩])).flat ==
          (Value.dense dense).flat) = true := by
  intro single leaf upper values
  obtain ⟨vectors, forms, matrices⟩ := diagonal_round_trips values
  refine ⟨?_, forms leaf 2 .standard rfl (by decide), ?_⟩
  · obtain ⟨result, value, built, evaluated, flat, shape⟩ :=
      (vectors single 1 (.vector [-0.0]) rfl rfl rfl).dispatched
    exact ⟨result, value, built, evaluated, flat, shape⟩
  · obtain ⟨kept, dense, keeps⟩ := matrices upper 2 _ rfl rfl (.inr rfl)
    refine ⟨kept, dense, keeps.built, keeps.evaluated, ?_, fun alike => ?_⟩
    · exact keeps.entries 0 1 (by decide) (by decide)
    · have numbers : ∀ entry ∈ (Value.sparse (.ofTriplets 2 2 [⟨0, 0, 3⟩, ⟨0, 1, 9⟩])).flat,
          Float.isNaN entry = false := by decide
      obtain ⟨entry, found, zero⟩ :=
        (keeps.whole numbers).mp alike 0 1 (by decide) (by decide) (by decide)
      cases found
      exact absurd zero (by decide)

end Expr

end AffineArrays
