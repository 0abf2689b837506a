/-
**What the transforms do to entries.**

On entries listed column by column the three transforms are the three rules of a tree's meaning,
in every storage. This is where the two ways to compute an expression meet: one computes on
arrays, the other on trees.

* `toList_ofDiagonal`, `leadingDiagonal_eq`: the dense computations, on lists;
* `Transform.flat_of_apply`: a transformed array has the moved entries;
* `Transform.mem_flat_of_apply`: and no others but zero;
* `Transform.meaning_lower`: so has the meaning of the lowered transform.
-/

import AffineArrays.Expr.Basic
import AffineArrays.Proofs.Meaning

set_option linter.unusedSectionVars false

namespace AffineArrays

variable {α : Type}

/-! ## Part 1: dense matrices -/

namespace DenseMatrix

variable [Zero α]

theorem getElem?_ofDiagonal {diagonal : List α} {place : Nat}
    (inside : place < diagonal.length * diagonal.length) :
    (ofDiagonal diagonal).data.toList[place]? =
      some (if place % diagonal.length = place / diagonal.length then
        diagonal.getD (place % diagonal.length) 0 else 0) := by
  simp [ofDiagonal, ofEntries, inside]

/-- A diagonal matrix lists its diagonal at every step of one more than its side. -/
theorem toList_ofDiagonal (diagonal : List α) :
    (ofDiagonal diagonal).data.toList =
      spreadDiagonal diagonal.length (diagonal.length * diagonal.length) diagonal := by
  refine List.ext_getElem? fun place => ?_
  by_cases inside : place < diagonal.length * diagonal.length
  · rw [getElem?_ofDiagonal inside]
    by_cases on : ∃ index, index < diagonal.length ∧ index * (diagonal.length + 1) = place
    · obtain ⟨index, below, rfl⟩ := on
      rw [spreadDiagonal_on below inside, ← position_diagonal, position_mod below,
        position_div below, if_pos rfl]
    · have apart : place % diagonal.length ≠ place / diagonal.length := by
        intro same
        refine on ⟨place % diagonal.length, mod_lt_of_lt_size inside, ?_⟩
        calc place % diagonal.length * (diagonal.length + 1)
            _ = position diagonal.length (place % diagonal.length) (place / diagonal.length) := by
              rw [← same, position_diagonal]
            _ = place := position_mod_div _ _
      rw [if_neg apart, spreadDiagonal_off inside]
      exact fun index below equal => on ⟨index, below, equal.symm⟩
  · rw [List.getElem?_eq_none, List.getElem?_eq_none]
    · simpa [spreadDiagonal] using inside
    · simpa [ofDiagonal, ofEntries] using inside

/-- The main diagonal can always be read. -/
theorem leadingDiagonal_eq (matrix : DenseMatrix α) :
    matrix.leadingDiagonal =
      .ok (readDiagonal matrix.rows (min matrix.rows matrix.cols) matrix.data.toList) := by
  obtain ⟨values, read, look⟩ := matrix.leadingDiagonal_eq_ok
  rw [read]
  refine congrArg Except.ok (List.map_injective_iff.mpr (fun _ _ => Option.some.inj) ?_)
  rw [← look, readDiagonal, List.map_map]
  refine List.map_congr_left fun index member => ?_
  have inside := List.mem_range.mp member
  have rowInside : index < matrix.rows := by omega
  have colInside : index < matrix.cols := by omega
  obtain ⟨entry, found⟩ := matrix.exists_get? rowInside colInside
  rw [found]
  rw [get?, if_pos ⟨rowInside, colInside⟩, ← Array.getElem?_toList] at found
  rw [Function.comp_apply, List.getD_eq_getElem?_getD, found]
  rfl

end DenseMatrix

/-! ## Part 2: values -/

namespace Value

variable [Zero α] [Add α] {value result : Value α}

/-- The array holds as many entries as its shape says. Only `tensor` storage may fail to. -/
def Full (value : Value α) : Prop := value.size = value.shape.size

theorem reshape_eq_ok_iff {target : Shape} :
    value.reshape target = .ok result ↔ ofFlat target value.flat = .ok result := by
  by_cases same : target.size = value.size
  · rw [reshape, if_pos same]
  · have wrong : value.flat.length ≠ target.size := by
      rw [length_flat]
      exact Ne.symm same
    rw [reshape, if_neg same, ofFlat_eq_error wrong]
    exact iff_of_false nofun nofun

theorem toVector_eq_ok_iff {entries : List α} :
    value.toVector = .ok entries ↔ value.shape.isVector = true ∧ value.flat = entries := by
  unfold toVector
  by_cases line : value.shape.isVector = true
  · rw [if_pos line]
    exact ⟨fun equal => ⟨line, Except.ok.inj equal⟩, fun found => congrArg Except.ok found.2⟩
  · rw [if_neg line]
    exact iff_of_false nofun fun found => line found.1

theorem toDense_spec {matrix : DenseMatrix α} (read : value.toDense = .ok matrix) :
    matrix.rows = value.shape.rows ∧ matrix.cols = value.shape.cols ∧
      matrix.data.toList = value.flat := by
  cases value <;> cases read <;> exact ⟨rfl, rfl, rfl⟩

end Value

/-! ## Part 3: transforms -/

namespace Transform

variable [Zero α] [Add α] {value result : Value α} {transform : Transform}

/-- What a transform does to the entries of an array, given its shape and that of the result. -/
def move : Transform → Shape → Shape → List α → List α
  | reshape _, _, _, entries => entries
  | diagVec, _, result, entries => spreadDiagonal result.rows result.size entries
  | diagMat, argument, result, entries => readDiagonal argument.rows result.size entries

theorem apply_reshape {target : Shape} :
    (reshape target).apply value = .ok result ↔ Value.ofFlat target value.flat = .ok result :=
  Value.reshape_eq_ok_iff

theorem apply_diagVec :
    diagVec.apply value = .ok result ↔
      value.shape.isVector = true ∧ result = .dense (.ofDiagonal value.flat) := by
  show value.toVector.bind _ = _ ↔ _
  rw [bind_eq_ok_iff]
  constructor
  · rintro ⟨entries, read, stored⟩
    obtain ⟨line, rfl⟩ := Value.toVector_eq_ok_iff.mp read
    exact ⟨line, (Except.ok.inj stored).symm⟩
  · rintro ⟨line, rfl⟩
    exact ⟨value.flat, Value.toVector_eq_ok_iff.mpr ⟨line, rfl⟩, rfl⟩

theorem apply_diagMat :
    diagMat.apply value = .ok result ↔ ∃ matrix, value.toDense = .ok matrix ∧
      result = .vector
        (readDiagonal value.shape.rows (min matrix.rows matrix.cols) value.flat) := by
  show value.toDense.bind _ = _ ↔ _
  rw [bind_eq_ok_iff]
  refine exists_congr fun matrix => and_congr_right fun read => ?_
  obtain ⟨rows, _, entries⟩ := Value.toDense_spec read
  show matrix.leadingDiagonal.bind _ = _ ↔ _
  rw [matrix.leadingDiagonal_eq, rows, entries]
  exact ⟨fun equal => (Except.ok.inj equal).symm, fun equal => congrArg Except.ok equal.symm⟩

/-- **The result of a transform has the moved entries.** -/
theorem flat_of_apply (applied : transform.apply value = .ok result) :
    result.flat = transform.move value.shape result.shape value.flat := by
  cases transform with
  | reshape target => exact (Value.ofFlat_spec (apply_reshape.mp applied)).2.2
  | diagVec =>
    obtain ⟨_, rfl⟩ := apply_diagVec.mp applied
    refine (DenseMatrix.toList_ofDiagonal value.flat).trans ?_
    rw [← Shape.size_matrix]
    rfl
  | diagMat =>
    obtain ⟨matrix, _, rfl⟩ := apply_diagMat.mp applied
    rw [move, Value.shape, Shape.size_vector, length_readDiagonal]
    rfl

/-- Combined entries are moved as each of the two lists is moved, if zeros combine to zero. -/
theorem move_zipWith {combine : α → α → α} (keeps : combine 0 0 = 0) {first second : List α}
    (same : first.length = second.length) (transform : Transform) (argument result : Shape) :
    transform.move argument result (List.zipWith combine first second) =
      List.zipWith combine (transform.move argument result first)
        (transform.move argument result second) := by
  cases transform with
  | reshape target => rfl
  | diagVec =>
    simp only [move, spreadDiagonal_eq_gather]
    exact gather_zipWith keeps same _ _
  | diagMat =>
    simp only [move, readDiagonal_eq_gather]
    exact gather_zipWith keeps same _ _

/-- A transform has no entries but those of the array, and zero. -/
theorem mem_flat_of_apply (applied : transform.apply value = .ok result) {entry : α}
    (member : entry ∈ result.flat) : entry = 0 ∨ entry ∈ value.flat := by
  rw [flat_of_apply applied] at member
  cases transform with
  | reshape target => exact .inr member
  | diagVec =>
    rw [move, spreadDiagonal_eq_gather] at member
    exact mem_gather member
  | diagMat =>
    rw [move, readDiagonal_eq_gather] at member
    exact mem_gather member

theorem forall_mem_flat_of_apply {holds : α → Prop} (applied : transform.apply value = .ok result)
    (zero : holds 0) (all : ∀ entry ∈ value.flat, holds entry) :
    ∀ entry ∈ result.flat, holds entry := by
  intro entry member
  rcases mem_flat_of_apply applied member with rfl | old
  · exact zero
  · exact all entry old

/-- **So has the meaning of the lowered transform.** -/
theorem meaning_lower (transform : Transform) (input : LinearTree α) (values : Assignment α) :
    (transform.lower input (transform.declaredShape input.shape)).meaning values =
      (input.meaning values).map
        (transform.move input.shape (transform.declaredShape input.shape)) := by
  cases transform with
  | reshape target =>
    rw [lower, LinearTree.reshape, LinearTree.meaning]
    exact Option.map_id'.symm
  | diagVec => rfl
  | diagMat => rfl

end Transform

end AffineArrays
