/-
**Counts along a spine.**

Reading a form off a tree computes counts: the size of a leaf, the two sizes that a reshape compares,
the size of a diagonal, and a stride and a place for every row that a diagonal is asked for. A tree that
is written by hand declares its shapes freely, so any of these may be too large for a word, even over a
leaf of one entry. If none is, a tree is read in every build as it is read exactly; if one is, a build
with checks of overflow stops there.

* `scatterIn_of_fits`, `scatterIn_of_failure`: rows moved in range, and a row that stops the move;
* `Reads.length_constant_eq`: how many rows a diagonal is asked for;
* `LinearTree.CountsFit`: the counts that are computed up to the first failure fit;
* `ofTreeIn_of_countsFit`, `ofTreeIn_checked_of_not_countsFit`: how a tree is read in range, and how a
  checked build reads any other;
* `reads_of_ofTreeIn`: what a checked build reads is the exact form;
* `ofTreeIn_decided_by_spine`: the answer for every tree.
-/

import AffineArrays.Proofs.Dimensions
import AffineArrays.Proofs.SpineFaults
import AffineArrays.Word.Forms

set_option linter.unusedSectionVars false

namespace AffineArrays

variable {α : Type}

/-! ## Part 1: moving rows by a map that may stop -/

/-- Only the rows of the entries that are kept are looked up. -/
theorem SparseMatrix.scatterRows_congr_target [Add α] [Magnitude α] [LE α] [DecidableLE α]
    {matrix : SparseMatrix α} {rows : Nat} {pruning : α} {first second : Nat → Option Nat}
    (same : ∀ triplet ∈ matrix.triplets, ¬ magnitude triplet.value ≤ pruning →
      first triplet.row = second triplet.row) :
    matrix.scatterRows rows pruning first = matrix.scatterRows rows pruning second := by
  have moved : matrix.movedTriplets pruning first = matrix.movedTriplets pruning second := by
    refine List.filterMap_congr fun triplet stored => ?_
    split
    · rfl
    · rename_i kept
      rw [same triplet stored kept]
  rw [scatterRows_eq, scatterRows_eq, moved]

/-- Only the places of the entries of a list are looked up. -/
theorem moveEntries_congr [Zero α] {size : Nat} {first second : Nat → Option Nat}
    {entries : List α} (same : ∀ row, row < entries.length → first row = second row) :
    moveEntries size first entries = moveEntries size second entries := by
  refine congrArg Array.toList (List.foldl_ext _ _ _ fun moved item member => ?_)
  rw [same item.2 (List.snd_lt_of_mem_zipIdx member)]

namespace AffineForm

section Moved

variable [Zero α] [Add α] [Magnitude α] [LE α] [DecidableLE α] {form : AffineForm α} {shape : Shape}
  {pruning : α} {target : Nat → Except Error (Option Nat)}

theorem mem_askedRows_of_triplet {id : Nat} {matrix : SparseMatrix α} {triplet : Triplet α}
    (member : (id, matrix) ∈ form.coefficients.entries) (stored : triplet ∈ matrix.triplets)
    (kept : ¬ magnitude triplet.value ≤ pruning) : triplet.row ∈ form.askedRows pruning := by
  refine List.mem_append_left _ (List.mem_flatMap.mpr ⟨matrix, ?_, ?_⟩)
  · exact List.mem_map_of_mem (f := Prod.snd) member
  · exact List.mem_map_of_mem (List.mem_filter.mpr ⟨stored, decide_eq_true kept⟩)

theorem mem_askedRows_of_constant {row : Nat} (inside : row < form.constant.length) :
    row ∈ form.askedRows pruning :=
  List.mem_append_right _ (List.mem_range.mpr inside)

/-- **Rows moved in range are moved exactly.** -/
theorem scatterIn_of_fits (build : Build) {exact : Nat → Option Nat} (fits : shape.Fits)
    (same : ∀ row ∈ form.askedRows pruning, target row = .ok (exact row)) :
    form.scatterIn build shape pruning target = .ok (form.scatter shape pruning exact) := by
  have answered : (form.askedRows pruning).forM (fun row => discard (target row)) = .ok () :=
    forM_eq_ok fun row asked => by rw [same row asked]; rfl
  have place : ∀ row ∈ form.askedRows pruning, (target row).toOption.join = exact row :=
    fun row asked => by rw [same row asked]; rfl
  have coefficients : (form.coefficients.mapValues fun matrix =>
      matrix.scatterRows shape.size pruning fun row => (target row).toOption.join) =
      form.coefficients.mapValues fun matrix => matrix.scatterRows shape.size pruning exact :=
    IndexMap.mapValues_congr fun id matrix member =>
      SparseMatrix.scatterRows_congr_target fun triplet stored kept =>
        place _ (mem_askedRows_of_triplet member stored kept)
  have constant : moveEntries shape.size (fun row => (target row).toOption.join) form.constant =
      moveEntries shape.size exact form.constant :=
    moveEntries_congr fun row inside => place _ (mem_askedRows_of_constant inside)
  rw [scatterIn, Shape.sizeIn_of_fits build fits]
  show Except.bind ((form.askedRows pruning).forM _) _ = _
  rw [answered]
  show Except.ok (AffineForm.mk _ _ _) = _
  rw [coefficients, constant]
  rfl

/-- A row that stops the map stops the move. -/
theorem scatterIn_of_failure (build : Build) {failure : Error} {row : Nat} (fits : shape.Fits)
    (asked : row ∈ form.askedRows pruning) (stops : target row = .error failure)
    (only : ∀ other found, target other = .error found → found = failure) :
    form.scatterIn build shape pruning target = .error failure := by
  have stopped : (form.askedRows pruning).forM (fun row => discard (target row)) =
      .error failure := by
    refine forM_eq_error asked (by rw [stops]; rfl) fun other found failed => only other found ?_
    cases read : target other with
    | ok place => rw [read] at failed; cases failed
    | error cause => rw [read] at failed; cases failed; rfl
  rw [scatterIn, Shape.sizeIn_of_fits build fits]
  show Except.bind ((form.askedRows pruning).forM _) _ = _
  rw [stopped]
  rfl

theorem scatterIn_checked_of_not_fits (large : ¬ shape.Fits) :
    form.scatterIn .checked shape pruning target = .error .overflow := by
  rw [scatterIn, Shape.sizeIn_checked_of_not_fits large]
  rfl

end Moved

end AffineForm

/-! ## Part 2: the counts of a tree -/

namespace LinearTree

/-- The number of entries of the constant of a form that is read off the tree. -/
def count : LinearTree α → Nat
  | ⟨.scalarConstant _, _, _⟩ => 1
  | ⟨.denseConstant entries, _, _⟩ => entries.length
  | ⟨.sparseConstant matrix, _, _⟩ => matrix.rows * matrix.cols
  | ⟨.reshape, _, [input]⟩ => input.count
  | ⟨_, shape, _⟩ => shape.size

/-- The counts fit that are computed at the node itself: the size of a leaf that is written out, the
sizes that a reshape compares, and the size of a diagonal with its stride, and its places, for the rows
of its input. -/
def OwnCountsFit : LinearTree α → Prop
  | ⟨.var _, shape, _⟩ => shape.Fits
  | ⟨.sparseConstant matrix, _, _⟩ => matrix.rows * matrix.cols < wordLimit
  | ⟨.reshape, shape, [input]⟩ => input.shape.Fits ∧ shape.Fits
  | ⟨.diagVec, shape, [input]⟩ => shape.Fits ∧ ∀ row, row < input.count → row < shape.rows →
    shape.rows + 1 < wordLimit ∧ row * (shape.rows + 1) < wordLimit
  | ⟨.diagMat, shape, [input]⟩ =>
    shape.Fits ∧ (0 < input.count → input.shape.rows + 1 < wordLimit)
  | _ => True

/-- The counts fit that are computed along the spine. A node above a misfit computes none, since
reading has failed below it. -/
def CountsFit : LinearTree α → Prop
  | ⟨.reshape, shape, [input]⟩ =>
    input.CountsFit ∧ (input.misfits = [] → OwnCountsFit ⟨.reshape, shape, [input]⟩)
  | ⟨.diagVec, shape, [input]⟩ =>
    input.CountsFit ∧ (input.misfits = [] → OwnCountsFit ⟨.diagVec, shape, [input]⟩)
  | ⟨.diagMat, shape, [input]⟩ =>
    input.CountsFit ∧ (input.misfits = [] → OwnCountsFit ⟨.diagMat, shape, [input]⟩)
  | tree => tree.OwnCountsFit

variable {operation : Primitive α} {shape : Shape} {arguments : List (LinearTree α)}
  {input : LinearTree α}

theorem countsFit_leaf (leaf : operation.isLeaf = true) :
    (⟨operation, shape, arguments⟩ : LinearTree α).CountsFit ↔
      (⟨operation, shape, arguments⟩ : LinearTree α).OwnCountsFit := by
  cases operation with
  | reshape => cases leaf
  | diagVec => cases leaf
  | diagMat => cases leaf
  | _ => exact Iff.rfl

theorem countsFit_through (inner : operation.isLeaf = false) :
    (⟨operation, shape, [input]⟩ : LinearTree α).CountsFit ↔ input.CountsFit ∧
      (input.misfits = [] → (⟨operation, shape, [input]⟩ : LinearTree α).OwnCountsFit) := by
  rcases Primitive.inner_cases inner with rfl | rfl | rfl <;> exact Iff.rfl

end LinearTree

namespace AffineForm

variable [Zero α] [One α] [Add α] [Magnitude α] [LE α] [DecidableLE α] {tolerances : Tolerances α}
  {tree input : LinearTree α} {form : AffineForm α} {operation : Primitive α} {shape : Shape}

/-- A tree that has a form has no misfit. -/
theorem Reads.misfits_eq (reads : Reads tolerances tree form) : tree.misfits = [] := by
  induction reads with
  | var id shape ignored => rfl
  | @constant operation entries held shape ignored => cases operation <;> cases held <;> rfl
  | @reshape input form shape inner same step =>
    have fits : LinearTree.misfit? ⟨.reshape, shape, [input]⟩ = none :=
      if_pos (inner.shape_eq ▸ same)
    rw [LinearTree.misfits, (LinearTree.spine_through rfl).2, List.filterMap_cons_none fits]
    exact step
  | diagVec _ shape step => exact step
  | diagMat _ shape step => exact step

theorem Reads.length_constant_eq (reads : Reads tolerances tree form) :
    form.constant.length = tree.count := by
  induction reads with
  | var id shape ignored => exact List.length_replicate
  | @constant operation entries held shape ignored =>
    cases operation <;> cases held <;> try rfl
    exact SparseMatrix.size_flat _
  | reshape _ _ step => exact step
  | diagVec _ shape _ => exact length_moveEntries _ _ _
  | diagMat _ shape _ => exact length_moveEntries _ _ _

/-- A diagonal is asked for the rows of the constant of its input, and for no other. -/
theorem Reads.mem_askedRows_iff (reads : Reads tolerances tree form) {row : Nat} (pruning : α) :
    row ∈ form.askedRows pruning ↔ row < tree.count := by
  rw [← reads.length_constant_eq]
  refine ⟨fun asked => ?_, mem_askedRows_of_constant⟩
  rcases List.mem_append.mp asked with coefficient | constant
  · obtain ⟨matrix, held, listed⟩ := List.mem_flatMap.mp coefficient
    obtain ⟨⟨id, _⟩, member, rfl⟩ := List.mem_map.mp held
    obtain ⟨triplet, kept, rfl⟩ := List.mem_map.mp listed
    obtain ⟨_, rows, _, length⟩ := reads.dimensions member
    rw [length, ← rows]
    exact (SparseMatrix.inside_of_stored? (SparseMatrix.mem_triplets.mp
      (List.mem_filter.mp kept).1)).1
  · exact List.mem_range.mp constant

/-! ## Part 3: one node -/

/-- What a node makes of the form of its one input, with counts as a program computes them. -/
def passIn (build : Build) (tolerances : Tolerances α) (operation : Primitive α) (shape : Shape)
    (form : AffineForm α) : Except Error (AffineForm α) :=
  match operation with
  | .reshape => form.reshapeIn build shape
  | .diagVec => form.scatterIn build shape tolerances.pruning (diagVecRowIn build shape.rows)
  | .diagMat => do
    let size ← shape.sizeIn build
    form.scatterIn build shape tolerances.pruning (diagMatRowIn build form.shape.rows size)
  | _ => .ok form

theorem ofTreeIn_through (build : Build) (inner : operation.isLeaf = false) (shape : Shape)
    (input : LinearTree α) :
    ofTreeIn build tolerances ⟨operation, shape, [input]⟩ =
      (ofTreeIn build tolerances input).bind (passIn build tolerances operation shape) := by
  rcases Primitive.inner_cases inner with rfl | rfl | rfl <;> rfl

/-- A node without exactly one input is refused before anything is computed. -/
theorem ofTreeIn_fork (build : Build) (inner : operation.isLeaf = false) (shape : Shape)
    {arguments : List (LinearTree α)} (count : arguments.length ≠ 1) :
    ofTreeIn build tolerances ⟨operation, shape, arguments⟩ =
      .error (.argumentCount operation.tag 1 arguments.length) := by
  match arguments, count with
  | [], _ => rcases Primitive.inner_cases inner with rfl | rfl | rfl <;> rfl
  | [_], count => exact absurd rfl count
  | _ :: _ :: _, _ => rcases Primitive.inner_cases inner with rfl | rfl | rfl <;> rfl

/-- A leaf whose counts fit is read exactly. -/
theorem ofTreeIn_leaf_of_fits (build : Build) (leaf : operation.isLeaf = true)
    {ignored : List (LinearTree α)}
    (fits : (⟨operation, shape, ignored⟩ : LinearTree α).OwnCountsFit) :
    ofTreeIn build tolerances ⟨operation, shape, ignored⟩ =
      ofTree tolerances ⟨operation, shape, ignored⟩ := by
  cases operation with
  | var id =>
    simp only [ofTreeIn, ofTree, varIn, Shape.sizeIn_of_fits build fits]
    rfl
  | sparseConstant matrix =>
    simp only [ofTreeIn, ofTree, allot_of_lt fits]
    rfl
  | scalarConstant entry => simp only [ofTreeIn, ofTree]
  | denseConstant entries => simp only [ofTreeIn, ofTree]
  | _ => cases leaf

theorem ofTreeIn_checked_leaf_of_not_fits (leaf : operation.isLeaf = true)
    {ignored : List (LinearTree α)}
    (large : ¬ (⟨operation, shape, ignored⟩ : LinearTree α).OwnCountsFit) :
    ofTreeIn .checked tolerances ⟨operation, shape, ignored⟩ = .error .overflow := by
  cases operation with
  | var id =>
    simp only [ofTreeIn, varIn, Shape.sizeIn_checked_of_not_fits large]
    rfl
  | sparseConstant matrix =>
    simp only [ofTreeIn, allot_of_le (Nat.le_of_not_lt large)]
    rfl
  | scalarConstant entry => exact absurd trivial large
  | denseConstant entries => exact absurd trivial large
  | _ => cases leaf

/-- A node whose counts fit makes of a form exactly what it should. -/
theorem passIn_of_fits (build : Build) (inner : operation.isLeaf = false)
    (reads : Reads tolerances input form)
    (fits : (⟨operation, shape, [input]⟩ : LinearTree α).OwnCountsFit) :
    passIn build tolerances operation shape form = pass tolerances operation shape form := by
  rcases Primitive.inner_cases inner with rfl | rfl | rfl
  · have own : form.shape.Fits := reads.shape_eq ▸ fits.1
    exact reshapeIn_of_fits build own fits.2
  · exact scatterIn_of_fits build fits.1 fun row asked =>
      diagVecRowIn_of_lt build (fits.2 row ((reads.mem_askedRows_iff _).mp asked))
  · show (shape.sizeIn build).bind _ = _
    rw [Shape.sizeIn_of_fits build fits.1]
    refine scatterIn_of_fits build fits.1 fun row asked => ?_
    have listed : row < input.count := (reads.mem_askedRows_iff _).mp asked
    have stride : form.shape.rows + 1 < wordLimit :=
      reads.shape_eq ▸ fits.2 (Nat.zero_lt_of_lt listed)
    exact diagMatRowIn_of_lt build stride shape.size row

/-- Some row of the input has a stride or a place on the diagonal that is too large, and stops it. -/
theorem passIn_diagVec_of_not_fits (reads : Reads tolerances input form)
    (large : ¬ (⟨.diagVec, shape, [input]⟩ : LinearTree α).OwnCountsFit) :
    passIn .checked tolerances .diagVec shape form = .error .overflow := by
  by_cases size : shape.Fits
  · obtain ⟨row, listed, below, stops⟩ : ∃ row, row < input.count ∧ row < shape.rows ∧
        ¬ (shape.rows + 1 < wordLimit ∧ row * (shape.rows + 1) < wordLimit) := by
      by_contra none
      refine large ⟨size, fun row listed below => ?_⟩
      by_contra stops
      exact none ⟨row, listed, below, stops⟩
    exact scatterIn_of_failure .checked size ((reads.mem_askedRows_iff _).mpr listed)
      (diagVecRowIn_checked_of_not_lt below stops) fun _ _ => diagVecRowIn_checked_failure
  · exact scatterIn_checked_of_not_fits size

/-- The stride is too large, and stops at any row of the input. -/
theorem passIn_diagMat_of_not_fits (reads : Reads tolerances input form)
    (large : ¬ (⟨.diagMat, shape, [input]⟩ : LinearTree α).OwnCountsFit) :
    passIn .checked tolerances .diagMat shape form = .error .overflow := by
  show (shape.sizeIn .checked).bind _ = _
  by_cases size : shape.Fits
  · obtain ⟨listed, stops⟩ : 0 < input.count ∧ ¬ input.shape.rows + 1 < wordLimit := by
      by_contra none
      refine large ⟨size, fun listed => ?_⟩
      by_contra stops
      exact none ⟨listed, stops⟩
    rw [← reads.shape_eq] at stops
    have row : ∀ other, diagMatRowIn .checked form.shape.rows shape.size other =
        .error .overflow :=
      fun other => diagMatRowIn_checked_of_le (Nat.le_of_not_lt stops) shape.size other
    rw [Shape.sizeIn_of_fits .checked size]
    refine scatterIn_of_failure .checked size ((reads.mem_askedRows_iff _).mpr listed) (row 0)
      fun other found failed => ?_
    cases (row other).symm.trans failed
    rfl
  · rw [Shape.sizeIn_checked_of_not_fits size]
    rfl

/-- A checked build stops at a node with a count that does not fit. -/
theorem passIn_checked_of_not_fits (inner : operation.isLeaf = false)
    (reads : Reads tolerances input form)
    (large : ¬ (⟨operation, shape, [input]⟩ : LinearTree α).OwnCountsFit) :
    passIn .checked tolerances operation shape form = .error .overflow := by
  rcases Primitive.inner_cases inner with rfl | rfl | rfl
  · refine reshapeIn_checked_of_not_fits fun fits => large ?_
    rwa [reads.shape_eq] at fits
  · exact passIn_diagVec_of_not_fits reads large
  · exact passIn_diagMat_of_not_fits reads large

/-! ## Part 4: whole trees -/

/-- **In range a tree is read exactly**, in every build, and so are its faults. -/
theorem ofTreeIn_of_countsFit (build : Build) (counts : tree.CountsFit) :
    ofTreeIn build tolerances tree = ofTree tolerances tree := by
  induction tree using LinearTree.spine_induction with
  | leaf operation shape ignored kind =>
    exact ofTreeIn_leaf_of_fits build kind ((LinearTree.countsFit_leaf kind).mp counts)
  | fork operation shape arguments kind count =>
    rw [ofTreeIn_fork build kind shape count, ofTree_fork kind shape count]
  | through operation shape input kind step =>
    obtain ⟨below, own⟩ := (LinearTree.countsFit_through kind).mp counts
    rw [ofTreeIn_through build kind, ofTree_through kind, step below]
    cases read : ofTree tolerances input with
    | error failure => rfl
    | ok form =>
      have reads := reads_of_ofTree read
      exact passIn_of_fits build kind reads (own reads.misfits_eq)

/-- **Out of range a checked build stops**, if the spine ends in a leaf. -/
theorem ofTreeIn_checked_of_not_countsFit (leaf : tree.bottom.operation.isLeaf = true)
    (large : ¬ tree.CountsFit) : ofTreeIn .checked tolerances tree = .error .overflow := by
  induction tree using LinearTree.spine_induction with
  | leaf operation shape ignored kind =>
    exact ofTreeIn_checked_leaf_of_not_fits kind fun fits =>
      large ((LinearTree.countsFit_leaf kind).mpr fits)
  | fork operation shape arguments kind count =>
    rw [(LinearTree.spine_fork count).1, kind] at leaf
    cases leaf
  | through operation shape input kind step =>
    rw [(LinearTree.spine_through kind).1] at leaf
    rw [ofTreeIn_through .checked kind]
    by_cases below : input.CountsFit
    · -- the input is read, so it has no misfit, and the count is one of this node
      have own : input.misfits = [] ∧
          ¬ (⟨operation, shape, [input]⟩ : LinearTree α).OwnCountsFit := by
        by_contra none
        refine large ((LinearTree.countsFit_through kind).mpr ⟨below, fun fits => ?_⟩)
        by_contra stops
        exact none ⟨fits, stops⟩
      obtain ⟨form, read⟩ := (ofTree_of_leaf tolerances leaf).2
        (List.getLast?_eq_none_iff.mpr own.1)
      rw [ofTreeIn_of_countsFit .checked below, read]
      exact passIn_checked_of_not_fits kind (reads_of_ofTree read) own.2
    · rw [step leaf below]
      rfl

theorem ofTreeIn_of_fork (build : Build) (inner : tree.bottom.operation.isLeaf = false) :
    ofTreeIn build tolerances tree =
      .error (.argumentCount tree.bottom.operation.tag 1 tree.bottom.arguments.length) := by
  induction tree using LinearTree.spine_induction with
  | leaf operation shape ignored kind =>
    rw [(LinearTree.spine_leaf kind).1, kind] at inner
    cases inner
  | fork operation shape arguments kind count =>
    rw [(LinearTree.spine_fork count).1, ofTreeIn_fork build kind shape count]
  | through operation shape input kind step =>
    rw [(LinearTree.spine_through kind).1] at inner ⊢
    rw [ofTreeIn_through build kind, step inner]
    rfl

/-- **A tree is decided by its spine**, in every build and under any tolerances. If the spine does not
end in a leaf, it ends in a node without exactly one input, and that is the failure, whatever the counts.
Otherwise, if the counts up to the first failure fit, that failure is the deepest reshape to another size
than its input declares, and if there is none, the tree has a form. If some count does not fit, a checked
build stops at it. -/
theorem ofTreeIn_decided_by_spine (build : Build) (tolerances : Tolerances α)
    (tree : LinearTree α) :
    tree.spine.getLast? = some tree.bottom ∧
      (tree.bottom.operation.isLeaf = false → tree.bottom.arguments.length ≠ 1 ∧
        ofTreeIn build tolerances tree =
          .error (.argumentCount tree.bottom.operation.tag 1 tree.bottom.arguments.length)) ∧
      (tree.bottom.operation.isLeaf = true →
        (tree.CountsFit →
          (∀ asked found, tree.misfits.getLast? = some (asked, found) →
            ofTreeIn build tolerances tree =
              .error (.shapeMismatch (.elements asked.size) (.shape found))) ∧
          (tree.misfits = [] → ∃ form, ofTreeIn build tolerances tree = .ok form)) ∧
        (¬ tree.CountsFit → ofTreeIn .checked tolerances tree = .error .overflow)) := by
  refine ⟨tree.spine_getLast?, fun inner => ⟨LinearTree.length_arguments_bottom inner,
    ofTreeIn_of_fork build inner⟩, fun leaf => ⟨fun counts => ?_,
    ofTreeIn_checked_of_not_countsFit leaf⟩⟩
  obtain ⟨refused, accepted⟩ := ofTree_of_leaf tolerances leaf
  rw [ofTreeIn_of_countsFit build counts]
  exact ⟨refused, fun fits => accepted (List.getLast?_eq_none_iff.mpr fits)⟩

/-- A diagonal of two inputs is the fault below a misfit; of two misfits the deeper one is, whatever is
declared above it; and a leaf with an argument, under a diagonal of another size, is none. -/
theorem ofTreeIn_decided_by_spine_many_faults :
    let leaf : LinearTree Float := .var (.vector 2) 5
    let forked : LinearTree Float :=
      ⟨.reshape, .vector 7, [⟨.diagVec, .matrix 2 2, [leaf, leaf]⟩]⟩
    let stretched : LinearTree Float :=
      ⟨.reshape, .matrix 0x8000000000000000 2, [⟨.reshape, .matrix 1 3, [leaf]⟩]⟩
    let fitting : LinearTree Float :=
      ⟨.diagMat, .vector 9, [⟨.reshape, .matrix 2 1, [⟨.var 5, .vector 2, [forked]⟩]⟩]⟩
    ofTreeIn .unchecked ⟨0, 2⟩ forked = .error (.argumentCount "diag_vec" 1 2) ∧
      ofTreeIn .checked ⟨0, 2⟩ stretched =
        .error (.shapeMismatch (.elements 3) (.shape (.vector 2))) ∧
      (∃ form, ofTreeIn .unchecked ⟨0, 2⟩ fitting = .ok form) ∧
      ofTreeIn .checked ⟨0, 2⟩ (.var (.matrix 0x8000000000000000 2) 5 : LinearTree Float) =
        .error .overflow := by
  intro leaf forked stretched fitting
  have two : (Shape.vector 2).Fits := by decide
  have row : (Shape.matrix 1 3).Fits := by decide
  have column : (Shape.matrix 2 1).Fits := by decide
  have nine : (Shape.vector 9).Fits := by decide
  have large : ¬ (Shape.matrix 0x8000000000000000 2).Fits := by decide
  have stretchedFits : stretched.CountsFit := ⟨⟨two, fun _ => ⟨two, row⟩⟩, nofun⟩
  have fittingFits : fitting.CountsFit :=
    ⟨⟨two, fun _ => ⟨two, column⟩⟩, fun _ => ⟨nine, fun _ => (by decide : 2 + 1 < wordLimit)⟩⟩
  exact ⟨((ofTreeIn_decided_by_spine .unchecked ⟨0, 2⟩ forked).2.1 rfl).2,
    (((ofTreeIn_decided_by_spine .checked ⟨0, 2⟩ stretched).2.2 rfl).1 stretchedFits).1 _ _ rfl,
    (((ofTreeIn_decided_by_spine .unchecked ⟨0, 2⟩ fitting).2.2 rfl).1 fittingFits).2 rfl,
    ((ofTreeIn_decided_by_spine .checked ⟨0, 2⟩ _).2.2 rfl).2 large⟩

/-- One entry under a column that is as tall as a word allows has no diagonal in any build: the stride
overflows, or wraps to zero, and there is no remainder. The spine ends in a leaf and has no reshape. -/
theorem ofTreeIn_stops_at_tallest_column :
    let tree : LinearTree Float :=
      ⟨.diagMat, .vector 1, [⟨.scalarConstant 5, .matrix 0xFFFFFFFFFFFFFFFF 0, []⟩]⟩
    tree.bottom.operation.isLeaf = true ∧ tree.misfits = [] ∧
      ofTreeIn .checked .standard tree = .error .overflow ∧
      ofTreeIn .unchecked .standard tree = .error .zeroDivisor :=
  ⟨rfl, rfl, rfl, rfl⟩

end AffineForm

end AffineArrays
