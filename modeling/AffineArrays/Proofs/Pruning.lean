/-
**What pruning reaches.**

A tolerance is meant for all coefficients of a form, but it is only looked at when rows are moved. So a
diagonal on the spine prunes all that reaches it, from above or from below the tolerance, while the ones
of a variable stay if nothing but reshapes stands above it, also under a tolerance that prunes ones.

* `ofTree_keeps_ones`: a variable on its own is not pruned;
* `not_le_of_mem_scatterRows`: moving rows leaves nothing at or below the tolerance;
* `Reads.pruned_of_crossesDiagonal`, `Reads.eq_identity`: a form with a diagonal on its spine, and one
  without;
* `ofTree_pruned_iff`: the forms that keep the promise, exactly.
-/

import AffineArrays.Proofs.SpineFaults
import AffineArrays.Proofs.Occurrences
import AffineArrays.Proofs.ZeroOne

set_option linter.unusedSectionVars false

namespace AffineArrays

variable {α : Type}

/-- One of the two diagonals stands on the spine. -/
def LinearTree.CrossesDiagonal (tree : LinearTree α) : Prop :=
  ∃ node ∈ tree.spine, node.operation = .diagVec ∨ node.operation = .diagMat

/-- No stored coefficient is at or below the tolerance. -/
def AffineForm.Pruned [Magnitude α] [LE α] (pruning : α) (form : AffineForm α) : Prop :=
  ∀ id matrix, (id, matrix) ∈ form.coefficients.entries →
    ∀ triplet ∈ matrix.triplets, ¬ magnitude triplet.value ≤ pruning

/-! ## Part 1: a variable on its own -/

/-- The ones of a variable stay, under a tolerance of one. -/
theorem AffineForm.ofTree_keeps_ones :
    (∃ form, ofTree (⟨0, 1⟩ : Tolerances Float) (.var (.vector 2) 5) = .ok form ∧
        ¬ form.Pruned 1) ∧
      ¬ ∀ (tree : LinearTree Float) (tolerances : Tolerances Float) (form : AffineForm Float),
        tolerances.pruning.isNaN = false → ofTree tolerances tree = .ok form →
          form.Pruned tolerances.pruning := by
  have kept : ¬ (var 5 (.vector 2) : AffineForm Float).Pruned 1 := fun pruned =>
    pruned 5 (.identity 2) List.mem_cons_self ⟨0, 0, 1⟩ List.mem_cons_self (by decide)
  exact ⟨⟨_, rfl, kept⟩, fun uniform => kept (uniform (.var (.vector 2) 5) ⟨0, 1⟩ _ (by decide) rfl)⟩

/-! ## Part 2: moved rows -/

section Moved

variable [Add α] [Magnitude α] [LE α] [DecidableLE α]

/-- **Moving rows leaves nothing at or below the tolerance**, if no two rows meet. -/
theorem SparseMatrix.not_le_of_mem_scatterRows {matrix : SparseMatrix α} {rows : Nat} {pruning : α}
    {target origin : Nat → Option Nat} (undoes : Undoes rows target origin) {triplet : Triplet α}
    (member : triplet ∈ (matrix.scatterRows rows pruning target).triplets) :
    ¬ magnitude triplet.value ≤ pruning := by
  obtain ⟨row, col, value⟩ := triplet
  rw [mem_triplets, scatterRows_eq,
    stored?_ofTriplets_of_distinct (matrix.distinct_movedTriplets pruning undoes.injective),
    mem_movedTriplets] at member
  obtain ⟨_, _, _, _, _, above⟩ := member
  exact above

theorem AffineForm.pruned_scatter [Zero α] {shape : Shape} {target origin : Nat → Option Nat}
    (undoes : Undoes shape.size target origin) (form : AffineForm α) (pruning : α) :
    (form.scatter shape pruning target).Pruned pruning := by
  intro id matrix member triplet stored
  obtain ⟨⟨own, before⟩, _, moved⟩ := List.mem_map.mp member
  cases moved
  exact SparseMatrix.not_le_of_mem_scatterRows undoes stored

end Moved

/-! ## Part 3: diagonals on the spine -/

namespace LinearTree

variable {operation : Primitive α} {shape : Shape} {input : LinearTree α}

theorem not_crossesDiagonal_of_leaf (leaf : operation.isLeaf = true)
    (ignored : List (LinearTree α)) :
    ¬ (⟨operation, shape, ignored⟩ : LinearTree α).CrossesDiagonal := by
  rintro ⟨node, member, diagonal⟩
  rw [(spine_leaf leaf).2, List.mem_singleton] at member
  subst member
  rcases diagonal with rfl | rfl <;> cases leaf

theorem crossesDiagonal_through (inner : operation.isLeaf = false) :
    (⟨operation, shape, [input]⟩ : LinearTree α).CrossesDiagonal ↔
      (operation = .diagVec ∨ operation = .diagMat) ∨ input.CrossesDiagonal := by
  unfold CrossesDiagonal
  rw [(spine_through inner).2]
  exact List.exists_mem_cons_iff _ _ _

end LinearTree

namespace AffineForm

variable [Zero α] [One α] [Add α] [Magnitude α] [LE α] [DecidableLE α] {tolerances : Tolerances α}
  {tree : LinearTree α} {form : AffineForm α}

/-- A diagonal on the spine prunes all that reaches it, and reshapes above it change no coefficient. -/
theorem Reads.pruned_of_crossesDiagonal (reads : Reads tolerances tree form)
    (crosses : tree.CrossesDiagonal) : form.Pruned tolerances.pruning := by
  induction reads with
  | var id shape ignored =>
    exact absurd crosses (LinearTree.not_crossesDiagonal_of_leaf rfl ignored)
  | @constant operation entries held shape ignored =>
    exact fun _ _ member => nomatch member
  | reshape inner same step =>
    rcases (LinearTree.crossesDiagonal_through rfl).mp crosses with (here | here) | below
    · cases here
    · cases here
    · exact step below
  | diagVec _ shape _ => exact pruned_scatter (undoes_diagVecRow _ _) _ _
  | diagMat _ shape _ => exact pruned_scatter (undoes_diagMatRow _ _) _ _

/-- Without one, the coefficients are those of the leaf, and no tolerance is looked at. -/
theorem Reads.eq_identity (reads : Reads tolerances tree form) (straight : ¬ tree.CrossesDiagonal)
    {id : Nat} {matrix : SparseMatrix α} (member : (id, matrix) ∈ form.coefficients.entries) :
    tree.bottom.operation = .var id ∧ matrix = .identity tree.bottom.shape.size := by
  induction reads with
  | var own shape ignored =>
    cases List.mem_singleton.mp member
    exact ⟨rfl, rfl⟩
  | constant held shape ignored => cases member
  | reshape inner same step =>
    exact step (fun below => straight ((LinearTree.crossesDiagonal_through rfl).mpr (.inr below))) member
  | diagVec _ shape _ =>
    exact absurd ((LinearTree.crossesDiagonal_through rfl).mpr (.inl (.inl rfl))) straight
  | diagMat _ shape _ =>
    exact absurd ((LinearTree.crossesDiagonal_through rfl).mpr (.inl (.inr rfl))) straight

theorem exists_mem_coefficients (varies : form.ids ≠ []) :
    ∃ id matrix, (id, matrix) ∈ form.coefficients.entries := by
  obtain ⟨id, listed⟩ := List.exists_mem_of_ne_nil _ varies
  obtain ⟨⟨_, matrix⟩, member, rfl⟩ := List.mem_map.mp listed
  exact ⟨_, matrix, member⟩

/-- Without a diagonal, the ones of a variable with an entry stay. -/
theorem Reads.not_pruned (reads : Reads tolerances tree form) (straight : ¬ tree.CrossesDiagonal)
    (reached : magnitude (1 : α) ≤ tolerances.pruning) (varies : form.ids ≠ [])
    (filled : 0 < tree.bottom.shape.size) : ¬ form.Pruned tolerances.pruning := by
  intro pruned
  obtain ⟨id, matrix, member⟩ := exists_mem_coefficients varies
  have identity := (reads.eq_identity straight member).2
  have one : (⟨0, 0, 1⟩ : Triplet α) ∈ matrix.triplets := by
    rw [identity, (SparseMatrix.selects_identity _).mem_triplets]
    exact ⟨if_pos filled, rfl⟩
  exact pruned id matrix member _ one reached

/-- A form without a coefficient at or below the tolerance: there is a diagonal on the spine, or the
tolerance does not reach one, or there are no coefficients at all. -/
theorem Reads.pruned_iff (reads : Reads tolerances tree form) :
    form.Pruned tolerances.pruning ↔ tree.CrossesDiagonal ∨
      ¬ magnitude (1 : α) ≤ tolerances.pruning ∨ form.ids = [] ∨ tree.bottom.shape.size = 0 := by
  constructor
  · intro pruned
    by_contra fails
    simp only [not_or, not_not] at fails
    obtain ⟨straight, reached, varies, filled⟩ := fails
    exact reads.not_pruned straight reached varies (Nat.pos_of_ne_zero filled) pruned
  · rintro (crosses | above | constant | empty) id matrix member triplet stored
    · exact reads.pruned_of_crossesDiagonal crosses id matrix member triplet stored
    · rw [(reads.isSelection.coefficients id matrix member).ones triplet stored]
      exact above
    · have listed : id ∈ form.ids := List.mem_map_of_mem member
      rw [constant] at listed
      cases listed
    · by_cases crosses : tree.CrossesDiagonal
      · exact reads.pruned_of_crossesDiagonal crosses id matrix member triplet stored
      · rw [(reads.eq_identity crosses member).2, empty,
          (SparseMatrix.selects_identity _).mem_triplets] at stored
        cases stored.1

/-- **What pruning reaches.** If a diagonal stands on the spine, no coefficient of the form is at or below
the tolerance, whatever other nodes the tree has. If none does, the tolerance is not looked at: the
coefficients are the ones of the variable at the bottom. So a coefficient at or below the tolerance is
left exactly by the trees without a diagonal over a variable with an entry, and by tolerances that reach
one. -/
theorem ofTree_pruned_iff (read : ofTree tolerances tree = .ok form) :
    (tree.CrossesDiagonal → form.Pruned tolerances.pruning) ∧
      (¬ tree.CrossesDiagonal → ∀ id matrix, (id, matrix) ∈ form.coefficients.entries →
        tree.bottom.operation = .var id ∧ matrix = .identity tree.bottom.shape.size) ∧
      (form.Pruned tolerances.pruning ↔ tree.CrossesDiagonal ∨
        ¬ magnitude (1 : α) ≤ tolerances.pruning ∨ form.ids = [] ∨ tree.bottom.shape.size = 0) := by
  have reads := reads_of_ofTree read
  exact ⟨reads.pruned_of_crossesDiagonal,
    fun straight id matrix member => reads.eq_identity straight member, reads.pruned_iff⟩

/-- Under a tolerance of two, a diagonal that is reshaped stores nothing at or below it, and a vector that
is reshaped keeps all of its ones. -/
theorem ofTree_pruned_iff_reshaped :
    let leaf : LinearTree Float := .var (.vector 2) 5
    let spread : LinearTree Float := leaf.diagVec.reshape (.vector 4)
    let column : LinearTree Float := leaf.reshape (.matrix 2 1)
    (∃ form, ofTree ⟨0, 2⟩ spread = .ok form ∧ form.Pruned 2) ∧
      ∃ form matrix, ofTree ⟨0, 2⟩ column = .ok form ∧
        form.coefficients.entries = [(5, matrix)] ∧ matrix = .identity 2 ∧ ¬ form.Pruned 2 := by
  intro leaf spread column
  have crosses : spread.CrossesDiagonal :=
    ⟨leaf.diagVec, List.mem_cons_of_mem _ List.mem_cons_self, .inl rfl⟩
  have straight : ¬ column.CrossesDiagonal := by
    intro crossed
    rcases (LinearTree.crossesDiagonal_through rfl).mp crossed with (here | here) | below
    · cases here
    · cases here
    · exact LinearTree.not_crossesDiagonal_of_leaf rfl [] below
  have leafRead : Reads (⟨0, 2⟩ : Tolerances Float) leaf (.var 5 (.vector 2)) := .var 5 (.vector 2) []
  have spreadRead := (leafRead.diagVec (.matrix 2 2)).reshape (Shape.size_vector 4).symm
  have columnRead := leafRead.reshape (Shape.size_matrix 2 1).symm
  have listed : (5, SparseMatrix.identity 2) ∈
      (var 5 (.vector 2) : AffineForm Float).coefficients.entries := List.mem_cons_self
  refine ⟨⟨_, spreadRead.ofTree_eq, (ofTree_pruned_iff spreadRead.ofTree_eq).1 crosses⟩,
    ⟨_, .identity 2, columnRead.ofTree_eq, rfl, ?_, fun pruned => ?_⟩⟩
  · exact ((ofTree_pruned_iff columnRead.ofTree_eq).2.1 straight 5 _ listed).2
  · rcases (ofTree_pruned_iff columnRead.ofTree_eq).2.2.mp pruned with
      crossed | above | constant | empty
    · exact straight crossed
    · exact above (by decide)
    · exact List.cons_ne_nil _ _ constant
    · exact Nat.succ_ne_zero 1 empty

end AffineForm

end AffineArrays
