/-
**The forms of trees only select.**

Nothing but zeros and ones comes into the form of a tree, whatever shapes the tree declares and
whatever is pruned: a form over a variable selects entries of it, no entry twice and no two for one
place.

* `SelectsVariable.exists_scatter`: moving rows keeps a selection, also if its ones are pruned;
* `Reads.exists_selectsVariable`: so a form over a variable selects, under any tolerances;
* `Reads.isSelection`: every coefficient is one, alone in its row and in its column.
-/

import AffineArrays.Proofs.Spine

set_option linter.unusedSectionVars false

namespace AffineArrays

variable {α : Type}

/-! ## Part 1: maps without collisions -/

/-- The map sends no two places to one entry. -/
def OneToOne (source : Nat → Option Nat) : Prop :=
  ∀ place other entry, source place = some entry → source other = some entry → place = other

theorem oneToOne_within (size : Nat) : OneToOne (within size) := by
  intro place other entry found foundToo
  exact (within_eq_some_iff.mp found).2.trans (within_eq_some_iff.mp foundToo).2.symm

theorem oneToOne_none : OneToOne fun _ => none := nofun

theorem OneToOne.bind {origin source : Nat → Option Nat} (outer : OneToOne origin)
    (inner : OneToOne source) : OneToOne fun place => (origin place).bind source := by
  intro place other entry found foundToo
  obtain ⟨row, fromPlace, selected⟩ := Option.bind_eq_some_iff.mp found
  obtain ⟨otherRow, fromOther, selectedToo⟩ := Option.bind_eq_some_iff.mp foundToo
  cases inner row otherRow entry selected selectedToo
  exact outer place other row fromPlace fromOther

/-- A map back is one to one, since the map forth has one target for each entry. -/
theorem Undoes.oneToOne {size : Nat} {target origin : Nat → Option Nat}
    (undoes : Undoes size target origin) : OneToOne origin := by
  intro place other row found foundToo
  have goes := ((undoes.leads row place).mp found).2
  exact Option.some.inj (goes.symm.trans ((undoes.leads row other).mp foundToo).2)

/-! ## Part 2: zero-one matrices -/

theorem length_le_one_of_pairwise {β : Type} {items : List β} {apart : β → β → Prop}
    (distinct : items.Pairwise apart)
    (alike : ∀ first ∈ items, ∀ second ∈ items, ¬ apart first second) : items.length ≤ 1 := by
  match items, distinct with
  | [], _ => exact Nat.zero_le 1
  | [_], _ => exact Nat.le_refl 1
  | first :: second :: rest, distinct =>
    have differ := (List.pairwise_cons.mp distinct).1 second List.mem_cons_self
    exact absurd differ
      (alike first List.mem_cons_self second (List.mem_cons_of_mem _ List.mem_cons_self))

namespace SparseMatrix

/-- Every stored entry is one, and no row or column stores two. -/
structure ZeroOne [One α] (matrix : SparseMatrix α) : Prop where
  ones : ∀ triplet ∈ matrix.triplets, triplet.value = 1
  rows : ∀ row, (matrix.triplets.filter fun triplet => triplet.row == row).length ≤ 1
  cols : ∀ col, (matrix.triplets.filter fun triplet => triplet.col == col).length ≤ 1

variable [One α] {matrix : SparseMatrix α} {source : Nat → Option Nat}

/-- A zero-one matrix without collisions stores no two entries in a row, and none in a column. -/
theorem Selects.apart (selects : matrix.Selects source) (oneToOne : OneToOne source) :
    matrix.triplets.Pairwise fun first second =>
      first.row ≠ second.row ∧ first.col ≠ second.col := by
  refine (distinct_triplets matrix).imp_of_mem fun {first second} listed listedToo distinct => ?_
  have selected := (selects.mem_triplets.mp listed).1
  have selectedToo := (selects.mem_triplets.mp listedToo).1
  constructor
  · intro sameRow
    rw [sameRow, selectedToo] at selected
    exact distinct ⟨sameRow, (Option.some.inj selected).symm⟩
  · intro sameCol
    rw [sameCol] at selected
    exact distinct ⟨oneToOne _ _ _ selected selectedToo, sameCol⟩

theorem Selects.zeroOne (selects : matrix.Selects source) (oneToOne : OneToOne source) :
    matrix.ZeroOne where
  ones triplet member := (selects.mem_triplets.mp member).2
  rows row := by
    refine length_le_one_of_pairwise ((selects.apart oneToOne).filter _) ?_
    intro first here second hereToo apart
    exact apart.1 ((beq_iff_eq.mp (List.mem_filter.mp here).2).trans
      (beq_iff_eq.mp (List.mem_filter.mp hereToo).2).symm)
  cols col := by
    refine length_le_one_of_pairwise ((selects.apart oneToOne).filter _) ?_
    intro first here second hereToo apart
    exact apart.2 ((beq_iff_eq.mp (List.mem_filter.mp here).2).trans
      (beq_iff_eq.mp (List.mem_filter.mp hereToo).2).symm)

section Pruned

variable [Add α] [Magnitude α] [LE α] [DecidableLE α]

/-- If ones are pruned, nothing of a zero-one matrix is left when its rows are moved. -/
theorem Selects.scatterRows_pruned (selects : matrix.Selects source) {pruning : α}
    (pruned : magnitude (1 : α) ≤ pruning) (rows : Nat) (target : Nat → Option Nat) :
    (matrix.scatterRows rows pruning target).Selects fun _ => none := by
  have gone : matrix.movedTriplets pruning target = [] := by
    refine List.filterMap_eq_nil_iff.mpr fun triplet member => ?_
    rw [(selects.mem_triplets.mp member).2, if_pos pruned]
  have empty : matrix.scatterRows rows pruning target = zero rows matrix.cols := by
    rw [scatterRows_eq, gone]
    rfl
  intro row col value
  rw [empty, stored?_zero]
  exact iff_of_false nofun nofun

end Pruned

end SparseMatrix

/-! ## Part 3: forms -/

namespace AffineForm

variable [Zero α] [One α] [Add α] [Magnitude α] [LE α] [DecidableLE α] {tolerances : Tolerances α}
  {tree : LinearTree α} {form : AffineForm α}

/-- Moving the rows of a form that selects leaves one that selects, whether or not ones are
pruned. -/
theorem SelectsVariable.exists_scatter {id cols : Nat} {source target origin : Nat → Option Nat}
    {matrix : SparseMatrix α} {shape : Shape}
    (selecting : form.SelectsVariable id cols source matrix) (oneToOne : OneToOne source)
    (undoes : Undoes shape.size target origin) (pruning : α) :
    ∃ moved, OneToOne moved ∧ (form.scatter shape pruning target).SelectsVariable id cols moved
      (matrix.scatterRows shape.size pruning target) := by
  by_cases pruned : magnitude (1 : α) ≤ pruning
  · refine ⟨_, oneToOne_none, ?_⟩
    exact {
      coefficients := by
        rw [AffineForm.scatter, selecting.coefficients]
        rfl
      selects := selecting.selects.scatterRows_pruned pruned _ _
      rows := SparseMatrix.rows_scatterRows _ _ _ _
      cols := (SparseMatrix.cols_scatterRows _ _ _ _).trans selecting.cols
      constant := selecting.constant_scatter undoes pruning }
  · exact ⟨_, undoes.oneToOne.bind oneToOne, selecting.scatter undoes pruned⟩

/-- Over a variable, a form selects without collisions, under any tolerances. -/
theorem Reads.exists_selectsVariable {id : Nat} (reads : Reads tolerances tree form)
    (leaf : tree.bottom.operation = .var id) :
    ∃ source matrix, OneToOne source ∧
      form.SelectsVariable id tree.bottom.shape.size source matrix := by
  induction reads with
  | var other shape ignored =>
    cases leaf
    exact ⟨_, _, oneToOne_within _, selectsVariable_var id shape⟩
  | @constant operation entries held shape ignored =>
    cases operation <;> cases held <;> cases leaf
  | @reshape input form shape _ same step =>
    obtain ⟨source, matrix, oneToOne, selecting⟩ := step leaf
    exact ⟨source, matrix, oneToOne, selecting.reshaped same⟩
  | diagVec _ shape step =>
    obtain ⟨source, matrix, oneToOne, selecting⟩ := step leaf
    obtain ⟨moved, kept, scattered⟩ :=
      selecting.exists_scatter oneToOne (undoes_diagVecRow _ _) tolerances.pruning
    exact ⟨moved, _, kept, scattered⟩
  | @diagMat input form _ shape step =>
    obtain ⟨source, matrix, oneToOne, selecting⟩ := step leaf
    obtain ⟨moved, kept, scattered⟩ := selecting.exists_scatter oneToOne
      (undoes_diagMatRow form.shape.rows shape.size) tolerances.pruning
    exact ⟨moved, _, kept, scattered⟩

/-- The form has at most one variable; if it has one, its constant is zero, and the coefficients
are ones, alone in their row and in their column. -/
structure IsSelection (form : AffineForm α) : Prop where
  single : form.ids.length ≤ 1
  coefficients : ∀ id matrix, (id, matrix) ∈ form.coefficients.entries → matrix.ZeroOne
  constant : form.ids ≠ [] → ∀ entry ∈ form.constant, entry = 0

theorem SelectsVariable.isSelection {id cols : Nat} {source : Nat → Option Nat}
    {matrix : SparseMatrix α} (selecting : form.SelectsVariable id cols source matrix)
    (oneToOne : OneToOne source) : form.IsSelection where
  single := by rw [selecting.ids_eq]; exact Nat.le_refl 1
  coefficients other found member := by
    obtain ⟨_, rfl⟩ := selecting.eq_of_mem member
    exact selecting.selects.zeroOne oneToOne
  constant _ entry member := by
    rw [selecting.constant] at member
    exact List.eq_of_mem_replicate member

theorem isSelection_of_no_variable (free : form.coefficients = .empty) : form.IsSelection where
  single := by rw [ids_of_no_variable free]; exact Nat.zero_le 1
  coefficients id matrix member := by rw [free] at member; cases member
  constant some := absurd (ids_of_no_variable free) some

/-- The form of a tree selects, under any tolerances. -/
theorem Reads.isSelection (reads : Reads tolerances tree form) : form.IsSelection := by
  rcases reads.bottom_leaf with ⟨id, leaf⟩ | ⟨entries, held⟩
  · obtain ⟨source, matrix, oneToOne, selecting⟩ := reads.exists_selectsVariable leaf
    exact selecting.isSelection oneToOne
  · exact isSelection_of_no_variable (reads.coefficients_of_constant held)

end AffineForm

end AffineArrays
