/-
**The spine of a tree, and the form that is read off it.**

A form depends on a tree only through its spine: the chain of single arguments from the root down
to a leaf. `source` follows a place of the root's result down the spine to the entry of the leaf
that arrives there.

* `reads_of_ofTree`: what reading a form off a tree can do, one case per kind of node;
* `Reads.selectsVariable`: over a variable, the form selects along `source`;
* `Reads.constant_eq_gather`: over a constant, the form is the constant read along `source`.
-/

import AffineArrays.Proofs.FormEvaluation

set_option linter.unusedSectionVars false

namespace AffineArrays

variable {α : Type}

/-- The entries of a constant, column by column. -/
def Primitive.entries? [Zero α] [Add α] : Primitive α → Option (List α)
  | scalarConstant entry => some [entry]
  | denseConstant entries => some entries
  | sparseConstant matrix => some matrix.flat.toList
  | _ => none

namespace LinearTree

/-- The leaf that a tree computes on. The arguments of a leaf are not looked at. -/
def bottom : LinearTree α → LinearTree α
  | ⟨.reshape, _, [input]⟩ => input.bottom
  | ⟨.diagVec, _, [input]⟩ => input.bottom
  | ⟨.diagMat, _, [input]⟩ => input.bottom
  | tree => tree

/-- The entry of the bottom leaf that arrives at a place of the result. -/
def source : LinearTree α → Nat → Option Nat
  | ⟨.reshape, _, [input]⟩ => input.source
  | ⟨.diagVec, shape, [input]⟩ => fun place =>
    (diagVecOrigin shape.rows shape.size place).bind input.source
  | ⟨.diagMat, shape, [input]⟩ => fun place =>
    (diagMatOrigin input.shape.rows shape.size place).bind input.source
  | tree => within tree.shape.size

end LinearTree

namespace AffineForm

section Reading

variable [Zero α] [One α] [Add α] [Magnitude α] [LE α] [DecidableLE α] {tolerances : Tolerances α}

/-! ## Part 1: reading a form -/

/-- The form that is read off a tree, one rule per kind of node. -/
inductive Reads (tolerances : Tolerances α) : LinearTree α → AffineForm α → Prop where
  | var (id : Nat) (shape : Shape) (ignored : List (LinearTree α)) :
      Reads tolerances ⟨.var id, shape, ignored⟩ (.var id shape)
  | constant {operation : Primitive α} {entries : List α} (held : operation.entries? = some entries)
      (shape : Shape) (ignored : List (LinearTree α)) :
      Reads tolerances ⟨operation, shape, ignored⟩ (.ofEntries entries shape)
  | reshape {input : LinearTree α} {form : AffineForm α} {shape : Shape}
      (inner : Reads tolerances input form) (same : form.shape.size = shape.size) :
      Reads tolerances ⟨.reshape, shape, [input]⟩ { form with shape }
  | diagVec {input : LinearTree α} {form : AffineForm α} (inner : Reads tolerances input form)
      (shape : Shape) :
      Reads tolerances ⟨.diagVec, shape, [input]⟩
        (form.scatter shape tolerances.pruning (diagVecRow shape.rows))
  | diagMat {input : LinearTree α} {form : AffineForm α} (inner : Reads tolerances input form)
      (shape : Shape) :
      Reads tolerances ⟨.diagMat, shape, [input]⟩
        (form.scatter shape tolerances.pruning (diagMatRow form.shape.rows shape.size))

theorem reads_of_ofTree {tree : LinearTree α} {form : AffineForm α}
    (read : ofTree tolerances tree = .ok form) : Reads tolerances tree form := by
  fun_induction ofTree tolerances tree generalizing form with
  | case1 id shape ignored => cases read; exact .var id shape ignored
  | case2 entry shape ignored => cases read; exact .constant rfl shape ignored
  | case3 entries shape ignored => cases read; exact .constant rfl shape ignored
  | case4 matrix shape ignored => cases read; exact .constant rfl shape ignored
  | case5 shape input step =>
    obtain ⟨inner, readInner, reshaped⟩ := bind_eq_ok_iff.mp read
    unfold AffineForm.reshape at reshaped
    split at reshaped
    · rename_i same
      cases reshaped
      exact .reshape (step readInner) same
    · cases reshaped
  | case6 shape input step =>
    obtain ⟨inner, readInner, moved⟩ := bind_eq_ok_iff.mp read
    cases moved
    exact .diagVec (step readInner) shape
  | case7 shape input step =>
    obtain ⟨inner, readInner, moved⟩ := bind_eq_ok_iff.mp read
    cases moved
    exact .diagMat (step readInner) shape
  | case8 => cases read

theorem Reads.ofTree_eq {tree : LinearTree α} {form : AffineForm α}
    (reads : Reads tolerances tree form) : ofTree tolerances tree = .ok form := by
  induction reads with
  | var id shape ignored => simp only [ofTree]
  | @constant operation entries held shape ignored =>
    cases operation <;> cases held <;> simp only [ofTree]
  | reshape _ same step =>
    simp only [ofTree, step]
    exact if_pos same
  | diagVec _ shape step =>
    simp only [ofTree, step]
    rfl
  | diagMat _ shape step =>
    simp only [ofTree, step]
    rfl

/-- A form is read off a tree exactly by the rules. -/
theorem ofTree_eq_ok_iff {tree : LinearTree α} {form : AffineForm α} :
    ofTree tolerances tree = .ok form ↔ Reads tolerances tree form :=
  ⟨reads_of_ofTree, Reads.ofTree_eq⟩

theorem Reads.shape_eq {tree : LinearTree α} {form : AffineForm α}
    (reads : Reads tolerances tree form) : form.shape = tree.shape := by
  cases reads with
  | _ => rfl

/-- The spine of a tree with a form ends in a variable or a constant. -/
theorem Reads.bottom_leaf {tree : LinearTree α} {form : AffineForm α}
    (reads : Reads tolerances tree form) :
    (∃ id, tree.bottom.operation = .var id) ∨
      ∃ entries, tree.bottom.operation.entries? = some entries := by
  induction reads with
  | var id shape ignored => exact .inl ⟨id, rfl⟩
  | @constant operation entries held shape ignored =>
    cases operation <;> cases held <;> exact .inr ⟨_, rfl⟩
  | reshape _ _ step => exact step
  | diagVec _ _ step => exact step
  | diagMat _ _ step => exact step

/-- The source of a place lies below it on the spine only if the place lies inside. -/
theorem Reads.source_inside {tree : LinearTree α} {form : AffineForm α}
    (reads : Reads tolerances tree form) {place col : Nat} (found : tree.source place = some col) :
    place < tree.shape.size := by
  induction reads generalizing place with
  | var id shape ignored => exact (within_eq_some_iff.mp found).1
  | @constant operation entries held shape ignored =>
    cases operation <;> cases held <;> exact (within_eq_some_iff.mp found).1
  | reshape inner same step => rw [← same, inner.shape_eq]; exact step found
  | diagVec _ shape _ =>
    obtain ⟨row, origin, _⟩ := Option.bind_eq_some_iff.mp found
    exact (((undoes_diagVecRow _ _).leads _ _).mp origin).1
  | diagMat _ shape _ =>
    obtain ⟨row, origin, _⟩ := Option.bind_eq_some_iff.mp found
    exact (((undoes_diagMatRow _ _).leads _ _).mp origin).1

/-! ## Part 2: over a variable -/

/-- The constant of a form that selects stays zero when its rows are moved. -/
theorem SelectsVariable.constant_scatter {form : AffineForm α} {id cols : Nat}
    {source target origin : Nat → Option Nat} {matrix : SparseMatrix α} {shape : Shape}
    (selecting : form.SelectsVariable id cols source matrix)
    (undoes : Undoes shape.size target origin) (pruning : α) :
    (form.scatter shape pruning target).constant = List.replicate shape.size 0 := by
  show moveEntries shape.size target form.constant = List.replicate shape.size 0
  rw [moveEntries_eq_gather undoes, selecting.constant, gather_replicate_zero]

/-- Moving the rows of a form that selects composes what it selects with the way back. -/
theorem SelectsVariable.scatter {form : AffineForm α} {id cols : Nat}
    {source target origin : Nat → Option Nat} {matrix : SparseMatrix α} {shape : Shape} {pruning : α}
    (selecting : form.SelectsVariable id cols source matrix)
    (undoes : Undoes shape.size target origin) (kept : ¬ magnitude (1 : α) ≤ pruning) :
    (form.scatter shape pruning target).SelectsVariable id cols
      (fun place => (origin place).bind source)
      (matrix.scatterRows shape.size pruning target) where
  coefficients := by
    rw [AffineForm.scatter, selecting.coefficients]
    rfl
  selects := selecting.selects.scatterRows undoes kept
  rows := SparseMatrix.rows_scatterRows _ _ _ _
  cols := (SparseMatrix.cols_scatterRows _ _ _ _).trans selecting.cols
  constant := selecting.constant_scatter undoes pruning

theorem selectsVariable_var (id : Nat) (shape : Shape) :
    (var id shape : AffineForm α).SelectsVariable id shape.size (within shape.size)
      (.identity shape.size) where
  coefficients := rfl
  selects := SparseMatrix.selects_identity shape.size
  rows := rfl
  cols := rfl
  constant := rfl

/-- Under another shape of the same size a form selects the same. -/
theorem SelectsVariable.reshaped {form : AffineForm α} {id cols : Nat} {source : Nat → Option Nat}
    {matrix : SparseMatrix α} {shape : Shape} (selecting : form.SelectsVariable id cols source matrix)
    (same : form.shape.size = shape.size) :
    ({ form with shape } : AffineForm α).SelectsVariable id cols source matrix where
  coefficients := selecting.coefficients
  selects := selecting.selects
  rows := selecting.rows.trans same
  cols := selecting.cols
  constant := selecting.constant.trans (by rw [same])

/-- **Over a variable, a form selects along the spine**, whatever the shapes on it. -/
theorem Reads.selectsVariable {tree : LinearTree α} {form : AffineForm α} {id : Nat}
    (reads : Reads tolerances tree form) (kept : ¬ magnitude (1 : α) ≤ tolerances.pruning)
    (leaf : tree.bottom.operation = .var id) :
    ∃ matrix, form.SelectsVariable id tree.bottom.shape.size tree.source matrix := by
  induction reads with
  | var other shape ignored =>
    cases leaf
    exact ⟨_, selectsVariable_var id shape⟩
  | @constant operation entries held shape ignored =>
    cases operation <;> cases held <;> cases leaf
  | @reshape input form shape _ same step =>
    obtain ⟨matrix, selecting⟩ := step leaf
    exact ⟨matrix, selecting.reshaped same⟩
  | diagVec _ shape step =>
    obtain ⟨matrix, selecting⟩ := step leaf
    exact ⟨_, selecting.scatter (undoes_diagVecRow _ _) kept⟩
  | @diagMat input form inner shape step =>
    obtain ⟨matrix, selecting⟩ := step leaf
    have moved := selecting.scatter (undoes_diagMatRow form.shape.rows shape.size) kept
    rw [inner.shape_eq] at moved ⊢
    exact ⟨_, moved⟩

/-! ## Part 3: over a constant -/

/-- Over a constant, a form has no coefficients. -/
theorem Reads.coefficients_of_constant {tree : LinearTree α} {form : AffineForm α}
    {entries : List α} (reads : Reads tolerances tree form)
    (held : tree.bottom.operation.entries? = some entries) : form.coefficients = .empty := by
  induction reads with
  | var id shape ignored => cases held
  | constant _ shape ignored => rfl
  | reshape _ _ step => exact step held
  | diagVec _ shape step => rw [AffineForm.scatter, step held]; rfl
  | diagMat _ shape step => rw [AffineForm.scatter, step held]; rfl

theorem scatter_constant {form : AffineForm α} {inner : Nat} {entries : List α}
    {source target origin : Nat → Option Nat} {shape : Shape} (pruning : α)
    (undoes : Undoes shape.size target origin)
    (bounded : ∀ place col, source place = some col → place < inner)
    (free : form.coefficients = .empty) (held : form.constant = gather inner source entries) :
    (form.scatter shape pruning target).coefficients = .empty ∧
      (form.scatter shape pruning target).constant =
        gather shape.size (fun place => (origin place).bind source) entries := by
  constructor
  · rw [AffineForm.scatter, free]
    rfl
  · show moveEntries shape.size target form.constant = _
    rw [moveEntries_eq_gather undoes, held, gather_gather bounded]

/-- **Over a constant, a form is the constant read along the spine.** -/
theorem Reads.constant_eq_gather {tree : LinearTree α} {form : AffineForm α} {entries : List α}
    (reads : Reads tolerances tree form) (held : tree.bottom.operation.entries? = some entries)
    (full : entries.length = tree.bottom.shape.size) :
    form.coefficients = .empty ∧
      form.constant = gather tree.shape.size tree.source entries := by
  induction reads with
  | var id shape ignored => cases held
  | @constant operation own ownHeld shape ignored =>
    cases operation <;> cases ownHeld <;> cases held <;> exact ⟨rfl, (gather_within full).symm⟩
  | reshape inner same step =>
    obtain ⟨free, constant⟩ := step held full
    refine ⟨free, constant.trans ?_⟩
    show gather _ _ _ = gather _ _ _
    rw [← same, inner.shape_eq]
    rfl
  | diagVec inner shape step =>
    obtain ⟨free, constant⟩ := step held full
    exact scatter_constant _ (undoes_diagVecRow _ _) (fun _ _ => inner.source_inside) free constant
  | @diagMat input form inner shape step =>
    obtain ⟨free, constant⟩ := step held full
    have moved := scatter_constant tolerances.pruning (undoes_diagMatRow form.shape.rows shape.size)
      (fun _ _ => inner.source_inside) free constant
    rw [inner.shape_eq] at moved ⊢
    exact moved

end Reading

end AffineForm

end AffineArrays
