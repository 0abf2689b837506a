/-
**The meaning of a tree, and its form.**

The meaning of a tree under an assignment is a list of entries, given node by node: a diagonal
matrix spreads its input, a main diagonal reads it off, a reshape keeps it. Nothing ties the
declared shapes of a hand-made tree to its inputs, so a diagonal may be cut off or padded.

* `spreadDiagonal_on`, `spreadDiagonal_off`: what stands on and off a spread diagonal;
* `Reads.meaning_eq_gather`: the meaning reads the leaf along the spine;
* `Reads.evaluate_eq`: so does the value of the form, up to the cost of a coefficient;
* `ofTree_evaluates_meaning`: the form of a tree has a value exactly when its variable has one of
  the right size, and then the value is the meaning of the tree.
-/

import AffineArrays.Proofs.Spine

set_option linter.unusedSectionVars false

namespace AffineArrays

variable {α : Type}

/-! ## Part 1: meanings -/

section Meaning

variable [Zero α]

/-- The list of `size` entries that holds entry `i` of the input at `i * (rows + 1)`, for every `i`
below `rows` that the input has, and zero everywhere else. -/
def spreadDiagonal (rows size : Nat) (entries : List α) : List α :=
  (List.range size).map fun place =>
    if place % (rows + 1) = 0 ∧ place / (rows + 1) < rows then
      entries.getD (place / (rows + 1)) 0
    else 0

/-- The list of `size` entries that holds at `i` the input's entry at `i * (rows + 1)`, and zero
where the input has no such entry. Below `rows` this is the entry in row `i` and column `i`. -/
def readDiagonal (rows size : Nat) (entries : List α) : List α :=
  (List.range size).map fun index => entries.getD (position rows index index) 0

@[simp] theorem length_readDiagonal (rows size : Nat) (entries : List α) :
    (readDiagonal rows size entries).length = size := by
  rw [readDiagonal, List.length_map, List.length_range]

theorem spreadDiagonal_on {rows size index : Nat} (below : index < rows)
    (inside : index * (rows + 1) < size) (entries : List α) :
    (spreadDiagonal rows size entries)[index * (rows + 1)]? = some (entries.getD index 0) := by
  have back : index * (rows + 1) / (rows + 1) = index := Nat.mul_div_cancel _ (Nat.succ_pos rows)
  rw [spreadDiagonal, List.getElem?_map, List.getElem?_range inside, Option.map_some, back,
    if_pos ⟨Nat.mul_mod_left index (rows + 1), below⟩]

theorem spreadDiagonal_off {rows size place : Nat} (inside : place < size)
    (off : ∀ index, index < rows → place ≠ index * (rows + 1)) (entries : List α) :
    (spreadDiagonal rows size entries)[place]? = some 0 := by
  have elsewhere : ¬ (place % (rows + 1) = 0 ∧ place / (rows + 1) < rows) := by
    rintro ⟨divides, below⟩
    exact off _ below (Nat.div_mul_cancel (Nat.dvd_of_mod_eq_zero divides)).symm
  rw [spreadDiagonal, List.getElem?_map, List.getElem?_range inside, Option.map_some,
    if_neg elsewhere]

-- two rows by three columns: the third entry is cut off
example : spreadDiagonal 2 6 [5, 7, 9] = [5, 0, 0, 7, 0, 0] := by decide

theorem spreadDiagonal_eq_gather (rows size : Nat) (entries : List α) :
    spreadDiagonal rows size entries = gather size (diagVecOrigin rows size) entries := by
  refine List.map_congr_left fun place member => ?_
  have inside := List.mem_range.mp member
  by_cases on : place % (rows + 1) = 0 ∧ place / (rows + 1) < rows
  · rw [if_pos on, diagVecOrigin, if_pos ⟨inside, on⟩, Option.bind_some]
    exact List.getD_eq_getElem?_getD
  · rw [if_neg on, diagVecOrigin, if_neg fun found => on found.2]
    rfl

theorem readDiagonal_eq_gather (rows size : Nat) (entries : List α) :
    readDiagonal rows size entries = gather size (diagMatOrigin rows size) entries := by
  refine List.map_congr_left fun place member => ?_
  rw [diagMatOrigin, if_pos (List.mem_range.mp member), Option.bind_some]
  exact List.getD_eq_getElem?_getD

-- a two by two matrix has no third diagonal entry
example : readDiagonal 2 3 [1, 2, 3, 4] = [1, 4, 0] := by decide

end Meaning

/-- The entries of a leaf under an assignment: the value of a variable, or a constant. -/
def Primitive.entriesUnder [Zero α] [Add α] (values : Assignment α) : Primitive α → Option (List α)
  | var id => (values id).map Value.flat
  | operation => operation.entries?

/-- **The meaning of a tree**: its entries under an assignment, column by column. -/
def LinearTree.meaning [Zero α] [Add α] (values : Assignment α) : LinearTree α → Option (List α)
  | ⟨.reshape, _, [input]⟩ => input.meaning values
  | ⟨.diagVec, shape, [input]⟩ =>
    (input.meaning values).map (spreadDiagonal shape.rows shape.size)
  | ⟨.diagMat, shape, [input]⟩ =>
    (input.meaning values).map (readDiagonal input.shape.rows shape.size)
  | ⟨operation, _, _⟩ => operation.entriesUnder values

/-- A constant at the bottom has as many entries as its leaf declares. -/
def LinearTree.Filled [Zero α] [Add α] (tree : LinearTree α) : Prop :=
  ∀ entries, tree.bottom.operation.entries? = some entries →
    entries.length = tree.bottom.shape.size

/-- A variable at the bottom has a value with as many entries as its leaf declares. -/
def LinearTree.Supplied (values : Assignment α) (tree : LinearTree α) : Prop :=
  ∀ id, tree.bottom.operation = .var id →
    ∃ value, values id = some value ∧ value.size = tree.bottom.shape.size

/-- The entries of a leaf as they come through a form: those of a variable pass a coefficient. -/
def Primitive.carry [Zero α] [One α] [Add α] [Mul α] : Primitive α → List α → List α
  | var _, entries => entries.map (0 + 1 * ·)
  | _, entries => entries

theorem Primitive.carry_of_no_variable [Zero α] [One α] [Add α] [Mul α] {operation : Primitive α}
    (leaf : operation.id? = none) (entries : List α) : operation.carry entries = entries := by
  cases operation with
  | var id => cases leaf
  | _ => rfl

namespace AffineForm

/-! ## Part 2: along the spine -/

section Spine

variable [Zero α] [One α] [Add α] [Mul α] [Magnitude α] [LE α] [DecidableLE α]
  {tolerances : Tolerances α} {tree : LinearTree α} {form : AffineForm α} {values : Assignment α}
  {entries : List α}

theorem Reads.meaning_eq_gather (reads : Reads tolerances tree form)
    (given : tree.bottom.operation.entriesUnder values = some entries)
    (full : entries.length = tree.bottom.shape.size) :
    tree.meaning values = some (gather tree.shape.size tree.source entries) := by
  induction reads with
  | var id shape ignored =>
    exact given.trans (congrArg some (gather_within full).symm)
  | @constant operation own held shape ignored =>
    cases operation <;> cases held <;> cases given <;>
      exact congrArg some (gather_within full).symm
  | @reshape input form shape inner same step =>
    have sizes : input.shape.size = shape.size := by rw [← inner.shape_eq, same]
    rw [LinearTree.meaning, step given full, sizes]
    rfl
  | diagVec inner shape step =>
    rw [LinearTree.meaning, step given full, Option.map_some, spreadDiagonal_eq_gather,
      gather_gather fun _ _ => inner.source_inside]
    rfl
  | diagMat inner shape step =>
    rw [LinearTree.meaning, step given full, Option.map_some, readDiagonal_eq_gather,
      gather_gather fun _ _ => inner.source_inside]
    rfl

/-- **The value of a form** is its leaf, carried along the spine. -/
theorem Reads.evaluate_eq (reads : Reads tolerances tree form)
    (kept : ¬ magnitude (1 : α) ≤ tolerances.pruning)
    (given : tree.bottom.operation.entriesUnder values = some entries)
    (full : entries.length = tree.bottom.shape.size) :
    ∃ result, form.evaluate values = .ok result ∧ result.shape = tree.shape ∧
      result.flat = gather tree.shape.size tree.source (tree.bottom.operation.carry entries) := by
  -- the three constants share one argument; only a variable comes through coefficients
  have overConstant : tree.bottom.operation.entries? = some entries →
      ∃ result, form.evaluate values = .ok result ∧ result.shape = tree.shape ∧
        result.flat = gather tree.shape.size tree.source entries := by
    intro held
    obtain ⟨free, constant⟩ := reads.constant_eq_gather held full
    have fits : form.constant.length = form.shape.size := by
      rw [constant, length_gather, reads.shape_eq]
    obtain ⟨result, stored, shape, flat⟩ := Value.ofFlat_eq_ok fits
    rw [evaluate_of_no_variable free]
    exact ⟨result, stored, shape.trans reads.shape_eq, flat.trans constant⟩
  cases leaf : tree.bottom.operation with
  | var id =>
    rw [leaf] at given
    obtain ⟨value, found, rfl⟩ := Option.map_eq_some_iff.mp given
    obtain ⟨matrix, selecting⟩ := reads.selectsVariable kept leaf
    have fits : value.size = tree.bottom.shape.size := by rw [← full, Value.length_flat]
    rw [← reads.shape_eq]
    exact selecting.evaluate found fits
  | scalarConstant entry => rw [leaf] at given overConstant; exact overConstant given
  | denseConstant held => rw [leaf] at given overConstant; exact overConstant given
  | sparseConstant matrix => rw [leaf] at given overConstant; exact overConstant given
  | reshape => rw [leaf] at given; cases given
  | diagVec => rw [leaf] at given; cases given
  | diagMat => rw [leaf] at given; cases given

/-! ## Part 3: compiled forms -/

theorem Reads.supplied_of_evaluate (reads : Reads tolerances tree form)
    (kept : ¬ magnitude (1 : α) ≤ tolerances.pruning) {result : Value α}
    (evaluated : form.evaluate values = .ok result) : tree.Supplied values := by
  intro id leaf
  obtain ⟨matrix, selecting⟩ := reads.selectsVariable kept leaf
  by_contra missing
  refine evaluate_ne_ok selecting.coefficients (fun value found fits => ?_) result evaluated
  exact missing ⟨value, found, fits.trans selecting.cols⟩

theorem agrees_carry (operation : Primitive α) (size : Nat) (source : Nat → Option Nat)
    (entries : List α) :
    List.Forall₂ Agrees (gather size source entries)
      (gather size source (operation.carry entries)) := by
  cases leaf : operation.id? with
  | some id =>
    cases operation with
    | var id => exact agrees_gather size source entries
    | _ => cases leaf
  | none =>
    rw [Primitive.carry_of_no_variable leaf]
    exact List.forall₂_same.mpr fun _ _ => .inl rfl

/-- Over a constant, of whatever length, the constant of a form is the meaning of its tree. -/
theorem Reads.meaning_of_constant (reads : Reads tolerances tree form)
    (held : tree.bottom.operation.entries? = some entries) :
    tree.meaning values = some form.constant := by
  induction reads with
  | var id shape ignored => cases held
  | @constant operation own ownHeld shape ignored =>
    cases operation <;> cases ownHeld <;> rfl
  | reshape _ _ step => exact step held
  | diagVec _ shape step =>
    rw [LinearTree.meaning, step held, Option.map_some, spreadDiagonal_eq_gather,
      ← moveEntries_eq_gather (undoes_diagVecRow _ _)]
    rfl
  | @diagMat input form inner shape step =>
    rw [LinearTree.meaning, step held, Option.map_some, readDiagonal_eq_gather, ← inner.shape_eq,
      ← moveEntries_eq_gather (undoes_diagMatRow _ _)]
    rfl

/-- **If a form has a value, it is the meaning of its tree**, also over a constant with more or
fewer entries than its leaf declares. -/
theorem Reads.agrees_of_evaluate (reads : Reads tolerances tree form)
    (kept : ¬ magnitude (1 : α) ≤ tolerances.pruning)
    (means : tree.meaning values = some entries) {result : Value α}
    (evaluated : form.evaluate values = .ok result) :
    result.shape = tree.shape ∧ List.Forall₂ Agrees entries result.flat ∧
      (tree.bottom.operation.id? = none → result.flat = entries) := by
  rcases reads.bottom_leaf with ⟨id, leaf⟩ | ⟨held, constant⟩
  · obtain ⟨value, given, fits⟩ := reads.supplied_of_evaluate kept evaluated id leaf
    have under : tree.bottom.operation.entriesUnder values = some value.flat := by
      rw [leaf]
      exact congrArg (Option.map Value.flat) given
    have full : value.flat.length = tree.bottom.shape.size := value.length_flat.trans fits
    obtain ⟨carried, evaluatedAgain, shape, flat⟩ := reads.evaluate_eq kept under full
    cases evaluated.symm.trans evaluatedAgain
    cases means.symm.trans (reads.meaning_eq_gather under full)
    refine ⟨shape, flat ▸ agrees_carry _ _ _ _, fun free => ?_⟩
    rw [leaf] at free
    cases free
  · cases means.symm.trans (reads.meaning_of_constant constant)
    rw [evaluate_of_no_variable (reads.coefficients_of_constant constant)] at evaluated
    obtain ⟨_, shape, flat⟩ := Value.ofFlat_spec evaluated
    rw [flat]
    exact ⟨shape.trans reads.shape_eq, List.forall₂_same.mpr fun _ _ => .inl rfl, fun _ => rfl⟩

end Spine

end AffineForm

end AffineArrays
