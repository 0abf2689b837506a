/-
**Where variables occur.**

An expression, its tree and its form each list their variables in a way of their own: the expression
down its one argument, the tree at all its nodes, the form by the keys of its coefficients. The lists
agree. Only the unread arguments of a leaf can hold a variable that the form does not have, and
pruning never takes one away.

* `mem_nodes_iff`: the nodes of a tree are those that its root reaches;
* `ids_tree`: the tree of an expression has the variables of the expression;
* `Reads.ids_eq`: the variable of a form is that of the bottom leaf;
* `variables_agree`: so the three lists agree.
-/

import AffineArrays.Proofs.Lowering

set_option linter.unusedSectionVars false

namespace AffineArrays

variable {α : Type}

namespace LinearTree

/-! ## Part 1: nodes below a root -/

/-- A tree reaches itself, and what its arguments reach. -/
inductive Reaches : LinearTree α → LinearTree α → Prop where
  | root (tree : LinearTree α) : Reaches tree tree
  | through {tree argument node : LinearTree α} (listed : argument ∈ tree.arguments)
      (deeper : Reaches argument node) : Reaches tree node

/-- A property holds of all trees if every node has it as soon as its arguments do. -/
@[elab_as_elim]
theorem induction_on_arguments {motive : LinearTree α → Prop}
    (node : ∀ operation shape arguments, (∀ argument ∈ arguments, motive argument) →
      motive ⟨operation, shape, arguments⟩) : ∀ tree, motive tree
  | ⟨operation, shape, arguments⟩ =>
    node operation shape arguments fun argument _ => induction_on_arguments node argument

theorem mem_nodes_iff_root_or_below {tree node : LinearTree α} :
    node ∈ tree.nodes ↔ node = tree ∨ ∃ argument ∈ tree.arguments, node ∈ argument.nodes := by
  rw [nodes_eq, nodesOfList_eq_flatMap, List.mem_cons, List.mem_flatMap]

/-- The nodes of a tree are those that its root reaches. -/
theorem mem_nodes_iff {tree node : LinearTree α} : node ∈ tree.nodes ↔ tree.Reaches node := by
  constructor
  · intro member
    induction tree using induction_on_arguments with
    | node operation shape arguments step =>
      rcases mem_nodes_iff_root_or_below.mp member with rfl | ⟨argument, listed, inner⟩
      · exact .root _
      · exact .through listed (step argument listed inner)
  · intro reaches
    induction reaches with
    | root tree => exact mem_nodes_iff_root_or_below.mpr (.inl rfl)
    | through listed _ step => exact mem_nodes_iff_root_or_below.mpr (.inr ⟨_, listed, step⟩)

theorem mem_ids_iff {tree : LinearTree α} {id : Nat} :
    id ∈ tree.ids ↔ ∃ node, tree.Reaches node ∧ node.operation = .var id := by
  rw [mem_ids]
  refine exists_congr fun node => and_congr mem_nodes_iff ?_
  cases node.operation <;> simp [Primitive.id?]

theorem ids_of_no_arguments (operation : Primitive α) (shape : Shape) :
    (⟨operation, shape, []⟩ : LinearTree α).ids = operation.id?.toList := by
  cases operation <;> rfl

theorem ids_of_one_argument {operation : Primitive α} (inner : operation.id? = none)
    (shape : Shape) (input : LinearTree α) :
    (⟨operation, shape, [input]⟩ : LinearTree α).ids = input.ids := by
  simp [ids, idsListed, idsListedOfList, inner]

/-- The variables and constants of the tree are leaves: they carry no arguments. -/
def PlainLeaves (tree : LinearTree α) : Prop :=
  ∀ node, tree.Reaches node → (node.operation.id?.isSome || node.operation.isConstant) = true →
    node.arguments = []

theorem PlainLeaves.input {operation : Primitive α} {shape : Shape} {input : LinearTree α}
    (plain : PlainLeaves ⟨operation, shape, [input]⟩) : input.PlainLeaves :=
  fun node reaches => plain node (.through List.mem_cons_self reaches)

/-- The spine leads from the root to a node of the tree. -/
theorem reaches_bottom (tree : LinearTree α) : tree.Reaches tree.bottom := by
  fun_induction bottom tree with
  | case1 shape input step => exact .through List.mem_cons_self step
  | case2 shape input step => exact .through List.mem_cons_self step
  | case3 shape input step => exact .through List.mem_cons_self step
  | case4 tree => exact .root tree

end LinearTree

/-! ## Part 2: trees of expressions -/

namespace Expr

theorem ids_tree (expression : Expr α) : expression.tree.ids = expression.ids := by
  induction expression with
  | var leaf => rfl
  | const value => cases value <;> rfl
  | node transform argument step =>
    cases transform with
    | reshape target => exact (LinearTree.ids_of_one_argument rfl _ _).trans step
    | diagVec => exact (LinearTree.ids_of_one_argument rfl _ _).trans step
    | diagMat => exact (LinearTree.ids_of_one_argument rfl _ _).trans step

end Expr

/-! ## Part 3: forms of trees -/

namespace AffineForm

variable [Zero α] [One α] [Add α] [Magnitude α] [LE α] [DecidableLE α] {tolerances : Tolerances α}
  {tree : LinearTree α} {form : AffineForm α}

@[simp] theorem ids_scatter (form : AffineForm α) (shape : Shape) (pruning : α)
    (target : Nat → Option Nat) : (form.scatter shape pruning target).ids = form.ids :=
  IndexMap.keys_mapValues _ _

theorem isConstant_iff_ids : form.isConstant = true ↔ form.ids = [] := by
  rw [isConstant, ids, IndexMap.keys, List.isEmpty_iff, List.map_eq_nil_iff]

/-- The variable of a form is that of the bottom leaf, however much is pruned. -/
theorem Reads.ids_eq (reads : Reads tolerances tree form) :
    form.ids = tree.bottom.operation.id?.toList := by
  induction reads with
  | var id shape ignored => rfl
  | @constant operation entries held shape ignored => cases operation <;> cases held <;> rfl
  | reshape _ _ step => exact step
  | diagVec _ shape step => exact (ids_scatter _ _ _ _).trans step
  | diagMat _ shape step => exact (ids_scatter _ _ _ _).trans step

theorem Reads.mem_ids_tree (reads : Reads tolerances tree form) {id : Nat}
    (member : id ∈ form.ids) : id ∈ tree.ids := by
  rw [reads.ids_eq, Option.mem_toList] at member
  exact LinearTree.mem_ids.mpr
    ⟨tree.bottom, LinearTree.mem_nodes_iff.mpr tree.reaches_bottom, member⟩

theorem Reads.ids_tree_eq (reads : Reads tolerances tree form) (plain : tree.PlainLeaves) :
    tree.ids = tree.bottom.operation.id?.toList := by
  induction reads with
  | var id shape ignored =>
    cases plain _ (.root _) rfl
    exact LinearTree.ids_of_no_arguments _ _
  | @constant operation entries held shape ignored =>
    have leaf : (operation.id?.isSome || operation.isConstant) = true := by
      cases operation <;> cases held <;> rfl
    cases plain _ (.root _) leaf
    rw [LinearTree.ids_of_no_arguments]
    cases operation <;> cases held <;> rfl
  | reshape _ _ step => exact (LinearTree.ids_of_one_argument rfl _ _).trans (step plain.input)
  | diagVec _ _ step => exact (LinearTree.ids_of_one_argument rfl _ _).trans (step plain.input)
  | diagMat _ _ step => exact (LinearTree.ids_of_one_argument rfl _ _).trans (step plain.input)

/-- **Variables are the same at all levels.** A tree lists, in ascending order, the variables among
the nodes it reaches, and none exactly if it is constant. The tree of an expression has the
variables of the expression. A form has variables of its tree only, and if leaves carry no arguments
it has all of them, under any tolerances. -/
theorem variables_agree :
    (∀ tree : LinearTree α, tree.ids.Pairwise (· < ·) ∧
        (∀ id, id ∈ tree.ids ↔ ∃ node, tree.Reaches node ∧ node.operation = .var id) ∧
        (tree.ids = [] ↔ tree.isConstant = true)) ∧
      (∀ expression : Expr α, ∃ lowered, expression.lower = .ok lowered ∧
        lowered.tree.ids = expression.ids) ∧
      ∀ (tolerances : Tolerances α) (tree : LinearTree α) (form : AffineForm α),
        ofTree tolerances tree = .ok form → form.ids ⊆ tree.ids ∧
          (tree.PlainLeaves → form.ids = tree.ids ∧
            (form.isConstant = true ↔ tree.isConstant = true)) := by
  refine ⟨fun tree => ⟨tree.ids_ascending, fun id => LinearTree.mem_ids_iff,
    LinearTree.isConstant_iff.symm⟩, fun expression => ⟨_, expression.lower_eq,
    expression.ids_tree⟩, fun tolerances tree form read => ?_⟩
  have reads := reads_of_ofTree read
  refine ⟨fun id member => reads.mem_ids_tree member, fun plain => ?_⟩
  have same : form.ids = tree.ids := reads.ids_eq.trans (reads.ids_tree_eq plain).symm
  exact ⟨same, by rw [isConstant_iff_ids, LinearTree.isConstant_iff, same]⟩

/-- A tolerance of two prunes every coefficient of a diagonal, and its variable stays. -/
theorem variables_agree_pruned_diagonal :
    let tree : LinearTree Float := .diagVec (.var (.vector 2) 5)
    ∃ form, ofTree ⟨0, 2⟩ tree = .ok form ∧ form.ids ⊆ tree.ids ∧ form.ids = tree.ids ∧
      (form.isConstant = true ↔ tree.isConstant = true) := by
  intro tree
  have plain : tree.PlainLeaves := by
    intro node reaches leaf
    cases reaches with
    | root => cases leaf
    | through listed deeper =>
      cases List.mem_singleton.mp listed
      cases deeper with
      | root => rfl
      | through none _ => cases none
  obtain ⟨subset, equal⟩ := variables_agree.2.2 ⟨0, 2⟩ tree _ rfl
  exact ⟨_, rfl, subset, equal plain⟩

end AffineForm

end AffineArrays
