/-
**Trees of primitive linear operations.**

The lowered form of an expression: a leaf is a variable or a constant, and an inner node applies
one primitive to the results of its arguments. Each node declares the shape of its result. Trees
may also be written by hand, so nothing ties a declared shape to the arguments, and leaves may
carry arguments that nothing reads.

* `idsListed_eq`, `isConstant_eq`: what the two recursions compute, read off the nodes;
* `mem_ids`: the ids of a tree are those of its variable nodes;
* `ids_ascending`: they ascend strictly;
* `isConstant_iff`: a tree is constant exactly when it has no ids.
-/

import AffineArrays.Value

namespace AffineArrays

/-! ## Part 1: nodes -/

/-- What a node computes. -/
inductive Primitive (α : Type) where
  | var (id : Nat)
  | scalarConstant (entry : α)
  | denseConstant (entries : List α)
  | sparseConstant (matrix : SparseMatrix α)
  | reshape
  | diagVec
  | diagMat

namespace Primitive

variable {α : Type}

/-- The short name of an operation. -/
def tag : Primitive α → String
  | var _ => "variable"
  | scalarConstant _ => "scalar_const"
  | denseConstant _ => "dense_const"
  | sparseConstant _ => "sparse_const"
  | reshape => "reshape"
  | diagVec => "diag_vec"
  | diagMat => "diag_mat"

/-- The number of a variable. -/
def id? : Primitive α → Option Nat
  | var id => some id
  | _ => none

/-- The operation is one of the three constants. -/
def isConstant : Primitive α → Bool
  | scalarConstant _ | denseConstant _ | sparseConstant _ => true
  | _ => false

end Primitive

/-- A node with the shape it declares and its arguments. -/
structure LinearTree (α : Type) where
  operation : Primitive α
  shape : Shape
  arguments : List (LinearTree α)

namespace LinearTree

variable {α : Type}

/-! ## Part 2: building -/

/-- A variable leaf. -/
def var (shape : Shape) (id : Nat) : LinearTree α := ⟨.var id, shape, []⟩

/-- A constant leaf. Numbers and sparse matrices keep their storage; any other array is listed
column by column. -/
def constant : Value α → LinearTree α
  | .scalar entry => ⟨.scalarConstant entry, .scalar, []⟩
  | .vector entries => ⟨.denseConstant entries, .vector entries.length, []⟩
  | .dense matrix => ⟨.denseConstant matrix.data.toList, .matrix matrix.rows matrix.cols, []⟩
  | .sparse matrix => ⟨.sparseConstant matrix, .matrix matrix.rows matrix.cols, []⟩
  | .tensor shape entries => ⟨.denseConstant entries, shape, []⟩

/-- The input under another shape. -/
def reshape (input : LinearTree α) (shape : Shape) : LinearTree α := ⟨.reshape, shape, [input]⟩

/-- The square matrix with the input on its diagonal. -/
def diagVec (input : LinearTree α) : LinearTree α :=
  ⟨.diagVec, .matrix input.shape.rows input.shape.rows, [input]⟩

/-- The main diagonal of the input, one entry per row. -/
def diagMat (input : LinearTree α) : LinearTree α :=
  ⟨.diagMat, .vector input.shape.rows, [input]⟩

@[simp] theorem shape_constant (value : Value α) : (constant value).shape = value.shape := by
  cases value <;> rfl

/-! ## Part 3: the nodes of a tree -/

mutual

/-- All nodes, each before its arguments, the arguments in order. -/
def nodes : LinearTree α → List (LinearTree α)
  | ⟨operation, shape, arguments⟩ => ⟨operation, shape, arguments⟩ :: nodesOfList arguments

/-- All nodes of a list of trees. -/
def nodesOfList : List (LinearTree α) → List (LinearTree α)
  | [] => []
  | tree :: rest => tree.nodes ++ nodesOfList rest

end

mutual

/-- The numbers of the variables in the order of the nodes, as often as they occur. -/
def idsListed : LinearTree α → List Nat
  | ⟨operation, _, arguments⟩ => operation.id?.toList ++ idsListedOfList arguments

/-- The numbers of the variables in a list of trees. -/
def idsListedOfList : List (LinearTree α) → List Nat
  | [] => []
  | tree :: rest => tree.idsListed ++ idsListedOfList rest

end

/-- The numbers of the variables in the tree, ascending and each once. -/
def ids (tree : LinearTree α) : List Nat := IndexMap.sortedKeys tree.idsListed

mutual

/-- The node is no variable, and its arguments are constant. -/
def isConstant : LinearTree α → Bool
  | ⟨operation, _, arguments⟩ => operation.id?.isNone && areConstant arguments

/-- All trees of a list are constant. -/
def areConstant : List (LinearTree α) → Bool
  | [] => true
  | tree :: rest => tree.isConstant && areConstant rest

end

theorem nodes_eq (tree : LinearTree α) : tree.nodes = tree :: nodesOfList tree.arguments := by
  obtain ⟨operation, shape, arguments⟩ := tree
  simp only [nodes]

theorem nodesOfList_eq_flatMap (trees : List (LinearTree α)) :
    nodesOfList trees = trees.flatMap nodes := by
  induction trees with
  | nil => simp [nodesOfList]
  | cons tree rest step => simp [nodesOfList, step]

mutual

theorem idsListed_eq (tree : LinearTree α) :
    tree.idsListed = tree.nodes.filterMap fun node => node.operation.id? := by
  obtain ⟨operation, shape, arguments⟩ := tree
  rw [idsListed, nodes, List.filterMap_cons, idsListedOfList_eq arguments]
  cases operation.id? <;> rfl

theorem idsListedOfList_eq (trees : List (LinearTree α)) :
    idsListedOfList trees = (nodesOfList trees).filterMap fun node => node.operation.id? := by
  cases trees with
  | nil => rw [idsListedOfList, nodesOfList, List.filterMap_nil]
  | cons tree rest =>
    rw [idsListedOfList, nodesOfList, List.filterMap_append, idsListed_eq tree,
      idsListedOfList_eq rest]

end

mutual

theorem isConstant_eq (tree : LinearTree α) :
    tree.isConstant = tree.nodes.all fun node => node.operation.id?.isNone := by
  obtain ⟨operation, shape, arguments⟩ := tree
  rw [isConstant, nodes, List.all_cons, areConstant_eq arguments]

theorem areConstant_eq (trees : List (LinearTree α)) :
    areConstant trees = (nodesOfList trees).all fun node => node.operation.id?.isNone := by
  cases trees with
  | nil => rw [areConstant, nodesOfList, List.all_nil]
  | cons tree rest =>
    rw [areConstant, nodesOfList, List.all_append, isConstant_eq tree, areConstant_eq rest]

end

theorem mem_ids {tree : LinearTree α} {id : Nat} :
    id ∈ tree.ids ↔ ∃ node ∈ tree.nodes, node.operation.id? = some id := by
  simp [ids, idsListed_eq]

theorem ids_ascending (tree : LinearTree α) : tree.ids.Pairwise (· < ·) :=
  IndexMap.sortedKeys_ascending _

theorem isConstant_iff {tree : LinearTree α} : tree.isConstant = true ↔ tree.ids = [] := by
  rw [List.eq_nil_iff_forall_not_mem, isConstant_eq, List.all_eq_true]
  constructor
  · intro none id member
    obtain ⟨node, inside, found⟩ := mem_ids.mp member
    have := none node inside
    rw [found] at this
    cases this
  · intro absent node inside
    cases found : node.operation.id? with
    | none => rfl
    | some id => exact absurd (mem_ids.mpr ⟨node, inside, found⟩) (absent id)

end LinearTree

/-! ## Part 4: lowered expressions -/

/-- A condition on a lowered expression. -/
inductive Constraint (α : Type) where
  | equality (tree : LinearTree α)
  | inequality (tree : LinearTree α)

/-- The expression under the condition. -/
def Constraint.tree {α : Type} : Constraint α → LinearTree α
  | equality tree | inequality tree => tree

/-- A lowered expression with the constraints that lowering introduced. -/
structure Lowered (α : Type) where
  tree : LinearTree α
  constraints : List (Constraint α)

/-- A lowered expression that needs no constraints. -/
def Lowered.unconstrained {α : Type} (tree : LinearTree α) : Lowered α := ⟨tree, []⟩

end AffineArrays
