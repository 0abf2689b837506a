/-
**What can be wrong with a tree.**

A form is read off a tree along its spine, and only there can the tree be at fault: at a node that ends
the spine because it has no input or several, or at a reshape to another size than its input declares. A
tree that is written by hand may have many of these faults. Reading goes down to the leaf before it
compares sizes, so the end of the spine is met first, and then the deepest reshape.

* `spine_induction`: a tree is a leaf, or ends in a fork, or passes on what its one input gives;
* `ofTree_through`, `pass_of_misfit`, `exists_pass`: what a node on the spine does to the form of its input;
* `length_arguments_bottom`: a spine that does not end in a leaf ends without exactly one input;
* `ofTree_of_leaf`: over a leaf it is the deepest reshape to another size, if there is one.
-/

import AffineArrays.Proofs.Spine

set_option linter.unusedSectionVars false

namespace AffineArrays

variable {α : Type}

/-- The operation is a variable or a constant. Every other one acts on an input. -/
def Primitive.isLeaf (operation : Primitive α) : Bool :=
  operation.id?.isSome || operation.isConstant

theorem Primitive.inner_cases {operation : Primitive α} (inner : operation.isLeaf = false) :
    operation = .reshape ∨ operation = .diagVec ∨ operation = .diagMat := by
  cases operation with
  | reshape => exact .inl rfl
  | diagVec => exact .inr (.inl rfl)
  | diagMat => exact .inr (.inr rfl)
  | _ => cases inner

namespace LinearTree

/-! ## Part 1: the nodes of the spine -/

/-- The nodes from the root down to the bottom, through single arguments. -/
def spine : LinearTree α → List (LinearTree α)
  | ⟨.reshape, shape, [input]⟩ => ⟨.reshape, shape, [input]⟩ :: input.spine
  | ⟨.diagVec, shape, [input]⟩ => ⟨.diagVec, shape, [input]⟩ :: input.spine
  | ⟨.diagMat, shape, [input]⟩ => ⟨.diagMat, shape, [input]⟩ :: input.spine
  | tree => [tree]

/-- What a reshape declares and what its input declares, if the sizes differ. -/
def misfit? : LinearTree α → Option (Shape × Shape)
  | ⟨.reshape, shape, [input]⟩ =>
    if input.shape.size = shape.size then none else some (shape, input.shape)
  | _ => none

/-- The reshapes to another size on the spine, from the root down. -/
def misfits (tree : LinearTree α) : List (Shape × Shape) := tree.spine.filterMap misfit?

/-- **The kinds of trees along the spine**: a leaf, with arguments that are not looked at; a node that
ends the spine without exactly one input; and a node with one. -/
@[elab_as_elim]
theorem spine_induction {motive : LinearTree α → Prop}
    (leaf : ∀ operation shape ignored, operation.isLeaf = true → motive ⟨operation, shape, ignored⟩)
    (fork : ∀ operation shape arguments, operation.isLeaf = false → arguments.length ≠ 1 →
      motive ⟨operation, shape, arguments⟩)
    (through : ∀ operation shape input, operation.isLeaf = false → motive input →
      motive ⟨operation, shape, [input]⟩) : ∀ tree, motive tree
  | ⟨operation, shape, arguments⟩ => by
    cases kind : operation.isLeaf with
    | true => exact leaf operation shape arguments kind
    | false =>
      match arguments with
      | [] => exact fork operation shape [] kind nofun
      | [input] => exact through operation shape input kind (spine_induction leaf fork through input)
      | first :: second :: rest =>
        exact fork operation shape (first :: second :: rest) kind (by simp)

variable {operation : Primitive α} {shape : Shape} {arguments : List (LinearTree α)}
  {input : LinearTree α}

/-- The spine ends at a leaf, whatever arguments it has. -/
theorem spine_leaf (leaf : operation.isLeaf = true) :
    (⟨operation, shape, arguments⟩ : LinearTree α).bottom = ⟨operation, shape, arguments⟩ ∧
      (⟨operation, shape, arguments⟩ : LinearTree α).spine = [⟨operation, shape, arguments⟩] := by
  cases operation with
  | reshape => cases leaf
  | diagVec => cases leaf
  | diagMat => cases leaf
  | _ => exact ⟨rfl, rfl⟩

/-- The spine ends at a node without exactly one input. -/
theorem spine_fork (count : arguments.length ≠ 1) :
    (⟨operation, shape, arguments⟩ : LinearTree α).bottom = ⟨operation, shape, arguments⟩ ∧
      (⟨operation, shape, arguments⟩ : LinearTree α).spine = [⟨operation, shape, arguments⟩] := by
  match arguments, count with
  | [], _ => cases operation <;> exact ⟨rfl, rfl⟩
  | [_], count => exact absurd rfl count
  | _ :: _ :: _, _ => cases operation <;> exact ⟨rfl, rfl⟩

/-- The spine of a node with one input goes on below it. -/
theorem spine_through (inner : operation.isLeaf = false) :
    (⟨operation, shape, [input]⟩ : LinearTree α).bottom = input.bottom ∧
      (⟨operation, shape, [input]⟩ : LinearTree α).spine =
        ⟨operation, shape, [input]⟩ :: input.spine := by
  rcases Primitive.inner_cases inner with rfl | rfl | rfl <;> exact ⟨rfl, rfl⟩

/-- A spine that does not end in a leaf ends in a node without exactly one input. -/
theorem length_arguments_bottom {tree : LinearTree α}
    (inner : tree.bottom.operation.isLeaf = false) : tree.bottom.arguments.length ≠ 1 := by
  induction tree using spine_induction with
  | leaf operation shape ignored kind =>
    rw [(spine_leaf kind).1, kind] at inner
    cases inner
  | fork operation shape arguments kind count =>
    rw [(spine_fork count).1]
    exact count
  | through operation shape input kind step =>
    rw [(spine_through kind).1] at inner ⊢
    exact step inner

/-- The spine ends at the bottom. -/
theorem spine_getLast? (tree : LinearTree α) : tree.spine.getLast? = some tree.bottom := by
  induction tree using spine_induction with
  | leaf operation shape ignored leaf =>
    rw [(spine_leaf leaf).1, (spine_leaf leaf).2, List.getLast?_singleton]
  | fork operation shape arguments inner count =>
    rw [(spine_fork count).1, (spine_fork count).2, List.getLast?_singleton]
  | through operation shape input inner step =>
    rw [(spine_through inner).1, (spine_through inner).2, List.getLast?_cons, step, Option.getD_some]

/-- The deepest misfit of a node with one input is that of its input, and the node itself is asked
last. -/
theorem getLast?_misfits_through (inner : operation.isLeaf = false) :
    (⟨operation, shape, [input]⟩ : LinearTree α).misfits.getLast? =
      input.misfits.getLast?.or (misfit? ⟨operation, shape, [input]⟩) := by
  rw [misfits, (spine_through inner).2]
  cases found : misfit? ⟨operation, shape, [input]⟩ with
  | none => rw [List.filterMap_cons_none found, Option.or_none, misfits]
  | some misfit =>
    rw [List.filterMap_cons_some found, ← List.singleton_append, List.getLast?_append,
      List.getLast?_singleton, misfits]

end LinearTree

namespace AffineForm

variable [Zero α] [One α] [Add α] [Magnitude α] [LE α] [DecidableLE α] {tolerances : Tolerances α}
  {tree : LinearTree α}

/-! ## Part 2: one node -/

/-- What a node of this operation and shape makes of the form of its one input. -/
def pass (tolerances : Tolerances α) (operation : Primitive α) (shape : Shape)
    (form : AffineForm α) : Except Error (AffineForm α) :=
  match operation with
  | .reshape => form.reshape shape
  | .diagVec => .ok (form.scatter shape tolerances.pruning (diagVecRow shape.rows))
  | .diagMat =>
    .ok (form.scatter shape tolerances.pruning (diagMatRow form.shape.rows shape.size))
  | _ => .ok form

theorem exists_form_of_leaf {operation : Primitive α} (leaf : operation.isLeaf = true)
    (shape : Shape) (ignored : List (LinearTree α)) :
    ∃ form, ofTree tolerances ⟨operation, shape, ignored⟩ = .ok form := by
  cases operation with
  | var id => exact ⟨_, rfl⟩
  | scalarConstant entry => exact ⟨_, rfl⟩
  | denseConstant entries => exact ⟨_, rfl⟩
  | sparseConstant matrix => exact ⟨_, rfl⟩
  | _ => cases leaf

theorem ofTree_fork {operation : Primitive α} (inner : operation.isLeaf = false) (shape : Shape)
    {arguments : List (LinearTree α)} (count : arguments.length ≠ 1) :
    ofTree tolerances ⟨operation, shape, arguments⟩ =
      .error (.argumentCount operation.tag 1 arguments.length) := by
  match arguments, count with
  | [], _ => rcases Primitive.inner_cases inner with rfl | rfl | rfl <;> rfl
  | [_], count => exact absurd rfl count
  | _ :: _ :: _, _ => rcases Primitive.inner_cases inner with rfl | rfl | rfl <;> rfl

theorem ofTree_through {operation : Primitive α} (inner : operation.isLeaf = false) (shape : Shape)
    (input : LinearTree α) :
    ofTree tolerances ⟨operation, shape, [input]⟩ =
      (ofTree tolerances input).bind (pass tolerances operation shape) := by
  rcases Primitive.inner_cases inner with rfl | rfl | rfl <;> rfl

/-- A misfit refuses the form of its input. -/
theorem pass_of_misfit {operation : Primitive α} {shape asked found : Shape} {input : LinearTree α}
    {form : AffineForm α} (declared : form.shape = input.shape)
    (misfit : LinearTree.misfit? ⟨operation, shape, [input]⟩ = some (asked, found)) :
    pass tolerances operation shape form =
      .error (.shapeMismatch (.elements asked.size) (.shape found)) := by
  cases operation with
  | reshape =>
    simp only [LinearTree.misfit?, Option.ite_none_left_eq_some, Option.some.injEq,
      Prod.mk.injEq] at misfit
    obtain ⟨differs, rfl, rfl⟩ := misfit
    rw [← declared] at differs ⊢
    exact if_neg differs
  | _ => cases misfit

/-- Any other node passes it on. -/
theorem exists_pass {operation : Primitive α} {shape : Shape} {input : LinearTree α}
    {form : AffineForm α} (declared : form.shape = input.shape)
    (fits : LinearTree.misfit? ⟨operation, shape, [input]⟩ = none) :
    ∃ passed, pass tolerances operation shape form = .ok passed := by
  cases operation with
  | reshape =>
    simp only [LinearTree.misfit?, ite_eq_left_iff, reduceCtorEq, imp_false, Decidable.not_not]
      at fits
    rw [← declared] at fits
    exact ⟨_, if_pos fits⟩
  | _ => exact ⟨_, rfl⟩

/-! ## Part 3: whole spines -/

/-- **Over a leaf, the deepest misfit is the fault**; without one there is a form. -/
theorem ofTree_of_leaf (tolerances : Tolerances α) (leaf : tree.bottom.operation.isLeaf = true) :
    (∀ asked found, tree.misfits.getLast? = some (asked, found) → ofTree tolerances tree =
        .error (.shapeMismatch (.elements asked.size) (.shape found))) ∧
      (tree.misfits.getLast? = none → ∃ form, ofTree tolerances tree = .ok form) := by
  induction tree using LinearTree.spine_induction with
  | leaf operation shape ignored kind =>
    have fits : (⟨operation, shape, ignored⟩ : LinearTree α).misfits = [] := by
      rw [LinearTree.misfits, (LinearTree.spine_leaf kind).2]
      cases operation with
      | reshape => cases kind
      | _ => rfl
    rw [fits]
    exact ⟨nofun, fun _ => exists_form_of_leaf kind shape ignored⟩
  | fork operation shape arguments kind count =>
    rw [(LinearTree.spine_fork count).1, kind] at leaf
    cases leaf
  | through operation shape input kind step =>
    rw [(LinearTree.spine_through kind).1] at leaf
    obtain ⟨refused, accepted⟩ := step leaf
    rw [LinearTree.getLast?_misfits_through kind, ofTree_through kind]
    cases below : input.misfits.getLast? with
    | some deepest =>
      -- the misfit below has failed already, and this node is not asked
      rw [refused deepest.1 deepest.2 below, Option.some_or]
      refine ⟨fun asked found same => ?_, nofun⟩
      cases same
      rfl
    | none =>
      obtain ⟨form, read⟩ := accepted below
      have declared := (reads_of_ofTree read).shape_eq
      rw [read, Option.none_or]
      exact ⟨fun asked found misfit => pass_of_misfit declared misfit, exists_pass declared⟩

end AffineForm

end AffineArrays
