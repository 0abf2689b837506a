/-
**Nothing but its own variables.**

An evaluation looks up the variables of its expression and no others, and so does the form that the
expression lowers to. Variables are looked up at the leaves, before any node is computed, so a missing
value is reported whatever the nodes above it would refuse.

* `AffineForm.evaluate_congr`: the value of a form depends on its own variables alone;
* `Expr.form_evaluate_congr`: so does the value of the form of an expression;
* `Expr.evaluate_missing`: a variable without a value is the failure of every expression over it;
* `Expr.value_missing_iff`: without any values, every expression with a variable misses one;
* `Expr.own_variables_decide`: all of this for one expression and its form.
-/

import AffineArrays.Proofs.CurvatureSoundness
import AffineArrays.Proofs.Occurrences
import AffineArrays.Proofs.StorageSafety

set_option linter.unusedSectionVars false

namespace AffineArrays

variable {α : Type}

/-! ## Part 1: forms -/

theorem foldlM_congr_of_mem {β γ : Type} {step other : γ → β → Except Error γ} {items : List β}
    (same : ∀ item ∈ items, ∀ sums, step sums item = other sums item) (start : γ) :
    items.foldlM step start = items.foldlM other start := by
  induction items generalizing start with
  | nil => rfl
  | cons item rest more =>
    have tail := more fun later member => same later (List.mem_cons_of_mem _ member)
    rw [List.foldlM_cons, List.foldlM_cons, same item List.mem_cons_self, funext tail]

/-- The value of a form depends on its own variables alone. -/
theorem AffineForm.evaluate_congr [Zero α] [Add α] [Mul α] {form : AffineForm α}
    {first second : Assignment α} (agree : ∀ id ∈ form.ids, first id = second id) :
    form.evaluate first = form.evaluate second := by
  unfold evaluate
  refine congrArg (Except.bind · _) (foldlM_congr_of_mem (fun (id, matrix) member sums => ?_) _)
  have looked : first id = second id := agree id (List.mem_map_of_mem member)
  simp only [looked]

/-! ## Part 2: expressions -/

namespace Expr

section Forms

variable [Zero α] [One α] [Add α] [Mul α] [Magnitude α] [LE α] [DecidableLE α]

/-- The value of the form of an expression depends on the variables of the expression alone. -/
theorem form_evaluate_congr {expression : Expr α} {tolerances : Tolerances α} {form : AffineForm α}
    (reads : AffineForm.Reads tolerances expression.tree form) {first second : Assignment α}
    (agree : ∀ id ∈ expression.ids, first id = second id) :
    form.evaluate first = form.evaluate second := by
  refine AffineForm.evaluate_congr fun id member => agree id ?_
  rw [← ids_tree]
  exact reads.mem_ids_tree member

end Forms

section Missing

variable [Zero α] [Add α] {expression : Expr α}

/-- A variable without a value is the failure, whatever the nodes above it would refuse. -/
theorem evaluate_missing {values : Assignment α} {id : Nat} (member : id ∈ expression.ids)
    (missing : values id = none) : expression.evaluate values = .error (.missingValue id) := by
  induction expression with
  | var leaf =>
    cases List.mem_singleton.mp member
    rw [evaluate, missing]
  | const value => cases member
  | node transform argument step =>
    rw [evaluate_node, step member]
    rfl

/-- Without any values, an expression misses one exactly if it has a variable. -/
theorem value_missing_iff :
    (∃ id, expression.value = .error (.missingValue id)) ↔ expression.ids ≠ [] := by
  constructor
  · rintro ⟨id, failed⟩
    rcases evaluate_failure failed with ⟨other, member, _⟩ | ⟨required, found, mismatch⟩
    · exact List.ne_nil_of_mem member
    · cases mismatch
  · intro varies
    obtain ⟨id, member⟩ := List.exists_mem_of_ne_nil _ varies
    exact ⟨id, evaluate_missing member rfl⟩

end Missing

/-- **An expression reads its own variables alone, and reports a missing one first.** Assignments that
agree on them give it the same answer, value or failure, and they give the same answer to each of its
forms. If one of them has no value, that is the failure; and without any values this happens exactly to
the expressions that have a variable. -/
theorem own_variables_decide [Zero α] [One α] [Add α] [Mul α] [Magnitude α] [LE α] [DecidableLE α]
    (expression : Expr α) :
    (∀ first second : Assignment α, (∀ id ∈ expression.ids, first id = second id) →
        expression.evaluate first = expression.evaluate second) ∧
      (∃ lowered, expression.lower = .ok lowered ∧ ∀ tolerances,
        (expression.Constructed (fun _ => True) →
          ∃ form, AffineForm.ofTree tolerances lowered.tree = .ok form) ∧
        ∀ form, AffineForm.ofTree tolerances lowered.tree = .ok form →
          ∀ first second : Assignment α, (∀ id ∈ expression.ids, first id = second id) →
            form.evaluate first = form.evaluate second) ∧
      (∀ (values : Assignment α) (id : Nat), id ∈ expression.ids → values id = none →
        expression.evaluate values = .error (.missingValue id)) ∧
      ((∃ id, expression.value = .error (.missingValue id)) ↔ expression.ids ≠ []) := by
  refine ⟨fun first second agree => evaluate_congr agree,
    ⟨_, lower_eq expression, fun tolerances => ⟨fun constructed => ?_, ?_⟩⟩,
    fun values id member missing => evaluate_missing member missing, value_missing_iff⟩
  · obtain ⟨form, reads⟩ := exists_reads_tree constructed.built tolerances
    exact ⟨form, reads.ofTree_eq⟩
  · intro form read first second agree
    exact form_evaluate_congr (AffineForm.reads_of_ofTree read) agree

/-- A row is put on a diagonal without being flattened, which has no value under any assignment. The
missing row is reported all the same, and the form of the diagonal does not see another variable. -/
theorem own_variables_decide_spread_row :
    let spread : Expr Float := .node .diagVec (.var (.declare 3 (.matrix 1 2) none []))
    let given : Assignment Float := Assignment.empty.set 3 (.dense ⟨1, 2, #[5, 7], rfl⟩)
    let more : Assignment Float := given.set 4 (.scalar 1)
    spread.evaluate given = spread.evaluate more ∧
      (∃ form, AffineForm.ofTree .standard spread.tree = .ok form ∧
        form.evaluate given = form.evaluate more) ∧
      spread.evaluate (Assignment.empty.set 4 (.scalar 1)) = .error (.missingValue 3) ∧
      ∃ id, spread.value = .error (.missingValue id) := by
  intro spread given more
  have agree : ∀ id ∈ spread.ids, given id = more id := by
    intro id member
    cases List.mem_singleton.mp member
    rfl
  have constructed : spread.Constructed fun _ => True := constructed_iff_built.mpr ⟨trivial, rfl⟩
  obtain ⟨direct, ⟨lowered, lower, forms⟩, missing, alone⟩ := own_variables_decide spread
  cases (lower_eq spread).symm.trans lower
  obtain ⟨form, read⟩ := (forms .standard).1 constructed
  exact ⟨direct given more agree, ⟨form, read, (forms .standard).2 form read given more agree⟩,
    missing _ 3 List.mem_cons_self rfl, alone.mpr (List.cons_ne_nil _ _)⟩

end Expr

end AffineArrays
