/-
**Errors, by cause.**

Every operation that can refuse its input answers in `Except Error`. A constructor names the
cause; the wording is in `Error.message` alone. Four causes are faults, which stop a program and
are no answer about its input: storage filled or read outside its bounds, a count that does not fit
in a machine word, and a remainder by zero.
-/

import AffineArrays.Shape

namespace AffineArrays

/-- What an operation asks of the shape it is given. -/
inductive Requirement where
  | shape (shape : Shape)
  | elements (count : Nat)
  | elementsOfShape (count : Nat) (shape : Shape)
  | elementsOfVariable (count : Nat) (id : Nat)
  | vector
  | atMostTwoDimensions
  | twoDimensions
  | someDimension
  | words (text : String)
  deriving DecidableEq

/-- What was found in place of a required shape. -/
inductive Found where
  | shape (shape : Shape)
  | count (count : Nat)
  | words (text : String)
  deriving DecidableEq

/-- The causes of failure. -/
inductive Error where
  | argumentShape (text : String)
  | shapeMismatch (required : Requirement) (found : Found)
  | argumentCount (operation : String) (expected found : Nat)
  | missingValue (id : Nat)
  | numerical (text : String)
  | valueCount (expected found : Nat)
  | outOfRange (index bound : Nat)
  | overflow
  | zeroDivisor
  deriving DecidableEq

/-- How a variable is shown in messages. -/
def variableText (id : Nat) : String := s!"ExprId({id})"

/-- The requirement in words. -/
def Requirement.text : Requirement → String
  | shape required => required.text
  | elements count => s!"{count} elements"
  | elementsOfShape count required => s!"{count} elements for shape {required}"
  | elementsOfVariable count id => s!"{count} elements for " ++ variableText id
  | vector => "a vector"
  | atMostTwoDimensions => "at most 2 dimensions"
  | twoDimensions => "a 2-D argument"
  | someDimension => "at least one dimension"
  | words text => text

/-- The finding in words. -/
def Found.text : Found → String
  | shape found => found.text
  | count found => toString found
  | words text => text

namespace Error

/-- The message shown for an error. -/
def message : Error → String
  | argumentShape text => text
  | shapeMismatch required found =>
    "Shape mismatch: expected " ++ required.text ++ ", got " ++ found.text
  | argumentCount operation expected found =>
    s!"{operation} expects {expected} argument(s), got {found}"
  | missingValue id => "No value assigned to variable " ++ variableText id
  | numerical text => "Numerical error: " ++ text
  | valueCount expected found => s!"a dense matrix of {expected} entries was given {found} values"
  | outOfRange index bound => s!"index {index} is outside a storage of {bound}"
  | overflow => "a count does not fit in a machine word"
  | zeroDivisor => "a remainder by zero"

/-- The faults: a wrong number of values, an index out of range, a count that does not fit in a
machine word, or a remainder by zero. -/
def isFault : Error → Bool
  | valueCount _ _ | outOfRange _ _ | overflow | zeroDivisor => true
  | _ => false

/-- The refusal of `diag` on an argument that is neither vector-shaped nor square. -/
def diagArgument : Error :=
  argumentShape "Argument to diag must be a vector or square matrix."

end Error

theorem bind_eq_ok_iff {β γ : Type} {first : Except Error β} {second : β → Except Error γ}
    {result : γ} :
    first.bind second = .ok result ↔ ∃ value, first = .ok value ∧ second value = .ok result := by
  cases first with
  | error failure => simp [Except.bind]
  | ok value => simp [Except.bind]

/-- A list of questions that are all answered stops nothing. -/
theorem forM_eq_ok {β : Type} {ask : β → Except Error PUnit} {items : List β}
    (answered : ∀ item ∈ items, ask item = .ok ()) : items.forM ask = .ok () := by
  induction items with
  | nil => rfl
  | cons first rest step =>
    show (ask first).bind (fun _ => rest.forM ask) = _
    rw [answered first List.mem_cons_self]
    exact step fun item member => answered item (List.mem_cons_of_mem _ member)

/-- One question that fails stops the list, with the only failure that there is. -/
theorem forM_eq_error {β : Type} {ask : β → Except Error PUnit} {items : List β} {item : β}
    {failure : Error} (member : item ∈ items) (failed : ask item = .error failure)
    (only : ∀ other found, ask other = .error found → found = failure) :
    items.forM ask = .error failure := by
  induction items with
  | nil => cases member
  | cons first rest step =>
    show (ask first).bind (fun _ => rest.forM ask) = _
    cases asked : ask first with
    | error found =>
      rw [only first found asked]
      rfl
    | ok answer =>
      rcases List.mem_cons.mp member with rfl | later
      · rw [failed] at asked
        cases asked
      · exact step later

/-- The only item of a list; any other number of items is an argument-count error. -/
def single {β : Type} (operation : String) : List β → Except Error β
  | [item] => .ok item
  | items => .error (.argumentCount operation 1 items.length)

@[simp] theorem single_singleton {β : Type} (operation : String) (item : β) :
    single operation [item] = .ok item := rfl

/-- Any list that is not a singleton is refused with its length. -/
theorem single_of_length_ne_one {β : Type} (operation : String) {items : List β}
    (count : items.length ≠ 1) :
    single operation items = .error (.argumentCount operation 1 items.length) := by
  match items with
  | [] => rfl
  | [_] => exact absurd rfl count
  | _ :: _ :: _ => rfl

end AffineArrays
