/-
**Variables and assignments.**

A variable is known by its number. It declares a shape, perhaps a name, and attributes that are
taken on trust: the sign of its entries and whether it is a symmetric matrix. An assignment gives
arrays to some variables.

* `isSquare_of_symmetric`: only square variables are declared symmetric.
-/

import AffineArrays.Sign
import AffineArrays.Value

namespace AffineArrays

/-! ## Part 1: numbers -/

/-- The numbers not yet given to a variable. -/
structure VariableSupply where
  next : Nat

namespace VariableSupply

/-- The supply of which nothing is used. -/
def full : VariableSupply := ⟨0⟩

/-- Take one number. -/
def fresh (supply : VariableSupply) : Nat × VariableSupply := (supply.next, ⟨supply.next + 1⟩)

/-- Take a number of numbers, one after the other. -/
def freshIds : Nat → VariableSupply → List Nat × VariableSupply
  | 0, supply => ([], supply)
  | count + 1, supply =>
    let (first, afterFirst) := supply.fresh
    let (rest, afterRest) := freshIds count afterFirst
    (first :: rest, afterRest)

end VariableSupply

/-! ## Part 2: variables -/

/-- What can be declared of a variable. -/
inductive Attribute where
  | nonneg
  | nonpos
  | symmetric
  deriving DecidableEq

/-- What has been declared so far. -/
structure Declared where
  nonneg : Bool
  nonpos : Bool
  symmetric : Bool

/-- Declare one more attribute; a sign clears the other one. -/
def Declared.add (declared : Declared) : Attribute → Declared
  | .nonneg => { declared with nonneg := true, nonpos := false }
  | .nonpos => { declared with nonpos := true, nonneg := false }
  | .symmetric => { declared with symmetric := true }

/-- What is declared by a list of attributes, one after the other. -/
def Declared.ofAttributes (attributes : List Attribute) : Declared :=
  attributes.foldl add ⟨false, false, false⟩

/-- A variable and its declarations. -/
structure Variable where
  id : Nat
  shape : Shape
  name : Option String
  nonneg : Bool
  nonpos : Bool
  symmetric : Bool
  deriving DecidableEq

namespace Variable

/-- Declare a variable. Only a square variable can be symmetric. -/
def declare (id : Nat) (shape : Shape) (name : Option String) (attributes : List Attribute) :
    Variable :=
  let declared := Declared.ofAttributes attributes
  { id
    shape
    name
    nonneg := declared.nonneg
    nonpos := declared.nonpos
    symmetric := declared.symmetric && shape.isSquare }

/-- What is known of the sign of the entries. Of two declared signs the first one is read. -/
def sign (leaf : Variable) : Sign :=
  if leaf.nonneg then .nonnegative
  else if leaf.nonpos then .nonpositive
  else .unknown

theorem isSquare_of_symmetric {id : Nat} {shape : Shape} {name : Option String}
    {attributes : List Attribute} (symmetric : (declare id shape name attributes).symmetric = true) :
    shape.isSquare = true :=
  (Bool.and_eq_true_iff.mp symmetric).2

end Variable

/-! ## Part 3: assignments -/

/-- The arrays given to variables, by number. -/
def Assignment (α : Type) : Type := Nat → Option (Value α)

namespace Assignment

variable {α : Type}

/-- No variable has a value. -/
def empty : Assignment α := fun _ => none

/-- Give a value to one variable, in place of any other. -/
def set (values : Assignment α) (id : Nat) (value : Value α) : Assignment α :=
  fun other => if other = id then some value else values other

/-- The assignment of a list of pairs; a later pair replaces an earlier one of its variable. -/
def ofList (pairs : List (Nat × Value α)) : Assignment α :=
  pairs.foldl (fun values pair => values.set pair.1 pair.2) empty

end Assignment

end AffineArrays
