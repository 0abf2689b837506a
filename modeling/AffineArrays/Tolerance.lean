/-
**Magnitudes and tolerances.**

Entries are compared up to a tolerance through their magnitude. Nothing is asked of the numbers
but the operations, so floating-point numbers qualify. The one law of magnitudes that proofs use is
`MagnitudesNonneg`.
-/

namespace AffineArrays

/-- Numbers with a magnitude. -/
class Magnitude (α : Type) where
  magnitude : α → α

export Magnitude (magnitude)

/-- The magnitude of a floating-point number is its absolute value. -/
instance : Magnitude Float := ⟨Float.abs⟩

/-- Magnitudes are never negative: a tolerance below zero reaches none. -/
def MagnitudesNonneg (α : Type) [Zero α] [Magnitude α] [LE α] [LT α] : Prop :=
  ∀ entry tolerance : α, tolerance < 0 → ¬ magnitude entry ≤ tolerance

/-- The tolerances of property checks and of coefficient extraction. -/
structure Tolerances (α : Type) where
  /-- The largest difference of opposite entries that still counts as symmetric. -/
  symmetry : α
  /-- Coefficients with a magnitude at or below this one are dropped when rows are moved. -/
  pruning : α

/-- The tolerances used unless others are given. -/
def Tolerances.standard {α : Type} [OfScientific α] : Tolerances α := ⟨1e-10, 1e-15⟩

end AffineArrays
