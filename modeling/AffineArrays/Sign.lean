/-
**Signs.**

What is known of the sign of every entry of an array.
-/

namespace AffineArrays

/-- What is known of the sign of all entries of an array. -/
inductive Sign where
  | nonnegative
  | nonpositive
  | zero
  | unknown
  deriving DecidableEq

namespace Sign

/-- The entries are known to be at least zero. -/
def isNonneg : Sign → Bool
  | nonnegative | zero => true
  | _ => false

/-- The entries are known to be at most zero. -/
def isNonpos : Sign → Bool
  | nonpositive | zero => true
  | _ => false

/-- The entries are known to be zero. -/
def isZero : Sign → Bool
  | zero => true
  | _ => false

/-- The sign with the given bounds. -/
def ofBounds : (nonneg nonpos : Bool) → Sign
  | true, true => zero
  | true, false => nonnegative
  | false, true => nonpositive
  | false, false => unknown

@[simp] theorem isNonneg_ofBounds (nonneg nonpos : Bool) :
    (ofBounds nonneg nonpos).isNonneg = nonneg := by
  cases nonneg <;> cases nonpos <;> rfl

@[simp] theorem isNonpos_ofBounds (nonneg nonpos : Bool) :
    (ofBounds nonneg nonpos).isNonpos = nonpos := by
  cases nonneg <;> cases nonpos <;> rfl

end Sign

end AffineArrays
