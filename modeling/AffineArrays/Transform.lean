/-
**The structural transforms.**

Three operations on one array that only move entries or fill in zeros: the same entries under
another shape, a vector on the diagonal of a square matrix, and the main diagonal of a matrix. The
shape of the result is decided from the shape of the argument alone.

* `check_reshape`, `check_diagVec`, `check_diagMat`: which arguments are taken;
* `value_operation`, `lowered_operation`: what the contract of an operation says of a transform.
-/

import AffineArrays.Operation

namespace AffineArrays

/-- An operation on one array that moves entries and fills in zeros. -/
inductive Transform where
  | reshape (target : Shape)
  | diagVec
  | diagMat
  deriving DecidableEq

namespace Transform

variable {α : Type}

/-! ## Part 1: shapes -/

/-- The name of the transform. -/
def name : Transform → String
  | reshape _ => "reshape"
  | diagVec => "diag_vec"
  | diagMat => "diag_mat"

/-- The shape declared for an argument of the given shape. Only the dimensions it needs are looked
at. -/
def declaredShape : Transform → Shape → Shape
  | reshape target, _ => target
  | diagVec, argument => .matrix argument.rows argument.rows
  | diagMat, argument => .vector argument.rows

/-- Refuse the arguments for which no shape can be declared: another size for a reshape, a scalar
for a diagonal matrix, and anything but a matrix for a main diagonal. -/
def check : Transform → Shape → Except Error Unit
  | reshape target, argument =>
    if argument.size = target.size then .ok ()
    else .error (.shapeMismatch (.elements target.size) (.shape argument))
  | diagVec, argument =>
    if argument.isScalar then .error (.shapeMismatch .someDimension (.shape argument))
    else .ok ()
  | diagMat, argument =>
    if argument.isMatrix then .ok ()
    else .error (.shapeMismatch .twoDimensions (.shape argument))

theorem check_reshape {target argument : Shape} :
    (reshape target).check argument = .ok () ↔ argument.size = target.size := by
  by_cases same : argument.size = target.size
  · exact iff_of_true (if_pos same) same
  · rw [check, if_neg same]
    exact iff_of_false nofun same

theorem check_diagVec {argument : Shape} :
    diagVec.check argument = .ok () ↔ argument.rank ≠ 0 := by
  obtain ⟨dims⟩ := argument
  cases dims with
  | nil => exact iff_of_false nofun (absurd rfl)
  | cons first rest => exact iff_of_true rfl (Nat.succ_ne_zero _)

theorem check_diagMat {argument : Shape} :
    diagMat.check argument = .ok () ↔ argument.rank = 2 := by
  have reads : argument.isMatrix = true ↔ argument.rank = 2 := beq_iff_eq
  by_cases planar : argument.isMatrix = true
  · exact iff_of_true (if_pos planar) (reads.mp planar)
  · rw [check, if_neg planar]
    exact iff_of_false nofun fun rank => planar (reads.mpr rank)

/-- The shape of the transform of an argument of the given shape. -/
def shapeOf (transform : Transform) (argument : Shape) : Except Error Shape := do
  transform.check argument
  .ok (transform.declaredShape argument)

/-! ## Part 2: arrays and trees -/

/-- The transform of an array. -/
def apply [Zero α] [Add α] : Transform → Value α → Except Error (Value α)
  | reshape target, value => value.reshape target
  | diagVec, value => do
    let entries ← value.toVector
    .ok (.dense (.ofDiagonal entries))
  | diagMat, value => do
    let matrix ← value.toDense
    let diagonal ← matrix.leadingDiagonal
    .ok (.vector diagonal)

/-- The primitive node of the transform. Only a reshape is told its shape. -/
def lower : Transform → LinearTree α → Shape → LinearTree α
  | reshape _, input, shape => input.reshape shape
  | diagVec, input, _ => input.diagVec
  | diagMat, input, _ => input.diagMat

/-- A diagonal matrix is symmetric whatever its entries; of the others only a single entry is. -/
def isSymmetric : Transform → Shape → Bool
  | diagVec, _ => true
  | _, shape => shape.isUnit

/-- A diagonal matrix is declared Hermitian whatever its entries; the others are where they are
symmetric. -/
def isHermitian : Transform → Shape → Bool
  | diagVec, _ => true
  | transform, shape => transform.isSymmetric shape

theorem isHermitian_eq_isSymmetric (transform : Transform) (shape : Shape) :
    transform.isHermitian shape = transform.isSymmetric shape := by
  cases transform <;> rfl

/-! ## Part 3: the operation -/

/-- The transform as an operation of one argument that declares the given shape. -/
def operation [Zero α] [Add α] (transform : Transform) (shape : Shape) : Operation α where
  name := transform.name
  shape := shape
  apply values := do
    let value ← single transform.name values
    transform.apply value
  lower inputs declared := do
    let input ← single transform.name inputs
    .ok (.unconstrained (transform.lower input declared))
  isSymmetric := transform.isSymmetric shape
  isHermitian := transform.isHermitian shape

theorem value_operation [Zero α] [Add α] (transform : Transform) (shape : Shape)
    (argument : Except Error (Value α)) :
    (transform.operation shape).value [argument] = argument.bind fun value =>
      (transform.apply value).bind fun result =>
        if result.shape = shape then .ok result
        else .error (.shapeMismatch (.shape shape) (.shape result.shape)) := by
  cases argument <;> rfl

theorem lowered_operation [Zero α] [Add α] (transform : Transform) (shape : Shape)
    (argument : Except Error (Lowered α)) :
    (transform.operation shape).lowered [argument] = argument.map fun part =>
      ⟨transform.lower part.tree shape, part.constraints⟩ := by
  cases argument with
  | error failure => rfl
  | ok part =>
    show Except.ok _ = Except.ok _
    simp [Lowered.unconstrained, operation]

end Transform

end AffineArrays
