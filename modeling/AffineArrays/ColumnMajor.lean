/-
**Column-major positions.**

The entries of a matrix are laid out column by column: the entry at `(row, col)` of a matrix with
`rows` rows stands at position `row + col * rows`. Inside the matrix the layout loses nothing:

* `position_lt`: the positions inside a matrix lie below its size;
* `position_mod`, `position_div`: row and column are read back from the position;
* `position_mod_div`: every position is that of its own row and column;
* `position_diagonal`: the diagonal stands at every step of one more than a column.
-/

namespace AffineArrays

/-- The position of the entry at `(row, col)` in a matrix with `rows` rows. -/
def position (rows row col : Nat) : Nat := row + col * rows

theorem position_lt {rows cols row col : Nat} (rowInside : row < rows) (colInside : col < cols) :
    position rows row col < rows * cols :=
  calc row + col * rows < rows + col * rows := Nat.add_lt_add_right rowInside _
    _ = (col + 1) * rows := by rw [Nat.succ_mul, Nat.add_comm]
    _ ≤ cols * rows := Nat.mul_le_mul_right rows colInside
    _ = rows * cols := Nat.mul_comm cols rows

theorem position_mod {rows row col : Nat} (inside : row < rows) :
    position rows row col % rows = row := by
  rw [position, Nat.add_mul_mod_self_right, Nat.mod_eq_of_lt inside]

theorem position_div {rows row col : Nat} (inside : row < rows) :
    position rows row col / rows = col := by
  rw [position, Nat.add_mul_div_right _ _ (Nat.zero_lt_of_lt inside), Nat.div_eq_of_lt inside,
    Nat.zero_add]

theorem position_mod_div (rows index : Nat) :
    position rows (index % rows) (index / rows) = index := by
  rw [position, Nat.mul_comm]
  exact Nat.mod_add_div index rows

theorem div_lt_of_lt_size {rows cols index : Nat} (inside : index < rows * cols) :
    index / rows < cols :=
  Nat.div_lt_of_lt_mul inside

/-- A matrix that has a position has a row. -/
theorem mod_lt_of_lt_size {rows cols index : Nat} (inside : index < rows * cols) :
    index % rows < rows :=
  Nat.mod_lt _ (Nat.pos_of_mul_pos_right (Nat.zero_lt_of_lt inside))

theorem position_diagonal (rows index : Nat) : position rows index index = index * (rows + 1) := by
  rw [position, Nat.mul_succ, Nat.add_comm]

end AffineArrays
