import Mathlib.Tactic.Ring

/-! # Tables of rows

A table has rows of one width. Its entries lie in a buffer row by row, so that a table of
another width may be read from the same buffer. Beyond its rows and its width, what `entry` has
is irrelevant.
-/

namespace TfDml.Lib

structure Rows (α : Type*) where
  count : Nat
  width : Nat
  entry : Nat → Nat → α

namespace Rows

variable {α β : Type*} (t u : Rows α)

def size : Nat := t.count * t.width

def flat (i : Nat) : α := t.entry (i / t.width) (i % t.width)

def map (f : α → β) : Rows β := ⟨t.count, t.width, fun i j => f (t.entry i j)⟩

/-- Of row `i`, the first `lengths i` entries are in reverse order. -/
def reverse (lengths : Nat → Nat) : Rows α :=
  ⟨t.count, t.width, fun i j =>
    if j < lengths i then t.entry i (lengths i - 1 - j) else t.entry i j⟩

def pad (value : α) (left right : Nat) : Rows α :=
  ⟨t.count, left + t.width + right, fun i j =>
    if left ≤ j ∧ j < left + t.width then t.entry i (j - left) else value⟩

def columns (start width : Nat) : Rows α := ⟨t.count, width, fun i j => t.entry i (start + j)⟩

def beside : Rows α :=
  ⟨t.count, t.width + u.width, fun i j =>
    if j < t.width then t.entry i j else u.entry i (j - t.width)⟩

/-- The first row below itself again and again, its entries as rows. -/
def column (copies : Nat) : Rows α := ⟨copies * t.width, 1, fun i _ => t.entry 0 (i % t.width)⟩

/-- Each `height` rows are a matrix, of which the transposes lie below each other. -/
def transpose (height : Nat) : Rows α :=
  ⟨t.count / height * t.width, height, fun i j =>
    t.flat (i / t.width * (t.width * height) + i % t.width + j * t.width)⟩

/-- Each `height` rows are a matrix, around which there are rows and columns of one value. -/
def surround (value : α) (height top left bottom right : Nat) : Rows α :=
  let outHeight := top + height + bottom
  ⟨t.count / height * outHeight, left + t.width + right, fun i j =>
    if top ≤ i % outHeight ∧ i % outHeight < top + height ∧ left ≤ j ∧ j < left + t.width then
      t.entry (i / outHeight * height + (i % outHeight - top)) (j - left)
    else value⟩

variable {i j : Nat}

theorem flat_add (lt : j < t.width) : t.flat (i * t.width + j) = t.entry i j := by
  rw [flat, Nat.mul_add_mod_of_lt lt, add_comm, Nat.add_mul_div_right _ _ (by omega),
    Nat.div_eq_of_lt lt, zero_add]

theorem transpose_entry (height : Nat) (i j : Nat) (some_ : 0 < t.width) :
    (t.transpose height).entry i j = t.entry (i / t.width * height + j) (i % t.width) := by
  have position : i / t.width * (t.width * height) + i % t.width + j * t.width =
      (i / t.width * height + j) * t.width + i % t.width := by ring
  change t.flat (i / t.width * (t.width * height) + i % t.width + j * t.width) = _
  rw [position, flat_add _ (Nat.mod_lt i some_)]

variable {left right : Nat}

theorem surround_entry (value : α) {height top bottom : Nat} (m j : Nat)
    (row : i < top + height + bottom) :
    (t.surround value height top left bottom right).entry (m * (top + height + bottom) + i) j =
      if top ≤ i ∧ i < top + height ∧ left ≤ j ∧ j < left + t.width then
        t.entry (m * height + (i - top)) (j - left)
      else value := by
  have quotient : (m * (top + height + bottom) + i) / (top + height + bottom) = m := by
    rw [add_comm, Nat.add_mul_div_right _ _ (by omega), Nat.div_eq_of_lt row, zero_add]
  simp only [surround, quotient, Nat.mul_add_mod_of_lt row]

variable {lengths : Nat → Nat}

theorem reverse_entry_of_lt (lt : j < lengths i) :
    (t.reverse lengths).entry i j = t.entry i (lengths i - 1 - j) := if_pos lt

theorem reverse_entry_of_le (outside : lengths i ≤ j) :
    (t.reverse lengths).entry i j = t.entry i j := if_neg (Nat.not_lt.mpr outside)

theorem reverse_entry_one (single : lengths i = 1) (j : Nat) :
    (t.reverse lengths).entry i j = t.entry i j := by
  by_cases first : j < lengths i
  · rw [reverse_entry_of_lt _ first]
    congr 1
    omega
  · exact reverse_entry_of_le _ (Nat.not_lt.mp first)

theorem reverse_reverse_entry {lengths' : Nat → Nat} (lt : j < lengths' i)
    (lt' : lengths' i - 1 - j < lengths i) : ((t.reverse lengths).reverse lengths').entry i j =
      t.entry i (lengths i - 1 - (lengths' i - 1 - j)) := by
  rw [reverse_entry_of_lt _ lt, reverse_entry_of_lt _ lt']

variable {value : α}

theorem pad_entry_of_lt (early : j < left) :
    (t.pad value left right).entry i j = value := if_neg (by omega)

theorem pad_entry_add :
    (t.pad value left right).entry i (left + j) = if j < t.width then t.entry i j else value := by
  change (if left ≤ left + j ∧ left + j < left + t.width then t.entry i (left + j - left)
    else value) = _
  rw [Nat.add_sub_cancel_left]
  exact if_congr (by omega) rfl rfl

theorem columns_reverse_pad (short : lengths i ≤ 2 * left) (width j : Nat) :
    (((t.pad value left right).reverse lengths).columns left width).entry i j =
      if lengths i ≤ left + j ∧ j < t.width then t.entry i j else value := by
  change ((t.pad value left right).reverse lengths).entry i (left + j) = _
  by_cases early : left + j < lengths i
  · rw [reverse_entry_of_lt _ early, pad_entry_of_lt _ (by omega), if_neg (by omega)]
  · rw [reverse_entry_of_le _ (Nat.not_lt.mp early), pad_entry_add]
    exact if_congr (by omega) rfl rfl

theorem reverse_columns_reverse (full lengths full' : Nat → Nat) {start depth : Nat}
    (lt : start ≤ t.width) (whole : full i = t.width) (whole' : full' i = t.width - start)
    (blank : ∀ j ≥ depth, t.entry i j = value) (short : lengths i + depth ≤ t.width + start)
    (less : j < t.width - start) :
    ((((t.reverse full).reverse lengths).columns start (t.width - start)).reverse full').entry i j =
      if j + lengths i < t.width then t.entry i j else value := by
  rw [reverse_entry_of_lt _ (by omega)]
  change ((t.reverse full).reverse lengths).entry i (start + (full' i - 1 - j)) = _
  by_cases early : start + (full' i - 1 - j) < lengths i
  · rw [reverse_entry_of_lt _ early, reverse_entry_of_lt _ (by omega), blank _ (by omega),
      if_neg (by omega)]
  · rw [reverse_entry_of_le _ (Nat.not_lt.mp early), reverse_entry_of_lt _ (by omega),
      if_pos (by omega)]
    congr 1
    omega

end Rows

end TfDml.Lib
