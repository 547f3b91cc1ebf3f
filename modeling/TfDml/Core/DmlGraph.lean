import TfDml.Core.TensorDescCreate
import TfDml.Lib.Padding
import TfDml.Lib.Run
import TfDml.Lib.StoredWrites

/-! # Tensors of a graph

An operator reads its operands through their strides and packs its result. A view has the buffer of
another tensor, with sizes and strides of its own.
-/

namespace TfDml.DmlGraph

open Lib
open List hiding flatten
open DmlTensorDesc (address lastElement lastElement_cons packedStrides)

/-- Without strides, the elements are packed. An element without a value is unknown. -/
structure Expression (α : Type) where
  sizes : List Nat
  strides : Option (List Nat)
  buffer : List (Option α)

theorem indices_pair (m n : Nat) :
    indices [m, n] = (range m).flatMap fun o => (range n).map fun k => [o, k] := by
  have single : indices [n] = (range n).map fun k => [k] := by
    rw [indices, map_eq_flatMap]
    rfl
  rw [indices, single]
  simp only [map_map]
  rfl

theorem indices_trailing (sizes : List Nat) :
    indices (sizes ++ [1]) = (indices sizes).map (· ++ [0]) := by
  have single : indices [1] = [[0]] := rfl
  have pairs : indices sizes ×ˢ indices [1] = (indices sizes).map fun index => (index, [0]) := by
    rw [single, map_eq_flatMap]
    rfl
  rw [indices_append, pairs, map_map]
  rfl

variable {strides strides' index : List Nat}

theorem address_append {index' : List Nat} (length : index.length = strides.length) :
    address (strides ++ strides') (index ++ index') =
      address strides index + address strides' index' := by
  rw [address, zipWith_append length, sum_append]
  rfl

variable {sizes : List Nat}

theorem lastElement_append {sizes' : List Nat} (length : sizes.length = strides.length) :
    lastElement (sizes ++ sizes') (strides ++ strides') =
      lastElement sizes strides + lastElement sizes' strides' := by
  rw [lastElement, zipWith_append length, sum_append]
  rfl

theorem lastElement_zero (sizes : List Nat) (count : Nat) :
    lastElement sizes (replicate count 0) = 0 := by
  rw [lastElement, sum_eq_zero]
  intro n mem
  obtain ⟨k, lt, rfl⟩ := getElem_of_mem mem
  simp

theorem address_zero (index : List Nat) (count : Nat) : address (replicate count 0) index = 0 := by
  rw [address, sum_eq_zero]
  intro n mem
  obtain ⟨k, inside, rfl⟩ := getElem_of_mem mem
  simp

theorem lastElement_packed (pos : ∀ size ∈ sizes, 0 < size) (lt : sizes.prod < 2 ^ 32) :
    lastElement sizes (packedStrides sizes) + 1 = sizes.prod := by
  induction sizes with
  | nil => rfl
  | cons size rest ih =>
    rw [forall_mem_cons] at pos
    rw [prod_cons] at lt ⊢
    have below := lt_of_le_of_lt (Nat.le_mul_of_pos_left rest.prod pos.1) lt
    obtain ⟨more, rfl⟩ : ∃ more, size = more + 1 := ⟨size - 1, by omega⟩
    rw [packedStrides, lastElement_cons, Nat.mod_eq_of_lt below, add_assoc,
      ih pos.2 below, Nat.succ_mul, Nat.add_sub_cancel]

namespace Expression

variable {α : Type}

def place (t : Expression α) (index : List Nat) : Nat :=
  match t.strides with
  | none => flatten t.sizes index
  | some strides => address strides index

def read (t : Expression α) (index : List Nat) : Option α := t.buffer[t.place index]?.join

def extent (t : Expression α) : Nat :=
  match t.strides with
  | none => t.sizes.prod
  | some strides => lastElement t.sizes strides + 1

def ofIndices (sizes : List Nat) (f : List Nat → Option α) : Expression α :=
  ⟨sizes, none, (indices sizes).map f⟩

def identity (t : Expression α) : Expression α := ofIndices t.sizes t.read

/-- `dml::Reinterpret`. The size of the buffer has to stay the same. -/
def reinterpret (t : Expression α) (sizes : List Nat) (strides : Option (List Nat)) :
    Option (Expression α) :=
  let view : Expression α := ⟨sizes, strides, t.buffer⟩
  if view.extent = t.buffer.length then some view else none

/-- `dml::Sequence<uint32_t>` from 0. -/
def sequence (step : Nat) (sizes : List Nat) : Expression Nat :=
  ofIndices sizes fun index => some (flatten sizes index * step % 2 ^ 32)

def tile (t : Expression α) (repeats : List Nat) : Expression α :=
  ofIndices (zipWith (· * ·) t.sizes repeats) fun index =>
    t.read (zipWith (· % ·) index t.sizes)

/-- The sum of tensors of `uint32_t`. -/
def add (a b : Expression Nat) : Option (Expression Nat) :=
  if a.sizes = b.sizes then
    some (ofIndices a.sizes fun index => do
      let x ← a.read index
      let y ← b.read index
      return (x + y) % 2 ^ 32)
  else none

def map {β : Type} (f : α → β) (t : Expression α) : Expression β :=
  ofIndices t.sizes fun index => (t.read index).map f

def map₂ {β γ : Type} (f : α → β → γ) (a : Expression α) (b : Expression β) :
    Option (Expression γ) :=
  if a.sizes = b.sizes then
    some (ofIndices a.sizes fun index => do return f (← a.read index) (← b.read index))
  else none

/-- `dml::ScalarTensor`, an element that is broadcast. -/
def scalarTensor (value : α) (sizes : List Nat) : Expression α :=
  ⟨sizes, some (replicate sizes.length 0), [some value]⟩

/-- `dml::If` -/
def select (condition : Expression Bool) (a b : Expression α) : Option (Expression α) :=
  if condition.sizes = a.sizes ∧ a.sizes = b.sizes then
    some (ofIndices a.sizes fun index => do
      if ← condition.read index then a.read index else b.read index)
  else none

/-- The dimensions of a padding, with sizes of 32 bits. -/
def padDims (sizes startPadding endPadding : List Nat) : Option (List PadDim) :=
  let dims := zipWith (fun size padding => (⟨size, padding.1, padding.2⟩ : PadDim)) sizes
    (startPadding.zip endPadding)
  if ∀ dim ∈ dims, dim.total < 2 ^ 32 then some dims else none

/-- `dml::Padding` with a constant. -/
def padding (t : Expression α) (value : α) (startPadding endPadding : List Nat) :
    Option (Expression α) := do
  let dims ← padDims t.sizes startPadding endPadding
  return ofIndices (dims.map PadDim.total) fun index =>
    match sourceIndex .constant dims index with
    | none => some value
    | some source => t.read source

/-- `dml::GatherElements`. What is gathered from outside is unknown. -/
def gatherElements (t : Expression α) (positions : Expression Nat) (axis : Nat) : Expression α :=
  ofIndices positions.sizes fun index => do
    let k ← positions.read index
    if k < t.sizes.getD axis 0 then t.read (index.set axis k) else none

def line (t : Expression α) (axis : Nat) (index : List Nat) : Option (List α) :=
  (range (t.sizes.getD axis 0)).mapM fun k => t.read (index.set axis k)

/-- The values of `dml::TopK` in decreasing order. -/
def topK [LinearOrder α] (t : Expression α) (axis k : Nat) : Option (Expression α) :=
  if k ≤ t.sizes.getD axis 0 then
    some (ofIndices (t.sizes.set axis k) fun index => do
      let elements ← t.line axis index
      (elements.mergeSort fun x y => decide (y ≤ x))[index.getD axis 0]?)
  else none

/-- `dml::Reduce` with sums. -/
def reduceSum [Add α] [Zero α] (t : Expression α) (axis : Nat) : Expression α :=
  ofIndices (t.sizes.set axis 1) fun index => (t.line axis index).map List.sum

/-- One of the results of `dml::Split`. -/
def split (t : Expression α) (axis : Nat) (sizes : List Nat) (part : Nat) : Option (Expression α) :=
  if sizes.sum = t.sizes.getD axis 0 ∧ part < sizes.length then
    some (ofIndices (t.sizes.set axis (sizes.getD part 0)) fun index =>
      t.read (index.set axis ((sizes.take part).sum + index.getD axis 0)))
  else none

/-- The updates of `dml::ScatterElements` with their positions. Nothing is promised for an update
    whose position is outside. -/
def scatterWrites (t : Expression α) (positions : Expression Int) (updates : Expression α)
    (axis : Nat) : Option (List (Int × α)) :=
  (indices updates.sizes).mapM fun index => do
    let k ← positions.read index
    let x ← updates.read index
    if 0 ≤ k ∧ k < t.sizes.getD axis 0 then
      some ((flatten t.sizes (index.set axis k.toNat) : Int), x)
    else none

/-- What `dml::ScatterElements` may compute. The updates are stored in any order. -/
def ScatterElements (t : Expression α) (positions : Expression Int) (updates : Expression α)
    (axis : Nat) (result : Expression α) : Prop :=
  result.sizes = t.sizes ∧ result.strides = none ∧ positions.sizes = updates.sizes ∧
    ∃ writes, t.scatterWrites positions updates axis = some writes ∧
      Stored t.identity.buffer writes result.buffer

variable {sizes : List Nat} {f : List Nat → Option α} {index : List Nat}

theorem getElem?_ofIndices (mem : index ∈ indices sizes) :
    (ofIndices sizes f).buffer[flatten sizes index]? = some (f index) := by
  rw [ofIndices, getElem?_map, getElem?_flatten mem, Option.map_some]

theorem read_ofIndices (mem : index ∈ indices sizes) :
    (ofIndices sizes f).read index = f index := by
  have got := @getElem?_ofIndices α sizes f index mem
  exact congrArg Option.join got

variable {β : Type} {t : Expression α}

theorem read_map {f : α → β} (mem : index ∈ indices t.sizes) :
    (t.map f).read index = (t.read index).map f :=
  read_ofIndices mem

theorem read_scalarTensor (value : α) (sizes index : List Nat) :
    (scalarTensor value sizes).read index = some value := by
  rw [read, place, scalarTensor]
  simp only [address_zero]
  rfl

theorem read_values (sizes strides index : List Nat) (values : List α) :
    (⟨sizes, some strides, values.map some⟩ : Expression α).read index =
      values[address strides index]? := by
  rw [read, place]
  cases hit : values[address strides index]? with
  | none => simp [hit]
  | some x => simp [hit]

theorem map₂_eq_some {β γ : Type} {f : α → β → γ} {a : Expression α} {b : Expression β}
    (same : a.sizes = b.sizes) : ∃ t, map₂ f a b = some t ∧ t.sizes = a.sizes ∧
      ∀ index ∈ indices a.sizes, t.read index =
        (a.read index).bind fun x => (b.read index).map (f x) := by
  refine ⟨_, if_pos same, rfl, fun index mem => ?_⟩
  rw [read_ofIndices mem]
  cases a.read index with
  | none => rfl
  | some x =>
    cases b.read index with
    | none => rfl
    | some y => rfl

theorem buffer_of_map₂ {γ : Type} {f : α → β → γ} {a : Expression α} {b : Expression β}
    {t : Expression γ} (made : map₂ f a b = some t) :
    t.buffer = (indices a.sizes).map fun index => t.read index := by
  rw [map₂, Option.ite_none_right_eq_some, Option.some.injEq] at made
  obtain ⟨-, rfl⟩ := made
  refine map_congr_left fun index mem => ?_
  rw [read_ofIndices mem]

theorem reinterpret_eq_some {view : Expression α} {strides : Option (List Nat)} :
    t.reinterpret sizes strides = some view ↔
      view = ⟨sizes, strides, t.buffer⟩ ∧ view.extent = t.buffer.length := by
  rw [reinterpret, Option.ite_none_right_eq_some, Option.some.injEq]
  constructor
  · rintro ⟨same, rfl⟩
    exact ⟨rfl, same⟩
  · rintro ⟨rfl, same⟩
    exact ⟨same, rfl⟩

theorem line_eq_some {t : Expression α} {axis : Nat} {index : List Nat} {f : Nat → α}
    (reads : ∀ k < t.sizes.getD axis 0, t.read (index.set axis k) = some (f k)) :
    t.line axis index = some ((range (t.sizes.getD axis 0)).map f) :=
  mapM_eq_some fun k mem => reads k (mem_range.mp mem)

end Expression

variable {rows cols : Nat}

theorem mem_rows (mem : index ∈ indices [1, 1, rows, cols]) :
    ∃ k < rows, ∃ c < cols, index = [0, 0, k, c] := by
  obtain ⟨m, first, _, lt, rfl⟩ := mem_indices_cons.mp mem
  obtain ⟨n, snd, _, lt', rfl⟩ := mem_indices_cons.mp lt
  obtain ⟨k, row, _, last, rfl⟩ := mem_indices_cons.mp lt'
  obtain ⟨c, col, _, nil, rfl⟩ := mem_indices_cons.mp last
  obtain rfl := mem_singleton.mp nil
  obtain rfl := Nat.lt_one_iff.mp first
  obtain rfl := Nat.lt_one_iff.mp snd
  exact ⟨k, row, c, col, rfl⟩

theorem rows_mem {k c : Nat} (row : k < rows) (col : c < cols) :
    [0, 0, k, c] ∈ indices [1, 1, rows, cols] := mem_indices.mpr (by simp [row, col])

theorem flatten_rows (rows cols k c : Nat) :
    flatten [1, 1, rows, cols] [0, 0, k, c] = k * cols + c := by simp [flatten]

theorem exists_transposed {α : Type} (some_ : 0 < rows) (f : List Nat → Option α) :
    ∃ view : Expression α,
      (Expression.ofIndices [1, 1, rows, 1] f).reinterpret [1, 1, 1, rows] (some [0, 0, 0, 1]) =
          some view ∧ view.sizes = [1, 1, 1, rows] ∧
        ∀ k < rows, view.read [0, 0, 0, k] = f [0, 0, k, 0] := by
  refine ⟨_, Expression.reinterpret_eq_some.mpr ⟨rfl, ?_⟩, rfl, fun k inside => ?_⟩
  · simp only [Expression.extent, Expression.ofIndices, length_map, length_indices]
    simp [lastElement]
    omega
  · have hit := @Expression.getElem?_ofIndices α [1, 1, rows, 1] f _ (rows_mem inside one_pos)
    rw [flatten_rows, mul_one, add_zero] at hit
    rw [Expression.read, Expression.place]
    simp [address, hit]

end TfDml.DmlGraph
