import TfDml.Core.TensorShapeUtils
import TfDml.Lib.Run

/-! # The cached number of elements

A shape keeps the number of its elements beside its dimensions. Some operations multiply the
cached number, one divides it, and the others compute it again.
-/

namespace TfDml

open List Option
open Lib (run EveryStep)
open TensorShape

/-- `TensorShape`, with what it caches. -/
structure CachedShape where
  dimSizes : List Int64
  numElements : Int64
  deriving DecidableEq, Repr

namespace CachedShape

def updateNumElements (shape : CachedShape) : CachedShape :=
  { shape with numElements := shape.dimSizes.foldl (· * ·) 1 }

def ofDimSizes (dimSizes : List Int64) : CachedShape := updateNumElements ⟨dimSizes, 1⟩

def addDim (shape : CachedShape) (dimSize : Int64) : CachedShape :=
  ⟨shape.dimSizes ++ [dimSize], shape.numElements * dimSize⟩

/-- Without a result where the assertion about the index fails; so it is below. -/
def insertDim (shape : CachedShape) (index : Int) (dimSize : Int64) : Option CachedShape :=
  if 0 ≤ index ∧ index ≤ shape.dimSizes.length then
    some ⟨shape.dimSizes.take index.toNat ++ dimSize :: shape.dimSizes.drop index.toNat,
      shape.numElements * dimSize⟩
  else none

def removeLastDims (shape : CachedShape) (numDims : Int) : Option CachedShape :=
  if 0 ≤ numDims ∧ numDims ≤ shape.dimSizes.length then
    some (updateNumElements { shape with
      dimSizes := shape.dimSizes.take (shape.dimSizes.length - numDims.toNat) })
  else none

/-- The assertion lets the number of dimensions itself pass, where there is nothing to erase. -/
def removeDim (shape : CachedShape) (index : Int) : Option CachedShape :=
  if 0 ≤ index ∧ index < shape.dimSizes.length then
    some (updateNumElements { shape with dimSizes := shape.dimSizes.eraseIdx index.toNat })
  else none

def clear (_ : CachedShape) : CachedShape := ⟨[], 1⟩

def setDim (shape : CachedShape) (dimIndex : Int) (dim : Int64) : Option CachedShape :=
  if 0 ≤ dimIndex then
    match shape.dimSizes[dimIndex.toNat]? with
    | none => none
    | some previous =>
      let dimSizes := shape.dimSizes.set dimIndex.toNat dim
      if previous = dim then some shape
      else if previous = 0 then some (updateNumElements { shape with dimSizes })
      else some ⟨dimSizes, shape.numElements / previous * dim⟩
  else none

/-- `AddDimWithStatus`, with the shape it leaves. -/
def addDimWithStatus (shape : CachedShape) (size : Int64) : Status × CachedShape :=
  if size < 0 then
    (.invalidArgument ("Expected a non-negative size, got " ++ toString size), shape)
  else if maxDimensions ≤ shape.dimSizes.length then
    (.invalidArgument "Too many dimensions in tensor", shape)
  else
    let newNumElements := multiplyWithoutOverflow shape.numElements.toInt size.toInt
    if newNumElements < 0 then
      (.invalidArgument ("Encountered overflow when multiplying " ++ toString shape.numElements ++
        " with " ++ toString size ++ ", result: " ++ toString newNumElements), shape)
    else (.ok, shape.addDim size)

/-- A tensor that holds dimensions. The values of a tensor of `int32` are widened. -/
structure Dimensions where
  shape : TensorShape
  dtype : DataType
  values : List Int64
  elements : values.length = shape.numElements

namespace Dimensions

def isIndex (tensor : Dimensions) : Bool := tensor.dtype == .int32 || tensor.dtype == .int64

end Dimensions

/-- The loop of `MakeShape` over the dimensions, which are `dims` as a whole. -/
def addDims (dims : List Int64) : List Int64 → CachedShape → Status × CachedShape
  | [], out => (.ok, out)
  | dim :: rest, out =>
    if dim < 0 then
      (.invalidArgument ("Dimension " ++ toString dim ++ " must be >= 0"), out)
    else if 0 ≤ out.numElements ∧ multiplyWithoutOverflow out.numElements.toInt dim.toInt < 0 then
      (.invalidArgument ("Shape " ++ debugStringOf (dims.map Int64.toInt) ++
        " would have more than 2**63 - 1 elements"), out)
    else addDims dims rest (out.addDim dim)

/-- `TensorShapeUtils::MakeShape` with a status, and the shape it leaves. -/
def makeShape (tensor : Dimensions) (out : CachedShape) : Status × CachedShape :=
  if tensor.shape.length ≠ 1 then
    (.invalidArgument ("shape must be a vector of {int32,int64}, got shape " ++
      tensor.shape.debugString), out)
  else if !tensor.isIndex then
    (.invalidArgument "shape must be a vector of {int32,int64}.", out)
  else if maxDimensions < tensor.values.length then
    (.invalidArgument "Too many dimensions", out)
  else addDims tensor.values tensor.values out

/-- `TensorShapeUtils::MakeShape` that returns the shape; without a result, the `CHECK` of the
    type fails. -/
def makeShapeOf (tensor : Dimensions) : Option CachedShape :=
  if tensor.isIndex then some (ofDimSizes tensor.values) else none

inductive Operation where
  | construct (dimSizes : List Int64)
  | addDim (dimSize : Int64)
  | insertDim (index : Int) (dimSize : Int64)
  | removeLastDims (numDims : Int)
  | removeDim (index : Int)
  | setDim (dimIndex : Int) (dim : Int64)
  | clear
  | addDimWithStatus (size : Int64)
  | makeShape (tensor : Dimensions)
  | makeShapeOf (tensor : Dimensions)

/-- What the operation leaves, whatever status it reports. -/
def apply (shape : CachedShape) : Operation → Option CachedShape
  | .construct dimSizes => some (ofDimSizes dimSizes)
  | .addDim dimSize => some (shape.addDim dimSize)
  | .insertDim index dimSize => shape.insertDim index dimSize
  | .removeLastDims numDims => shape.removeLastDims numDims
  | .removeDim index => shape.removeDim index
  | .setDim dimIndex dim => shape.setDim dimIndex dim
  | .clear => some shape.clear
  | .addDimWithStatus size => some (shape.addDimWithStatus size).2
  | .makeShape tensor => some (makeShape tensor shape).2
  | .makeShapeOf tensor => makeShapeOf tensor

def product (dimSizes : List Int64) : Int := (dimSizes.map Int64.toInt).prod

def Fits (n : Int) : Prop := -2 ^ 63 ≤ n ∧ n < 2 ^ 63

def Wrapped (shape : CachedShape) : Prop := shape.numElements = Int64.ofInt (product shape.dimSizes)

def Exact (shape : CachedShape) : Prop := shape.numElements.toInt = product shape.dimSizes

def SetsFitting (shape : CachedShape) (operation : Operation) (_ : CachedShape) : Prop :=
  match operation with
  | .setDim _ _ => Fits (product shape.dimSizes)
  | _ => True

variable {shape next : CachedShape} {dimSizes : List Int64}

@[simp] theorem product_nil : product [] = 1 := rfl

@[simp] theorem product_cons (dim : Int64) (rest : List Int64) :
    product (dim :: rest) = dim.toInt * product rest := by
  simp [product]

@[simp] theorem product_append (first second : List Int64) :
    product (first ++ second) = product first * product second := by
  simp [product]

theorem ofInt_mul (a : Int) (b : Int64) : Int64.ofInt a * b = Int64.ofInt (a * b.toInt) := by
  rw [Int64.ofInt_mul, Int64.ofInt_toInt]

theorem toInt_ofInt {n : Int} (fits : Fits n) : (Int64.ofInt n).toInt = n :=
  Int64.toInt_ofInt_of_le fits.1 fits.2

theorem Wrapped.exact (wrapped : Wrapped shape) (fits : Fits (product shape.dimSizes)) :
    Exact shape := by
  rw [Exact, wrapped, toInt_ofInt fits]

theorem Exact.wrapped (isExact : Exact shape) : Wrapped shape := by
  rw [Wrapped, ← isExact, Int64.ofInt_toInt]

theorem foldl_eq (start : Int) (dims : List Int64) :
    dims.foldl (· * ·) (Int64.ofInt start) = Int64.ofInt (start * product dims) := by
  induction dims generalizing start with
  | nil => simp
  | cons dim rest ih => rw [foldl_cons, ofInt_mul, ih, product_cons, Int.mul_assoc]

theorem wrapped_updateNumElements (shape : CachedShape) : Wrapped (updateNumElements shape) := by
  have folded := foldl_eq 1 shape.dimSizes
  rw [Int.one_mul] at folded
  exact folded

theorem Wrapped.addDim (wrapped : Wrapped shape) (dim : Int64) : Wrapped (shape.addDim dim) := by
  rw [Wrapped, CachedShape.addDim, wrapped, ofInt_mul, product_append, product_cons, product_nil,
    Int.mul_one]

theorem product_set {i : Nat} {prev : Int64} (at_ : dimSizes[i]? = some prev) :
    ∃ others, product dimSizes = prev.toInt * others ∧
      ∀ dim, product (dimSizes.set i dim) = others * dim.toInt := by
  induction dimSizes generalizing i with
  | nil => simp at at_
  | cons first rest ih =>
    cases i with
    | zero =>
      rw [getElem?_cons_zero, Option.some.injEq] at at_
      refine ⟨product rest, by rw [product_cons, at_], fun dim => ?_⟩
      rw [set_cons_zero, product_cons, Int.mul_comm]
    | succ i =>
      rw [getElem?_cons_succ] at at_
      obtain ⟨others, whole, replaced⟩ := ih at_
      refine ⟨first.toInt * others, ?_, fun dim => ?_⟩
      · rw [product_cons, whole, Int.mul_left_comm]
      · rw [set_cons_succ, product_cons, replaced, Int.mul_assoc]

theorem ofInt_div {count dim : Int64} {others : Int} (ne : dim ≠ 0)
    (whole : count.toInt = dim.toInt * others) : count / dim = Int64.ofInt others := by
  have divisor : dim.toInt ≠ 0 := fun zero => ne (Int64.toInt_inj.mp zero)
  rw [← Int64.toInt_inj, Int64.toInt_div, Int64.toInt_ofInt, whole,
    Int.mul_tdiv_cancel_left others divisor]

theorem wrapped_setDim {dimIndex : Int} {dim : Int64} (wrapped : Wrapped shape)
    (fits : Fits (product shape.dimSizes)) (set : shape.setDim dimIndex dim = some next) :
    Wrapped next := by
  unfold setDim at set
  split at set
  · split at set
    · exact nomatch set
    · rename_i prev at_
      split at set
      · exact some.inj set ▸ wrapped
      · split at set
        · exact some.inj set ▸ wrapped_updateNumElements _
        · rename_i ne
          obtain ⟨others, whole, replaced⟩ := product_set at_
          have divided := ofInt_div ne ((wrapped.exact fits).trans whole)
          rw [← some.inj set, Wrapped, divided, ofInt_mul, replaced]
  · exact nomatch set

theorem wrapped_insertDim {index : Int} {dim : Int64} (wrapped : Wrapped shape)
    (ins : shape.insertDim index dim = some next) : Wrapped next := by
  unfold insertDim at ins
  split at ins
  · have parts : product shape.dimSizes = product (shape.dimSizes.take index.toNat) *
        product (shape.dimSizes.drop index.toNat) := by
      rw [← product_append, take_append_drop]
    rw [← some.inj ins, Wrapped, wrapped, ofInt_mul, product_append, product_cons, parts,
      Int.mul_assoc, Int.mul_comm dim.toInt]
  · exact nomatch ins

theorem wrapped_removeLastDims {numDims : Int}
    (removed : shape.removeLastDims numDims = some next) : Wrapped next := by
  unfold removeLastDims at removed
  split at removed
  · exact some.inj removed ▸ wrapped_updateNumElements _
  · exact nomatch removed

theorem wrapped_removeDim {index : Int} (removed : shape.removeDim index = some next) :
    Wrapped next := by
  unfold removeDim at removed
  split at removed
  · exact some.inj removed ▸ wrapped_updateNumElements _
  · exact nomatch removed

theorem Wrapped.addDimWithStatus (wrapped : Wrapped shape) (size : Int64) :
    Wrapped (shape.addDimWithStatus size).2 := by
  unfold CachedShape.addDimWithStatus
  split
  · exact wrapped
  · split
    · exact wrapped
    · dsimp only
      split
      · exact wrapped
      · exact wrapped.addDim size

theorem Wrapped.addDims {dims values : List Int64} (wrapped : Wrapped shape) :
    Wrapped (addDims dims values shape).2 := by
  induction values generalizing shape with
  | nil => exact wrapped
  | cons dim rest ih =>
    unfold CachedShape.addDims
    split
    · exact wrapped
    · split
      · exact wrapped
      · exact ih (wrapped.addDim dim)

theorem Wrapped.makeShape (wrapped : Wrapped shape) (tensor : Dimensions) :
    Wrapped (makeShape tensor shape).2 := by
  unfold CachedShape.makeShape
  split
  · exact wrapped
  · split
    · exact wrapped
    · split
      · exact wrapped
      · exact wrapped.addDims

theorem wrapped_makeShapeOf {tensor : Dimensions} (made : makeShapeOf tensor = some next) :
    Wrapped next := by
  unfold makeShapeOf at made
  split at made
  · exact some.inj made ▸ wrapped_updateNumElements _
  · exact nomatch made

theorem wrapped_apply {operation : Operation} (wrapped : Wrapped shape)
    (applied : shape.apply operation = some next) (fitting : SetsFitting shape operation next) :
    Wrapped next := by
  cases operation with
  | construct dimSizes => exact some.inj applied ▸ wrapped_updateNumElements _
  | addDim dimSize => exact some.inj applied ▸ wrapped.addDim dimSize
  | insertDim index dimSize => exact wrapped_insertDim wrapped applied
  | removeLastDims numDims => exact wrapped_removeLastDims applied
  | removeDim index => exact wrapped_removeDim applied
  | setDim dimIndex dim => exact wrapped_setDim wrapped fitting applied
  | clear => exact some.inj applied ▸ rfl
  | addDimWithStatus size => exact some.inj applied ▸ wrapped.addDimWithStatus size
  | makeShape tensor => exact some.inj applied ▸ wrapped.makeShape tensor
  | makeShapeOf tensor => exact wrapped_makeShapeOf applied

theorem wrapped_run {operations : List Operation} (wrapped : Wrapped shape)
    (fitting : EveryStep apply SetsFitting shape operations)
    (reached : run apply shape operations = some next) : Wrapped next :=
  Lib.run_everyStep (fun _ _ _ pre applied sets => wrapped_apply pre applied sets)
    fitting wrapped reached

/-- A shape without a negative or an overflowing number of elements. -/
structure Counted (shape : CachedShape) : Prop where
  exact : Exact shape
  natural : 0 ≤ product shape.dimSizes

theorem Counted.natural' (counted : Counted shape) : 0 ≤ shape.numElements.toInt := by
  rw [counted.exact]
  exact counted.natural

theorem multiplyWithoutOverflow_neg {x y : Int64} (first : 0 ≤ x.toInt) (snd : 0 ≤ y.toInt) :
    multiplyWithoutOverflow x.toInt y.toInt < 0 ↔ 2 ^ 63 ≤ x.toInt * y.toInt := by
  obtain ⟨m, isM⟩ := Int.eq_ofNat_of_zero_le first
  obtain ⟨n, isN⟩ := Int.eq_ofNat_of_zero_le snd
  have lt := Int64.toInt_lt x
  have lt' := Int64.toInt_lt y
  rw [isM] at lt ⊢
  rw [isN] at lt' ⊢
  have product := multiplyWithoutOverflow_natCast (by omega : m < 2 ^ 63) (by omega : n < 2 ^ 63)
  have cast : ((m * n : Nat) : Int) = (m : Int) * n := Int.natCast_mul m n
  constructor
  · intro neg
    by_contra below
    rw [product.1 (by omega)] at neg
    omega
  · intro large
    exact product.2 (by omega)

theorem product_addDim (shape : CachedShape) (dim : Int64) :
    product (shape.addDim dim).dimSizes = product shape.dimSizes * dim.toInt := by
  rw [addDim, product_append, product_cons, product_nil, Int.mul_one]

theorem Counted.addDim {dim : Int64} (counted : Counted shape) (nat : 0 ≤ dim.toInt)
    (below : product shape.dimSizes * dim.toInt < 2 ^ 63) : Counted (shape.addDim dim) := by
  have product : 0 ≤ CachedShape.product (shape.addDim dim).dimSizes := by
    rw [product_addDim]
    exact Int.mul_nonneg counted.natural nat
  refine ⟨(counted.exact.wrapped.addDim dim).exact ⟨by omega, ?_⟩, product⟩
  rwa [product_addDim]

/-- Some dimension is negative, or the product of the dimensions up to it is too large. -/
def Refused (start : Int) (values : List Int64) : Prop :=
  ∃ before dim, before ++ [dim] <+: values ∧
    (dim.toInt < 0 ∨ 2 ^ 63 ≤ start * product (before ++ [dim]))

theorem not_refused_nil (start : Int) : ¬ Refused start [] := by
  rintro ⟨pre, dim, isPrefix, -⟩
  simp at isPrefix

theorem refused_cons {start : Int} {dim : Int64} {rest : List Int64} : Refused start (dim :: rest) ↔
      dim.toInt < 0 ∨ 2 ^ 63 ≤ start * dim.toInt ∨ Refused (start * dim.toInt) rest := by
  constructor
  · rintro ⟨pre, last, isPrefix, refused⟩
    cases pre with
    | nil =>
      obtain ⟨rfl, -⟩ := cons_prefix_cons.mp isPrefix
      rw [nil_append, product_cons, product_nil, Int.mul_one] at refused
      exact refused.elim .inl fun large => .inr (.inl large)
    | cons first pre =>
      obtain ⟨rfl, later⟩ := cons_prefix_cons.mp isPrefix
      rw [cons_append, product_cons, ← Int.mul_assoc] at refused
      exact .inr (.inr ⟨pre, last, later, refused⟩)
  · rintro (neg | large | ⟨pre, last, isPrefix, refused⟩)
    · exact ⟨[], dim, by simp, .inl neg⟩
    · exact ⟨[], dim, by simp, .inr (by simpa using large)⟩
    · refine ⟨dim :: pre, last, by simpa using isPrefix, ?_⟩
      rwa [cons_append, product_cons, ← Int.mul_assoc]

theorem addDims_spec (dims values : List Int64) (counted : Counted shape) :
    Counted (addDims dims values shape).2 ∧ (Refused (product shape.dimSizes) values →
        (addDims dims values shape).1.isInvalidArgument = true) ∧
      (¬ Refused (product shape.dimSizes) values → (addDims dims values shape).1 = .ok ∧
        (addDims dims values shape).2.dimSizes = shape.dimSizes ++ values) := by
  induction values generalizing shape with
  | nil => exact ⟨counted, fun refused => absurd refused (not_refused_nil _), fun _ =>
    ⟨rfl, (append_nil _).symm⟩⟩
  | cons dim rest ih =>
    have below : dim < 0 ↔ dim.toInt < 0 := Int64.lt_iff_toInt_lt
    have above : 0 ≤ shape.numElements ↔ 0 ≤ shape.numElements.toInt := Int64.le_iff_toInt_le
    rw [refused_cons, addDims]
    by_cases neg : dim.toInt < 0
    · rw [if_pos (below.mpr neg)]
      exact ⟨counted, fun _ => rfl, fun ok => absurd (.inl neg) ok⟩
    have overflows := multiplyWithoutOverflow_neg counted.natural' (not_lt.mp neg)
    rw [counted.exact] at overflows
    rw [if_neg (mt below.mp neg), counted.exact]
    by_cases large : 2 ^ 63 ≤ product shape.dimSizes * dim.toInt
    · rw [if_pos ⟨above.mpr counted.natural', overflows.mpr large⟩]
      exact ⟨counted, fun _ => rfl, fun ok => absurd (.inr (.inl large)) ok⟩
    rw [if_neg fun both => large (overflows.mp both.2)]
    obtain ⟨kept, refused, ok⟩ := ih (counted.addDim (not_lt.mp neg) (not_le.mp large))
    rw [product_addDim] at refused ok
    refine ⟨kept, fun either => refused ?_, fun neither => ?_⟩
    · exact (either.resolve_left neg).resolve_left large
    · obtain ⟨isOk, dimSizes⟩ := ok fun later => neither (.inr (.inr later))
      refine ⟨isOk, dimSizes.trans ?_⟩
      rw [addDim, append_assoc, singleton_append]

/-- `MakeShape` refuses more than dimensions: what is not a vector of indices, and too many. -/
def RefusedTensor (tensor : Dimensions) (out : CachedShape) : Prop :=
  tensor.shape.length ≠ 1 ∨ tensor.isIndex = false ∨
    maxDimensions < tensor.values.length ∨ Refused (product out.dimSizes) tensor.values

theorem makeShape_spec (tensor : Dimensions) (counted : Counted shape) :
    Counted (makeShape tensor shape).2 ∧
      (RefusedTensor tensor shape → (makeShape tensor shape).1.isInvalidArgument = true) ∧
      (¬ RefusedTensor tensor shape → (makeShape tensor shape).1 = .ok ∧
        (makeShape tensor shape).2.dimSizes = shape.dimSizes ++ tensor.values) := by
  unfold makeShape
  by_cases vector : tensor.shape.length ≠ 1
  · rw [if_pos vector]
    exact ⟨counted, fun _ => rfl, fun ok => absurd (.inl vector) ok⟩
  rw [if_neg vector]
  cases index : tensor.isIndex with
  | false => exact ⟨counted, fun _ => rfl, fun ok => absurd (.inr (.inl index)) ok⟩
  | true =>
    rw [Bool.not_true, if_neg Bool.false_ne_true]
    by_cases many : maxDimensions < tensor.values.length
    · rw [if_pos many]
      exact ⟨counted, fun _ => rfl, fun ok => absurd (.inr (.inr (.inl many))) ok⟩
    rw [if_neg many]
    obtain ⟨kept, refused, ok⟩ := addDims_spec tensor.values tensor.values counted
    refine ⟨kept, fun either => refused ?_, fun neither => ok fun later => ?_⟩
    · have last := either.resolve_left vector
      rw [index] at last
      exact (last.resolve_left (by decide)).resolve_left many
    · exact neither (.inr (.inr (.inr later)))

/-- `AddDimWithStatus` refuses a dimension too many, or one that makes the product too large. -/
def RefusedDim (shape : CachedShape) (size : Int64) : Prop :=
  size.toInt < 0 ∨ maxDimensions ≤ shape.dimSizes.length ∨
    2 ^ 63 ≤ product shape.dimSizes * size.toInt

theorem addDimWithStatus_spec (size : Int64) (counted : Counted shape) :
    Counted (shape.addDimWithStatus size).2 ∧
      (RefusedDim shape size → (shape.addDimWithStatus size).1.isInvalidArgument = true ∧
        (shape.addDimWithStatus size).2 = shape) ∧
      (¬ RefusedDim shape size → shape.addDimWithStatus size = (.ok, shape.addDim size)) := by
  have below : size < 0 ↔ size.toInt < 0 := Int64.lt_iff_toInt_lt
  rw [addDimWithStatus]
  by_cases neg : size.toInt < 0
  · rw [if_pos (below.mpr neg)]
    exact ⟨counted, fun _ => ⟨rfl, rfl⟩, fun ok => absurd (.inl neg) ok⟩
  rw [if_neg (mt below.mp neg)]
  by_cases many : maxDimensions ≤ shape.dimSizes.length
  · rw [if_pos many]
    exact ⟨counted, fun _ => ⟨rfl, rfl⟩, fun ok => absurd (.inr (.inl many)) ok⟩
  rw [if_neg many]
  have overflows : multiplyWithoutOverflow shape.numElements.toInt size.toInt < 0 ↔
      2 ^ 63 ≤ product shape.dimSizes * size.toInt := by
    rw [multiplyWithoutOverflow_neg counted.natural' (not_lt.mp neg), counted.exact]
  by_cases large : 2 ^ 63 ≤ product shape.dimSizes * size.toInt
  · simp only [if_pos (overflows.mpr large)]
    exact ⟨counted, fun _ => ⟨rfl, trivial⟩, fun ok => absurd (.inr (.inr large)) ok⟩
  · simp only [if_neg (mt overflows.mp large)]
    refine ⟨counted.addDim (not_lt.mp neg) (not_le.mp large), fun refused => ?_, fun _ => trivial⟩
    exact absurd ((refused.resolve_left neg).resolve_left many) large

/-- After every sequence of operations that sets dimensions only while the number of elements
    fits, the cached number is the number of elements up to a multiple of 2^64, and exactly that
    number where it fits. The builders that check refuse exactly what they say, and leave no
    shape with another number. -/
theorem numElements_exact (dimSizes : List Int64) (operations : List Operation)
    (reached shape : CachedShape) (size : Int64) (tensor : Dimensions) :
    (EveryStep apply SetsFitting (ofDimSizes dimSizes) operations →
      run apply (ofDimSizes dimSizes) operations = some reached →
      Wrapped reached ∧ (Fits (product reached.dimSizes) → Exact reached)) ∧
    (Counted shape → Counted (shape.addDimWithStatus size).2 ∧
      (RefusedDim shape size → (shape.addDimWithStatus size).1.isInvalidArgument = true ∧
        (shape.addDimWithStatus size).2 = shape) ∧
      (¬ RefusedDim shape size → shape.addDimWithStatus size = (.ok, shape.addDim size))) ∧
    (Counted shape → Counted (makeShape tensor shape).2 ∧
      (RefusedTensor tensor shape → (makeShape tensor shape).1.isInvalidArgument = true) ∧
      (¬ RefusedTensor tensor shape → (makeShape tensor shape).1 = .ok ∧
        (makeShape tensor shape).2.dimSizes = shape.dimSizes ++ tensor.values)) := by
  refine ⟨fun fitting taken => ?_, addDimWithStatus_spec size, makeShape_spec tensor⟩
  have wrapped := wrapped_run (wrapped_updateNumElements _) fitting taken
  exact ⟨wrapped, wrapped.exact⟩

/-- A wrapped number is divided into the number of no shape, and a product is refused that a later
    zero would have made small. -/
theorem numElements_wrapped :
    run apply (ofDimSizes [2 ^ 32, 2 ^ 32]) [.setDim 0 1] = some ⟨[1, 2 ^ 32], 0⟩ ∧
      product [1, 2 ^ 32] = 2 ^ 32 ∧
      (makeShape ⟨[3], .int64, [2 ^ 40, 2 ^ 40, 0], by decide⟩ (ofDimSizes [])).1.isInvalidArgument =
        true ∧ product [2 ^ 40, 2 ^ 40, 0] = 0 := by
  decide +kernel

end CachedShape

end TfDml
