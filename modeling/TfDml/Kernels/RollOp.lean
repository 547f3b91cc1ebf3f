import TfDml.Kernels.SplitSizes

/-! # The Roll operator

The helper adds up the shifts of each axis, modulo its size, and the kernel gathers along one axis
after another with shifted indices. The sums are kept in an `int`, and so is an axis.
-/

namespace TfDml.Roll

open Lib
open List hiding flatten
open StridedSlice (IndexTensor i32 u32)

/-- Why the helper stops: it reports a status, or it reads and writes at a negative index. -/
inductive Failure where
  | status (status : Status)
  | outOfRange
  deriving DecidableEq

structure Arguments (w v : Nat) where
  input : TensorShape
  shift : IndexTensor w
  axis : IndexTensor v

variable {w v : Nat}

def Arguments.entries (args : Arguments w v) : List (Int × Int) :=
  (args.shift.values.map BitVec.toInt).zip (args.axis.values.map BitVec.toInt)

/-- `ds` -/
def axisSize (dim : Nat) : Int := max (i32 dim) 1

def addShift (ds modSum shift : Int) : Int :=
  let sum := i32 (modSum + i32 shift)
  (i32 (sum.tmod ds + ds)).tmod ds

/-- `axis`, counted from the end if it is negative. -/
def normalize (numDims : Nat) (axis : Int) : Int :=
  if i32 axis < 0 then i32 axis + numDims else i32 axis

def visitShift (input : TensorShape) (shiftModSum : List Int) (entry : Int × Int) :
    Except Failure (List Int) :=
  let axis := normalize input.length entry.2
  if axis < input.length then
    -- Only the upper bound is checked.
    if axis < 0 then .error .outOfRange
    else
      let d := axis.toNat
      .ok (shiftModSum.set d
        (addShift (axisSize (input.getD d 0)) (shiftModSum.getD d 0) entry.1))
  else .error (.status (.invalidArgument ("axis " ++ toString axis ++ " is out of range")))

def requires (condition : Bool) (message : String) : Except Failure Unit :=
  if condition then .ok () else .error (.status (.invalidArgument message))

/-- `RollInitHelper`, with `shift_mod_sum_` as its result. -/
def initHelper (args : Arguments w v) : Except Failure (List Int) := do
  requires args.input.isVectorOrHigher "input must be 1-D or higher"
  requires (args.shift.shape.length ≤ 1)
    ("shift must be a scalar or a 1-D vector. Found: " ++ args.shift.shape.debugString)
  requires (args.axis.shape.length ≤ 1)
    ("axis must be a scalar or a 1-D vector. Found: " ++ args.axis.shape.debugString)
  requires (args.shift.shape == args.axis.shape) "shift and axis must have the same size"
  let numShifts := i32 args.shift.numElements
  (args.entries.take numShifts.toNat).foldlM (visitShift args.input)
    (List.replicate args.input.length 0)

/-- A product of dimensions that is kept in a `uint32_t`. -/
def uintProduct (dims : List Nat) : Nat := dims.foldl (fun n dim => n * dim % 2 ^ 32) 1

/-- `(indices + shift) % axis_tensor`, in `uint32_t`. -/
def gatherIndex (axisDimSize : Nat) (modSum : Int) (i : Nat) : Nat :=
  let shift := i32 (axisDimSize - modSum)
  u32 (i + shift) % axisDimSize

/-- `dml::Gather` along the third of the sizes. -/
def gather {α : Type} (sizes : List Nat) (index : Nat → Nat) (values : List (Option α)) :
    List (Option α) :=
  (indices sizes).map fun position => (values[flatten sizes (position.modify 2 index)]?).join

def rollAxis {α : Type} (input : TensorShape) (shiftModSum : List Int) (values : List (Option α))
    (axis : Nat) : List (Option α) :=
  let modSum := shiftModSum.getD axis 0
  if modSum = 0 then values
  else
    let beforeDimSize := uintProduct (input.take axis)
    let axisDimSize := input.getD axis 0 % 2 ^ 32
    let afterDimSize := uintProduct (input.drop (axis + 1))
    gather [1, beforeDimSize, axisDimSize, afterDimSize] (gatherIndex axisDimSize modSum) values

/-- `DmlRollKernel`. There is no result if the flat tensors have no descriptor. -/
def runKernel {α : Type} (input : TensorShape) (shiftModSum : List Int) (values : List α) :
    Option (List (Option α)) := do
  let flat := [input.numElements]
  let _ ← DmlTensorDesc.create flat flat
  if shiftModSum.all (· == 0) then some (values.map some)
  else
    some ((List.range shiftModSum.length).foldl (rollAxis input shiftModSum) (values.map some))

/-- What `Compute` leaves in the output, unless the helper fails. -/
def compute {α : Type} [Zero α] (args : Arguments w v) (values : List α) :
    Except Failure (Option (List (Option α))) := do
  let shiftModSum ← initHelper args
  let inputShapes := [args.input, args.shift.shape, args.axis.shape]
  if NoOpKernel.isNoOpKernel inputShapes [args.input] then
    return some (NoOpKernel.zeroed args.input)
  else return runKernel args.input shiftModSum values

end TfDml.Roll

namespace TfDml.Roll

open Lib
open List hiding flatten
open SplitOp (i32_bounds)
open StridedSlice (IndexTensor i32)

def exactSum (dim : Nat) (modSum shift : Int) : Int := (modSum + shift) % max dim 1

/-- The 32-bit sum is congruent to the exact one, and adding the size to its remainder does not
    overflow; or it does and nothing but zero can be right. -/
def Keeps (dim : Nat) (modSum shift : Int) : Prop :=
  let ds := axisSize dim
  let exact := exactSum dim modSum shift
  let sum := i32 (modSum + i32 shift)
  if sum.tmod ds + ds < 2 ^ 31 then exact < ds ∧ ds ∣ sum - exact
  else exact = 0 ∧ ds ∣ sum - 2 ^ 32

theorem axisSize_bounds (dim : Nat) : 1 ≤ axisSize dim ∧ axisSize dim < 2 ^ 31 := by
  obtain ⟨-, below, -⟩ := i32_bounds dim
  exact ⟨le_max_right _ _, max_lt below (by decide)⟩

theorem exactSum_bounds (dim : Nat) (modSum shift : Int) :
    0 ≤ exactSum dim modSum shift ∧ exactSum dim modSum shift < max dim 1 := by
  have pos : (0 : Int) < max dim 1 := by exact_mod_cast lt_of_lt_of_le one_pos (le_max_right dim 1)
  exact ⟨Int.emod_nonneg _ pos.ne', Int.emod_lt_of_pos _ pos⟩

variable {n ds : Int}

theorem emod_eq_of_dvd {m : Int} (dvd : ds ∣ m - n) : m % ds = n % ds :=
  Int.emod_eq_emod_iff_emod_sub_eq_zero.mpr (Int.emod_eq_zero_of_dvd dvd)

theorem emod_eq_iff {exact : Int} (pos : 0 < ds) (nat : 0 ≤ exact) :
    n % ds = exact ↔ exact < ds ∧ ds ∣ n - exact := by
  constructor
  · rintro rfl
    exact ⟨Int.emod_lt_of_pos n pos, Int.dvd_self_sub_emod⟩
  · rintro ⟨below, dvd⟩
    rw [emod_eq_of_dvd dvd, Int.emod_eq_of_lt nat below]

theorem addShift_eq_iff {dim : Nat} {modSum shift : Int} :
    addShift (axisSize dim) modSum shift = exactSum dim modSum shift ↔ Keeps dim modSum shift := by
  obtain ⟨pos, lt⟩ := axisSize_bounds dim
  obtain ⟨nat, -⟩ := exactSum_bounds dim modSum shift
  simp only [addShift, Keeps]
  generalize exactSum dim modSum shift = exact at nat ⊢
  generalize i32 (modSum + i32 shift) = sum
  generalize axisSize dim = ds at pos lt ⊢
  have above : -ds < sum.tmod ds := by
    have bound := Int.lt_tmod_of_pos sum (by omega : 0 < ds)
    exact bound
  have below : sum.tmod ds < ds := Int.tmod_lt_of_pos sum (by omega)
  have remainder : ds ∣ sum - sum.tmod ds := Int.dvd_self_sub_tmod
  split
  case isTrue fits =>
    have kept : i32 (sum.tmod ds + ds) = sum.tmod ds + ds := Int.bmod_eq_of_le (by omega) (by omega)
    have residue : (sum.tmod ds + ds).tmod ds = (sum.tmod ds + ds) % ds :=
      Int.tmod_eq_emod_of_nonneg (by omega)
    have same : sum.tmod ds % ds = sum % ds := (emod_eq_of_dvd remainder).symm
    rw [kept, residue, Int.add_emod_right, same, emod_eq_iff (by omega) nat]
  case isFalse overflows =>
    have wrapped : i32 (sum.tmod ds + ds) = sum.tmod ds + ds - 2 ^ 32 := by
      obtain ⟨above, below, k, whole⟩ := i32_bounds (sum.tmod ds + ds)
      omega
    have dvd : ds ∣ sum.tmod ds + ds - 2 ^ 32 ↔ ds ∣ sum - 2 ^ 32 := by
      have difference : sum - 2 ^ 32 =
          sum.tmod ds + ds - 2 ^ 32 + (sum - sum.tmod ds - ds) := by ring
      rw [difference]
      exact (dvd_add_left (dvd_sub remainder (dvd_refl ds))).symm
    have nonpos : (sum.tmod ds + ds - 2 ^ 32).tmod ds ≤ 0 := by
      have reverse := Int.tmod_nonneg ds (by omega : 0 ≤ -(sum.tmod ds + ds - 2 ^ 32))
      rw [Int.neg_tmod] at reverse
      omega
    rw [wrapped, ← dvd]
    constructor
    · intro same
      have zero : exact = 0 := by omega
      exact ⟨zero, Int.dvd_of_tmod_eq_zero (same.trans zero)⟩
    · rintro ⟨rfl, multiple⟩
      exact Int.tmod_eq_zero_of_dvd multiple

def Inside (numDims : Nat) (axis : Int) : Prop := -numDims ≤ axis ∧ axis < numDims

def resolve (numDims : Nat) (axis : Int) : Int := if axis < 0 then axis + numDims else axis

def shiftsOn (numDims : Nat) (entries : List (Int × Int)) (d : Nat) : List Int :=
  (entries.filter fun entry => resolve numDims entry.2 == d).map Prod.fst

/-- The sum of the shifts for a dimension, modulo its size. -/
def exactModSum (input : TensorShape) (entries : List (Int × Int)) (d : Nat) : Int :=
  (shiftsOn input.length entries d).sum % max (input.getD d 0) 1

def exactModSums (input : TensorShape) (entries : List (Int × Int)) : List Int :=
  (List.range input.length).map (exactModSum input entries)

def visitAll (input : TensorShape) (entries : List (Int × Int)) : Except Failure (List Int) :=
  entries.foldlM (visitShift input) (List.replicate input.length 0)

/-- Each shift is added exactly to the sum of the shifts before it. -/
def KeepsAll (input : TensorShape) (entries : List (Int × Int)) : Prop :=
  ∀ before entry after, entries = before ++ entry :: after →
    let d := (resolve input.length entry.2).toNat
    Keeps (input.getD d 0) (exactModSum input before d) entry.1

variable {numDims : Nat} {axis : Int}

theorem resolve_bounds (lt : Inside numDims axis) :
    0 ≤ resolve numDims axis ∧ resolve numDims axis < numDims := by
  obtain ⟨lower, upper⟩ := lt
  rw [resolve]
  split
  · omega
  · omega

theorem normalize_of_inside (ranked : numDims < 2 ^ 31) (lt : Inside numDims axis) :
    normalize numDims axis = resolve numDims axis := by
  obtain ⟨lower, upper⟩ := lt
  have kept : i32 axis = axis := Int.bmod_eq_of_le (by omega) (by omega)
  rw [normalize, resolve, kept]

variable {input : TensorShape}

variable {entry : Int × Int}

theorem visitShift_of_inside (ranked : input.length < 2 ^ 31) (modSums : List Int)
    (lt : Inside input.length entry.2) : visitShift input modSums entry =
      .ok (modSums.set (resolve input.length entry.2).toNat
        (addShift (axisSize (input.getD (resolve input.length entry.2).toNat 0))
          (modSums.getD (resolve input.length entry.2).toNat 0) entry.1)) := by
  obtain ⟨lower, upper⟩ := resolve_bounds lt
  simp only [visitShift, normalize_of_inside ranked lt, if_pos upper, if_neg (Int.not_lt.mpr lower)]

theorem shiftsOn_concat (numDims : Nat) (xs : List (Int × Int)) (entry : Int × Int) (d : Nat) :
    (shiftsOn numDims (xs ++ [entry]) d).sum =
      if resolve numDims entry.2 = d then (shiftsOn numDims xs d).sum + entry.1
      else (shiftsOn numDims xs d).sum := by
  rw [shiftsOn, filter_append, map_append, sum_append]
  split
  case isTrue here => simp [shiftsOn, here]
  case isFalse elsewhere => simp [shiftsOn, elsewhere]

theorem exactModSums_concat (xs : List (Int × Int)) (lt : Inside input.length entry.2) :
    exactModSums input (xs ++ [entry]) =
      (exactModSums input xs).set (resolve input.length entry.2).toNat
        (exactSum (input.getD (resolve input.length entry.2).toNat 0)
          (exactModSum input xs (resolve input.length entry.2).toNat) entry.1) := by
  obtain ⟨lower, upper⟩ := resolve_bounds lt
  apply ext_getElem (by simp [exactModSums])
  intro d lt' _
  simp only [exactModSums, length_map, length_range] at lt'
  simp only [exactModSums, getElem_set, getElem_map, getElem_range]
  split
  case isTrue here =>
    subst here
    rw [exactModSum, shiftsOn_concat, if_pos (Int.toNat_of_nonneg lower).symm, exactSum,
      exactModSum, Int.emod_add_emod]
  case isFalse elsewhere =>
    rw [exactModSum, exactModSum, shiftsOn_concat, if_neg (by omega)]

theorem getD_exactModSums {d : Nat} (lt : d < input.length) (xs : List (Int × Int)) :
    (exactModSums input xs).getD d 0 = exactModSum input xs d := by
  rw [getD_eq_getElem _ _ (by simpa [exactModSums] using lt)]
  simp [exactModSums]

theorem visitShift_eq_iff (ranked : input.length < 2 ^ 31) (xs : List (Int × Int))
    (lt : Inside input.length entry.2) : visitShift input (exactModSums input xs) entry =
        .ok (exactModSums input (xs ++ [entry])) ↔
      Keeps (input.getD (resolve input.length entry.2).toNat 0)
        (exactModSum input xs (resolve input.length entry.2).toNat) entry.1 := by
  obtain ⟨lower, upper⟩ := resolve_bounds lt
  have below : (resolve input.length entry.2).toNat < input.length := by omega
  rw [visitShift_of_inside ranked _ lt, exactModSums_concat xs lt,
    getD_exactModSums below, Except.ok.injEq, ← addShift_eq_iff]
  constructor
  · intro same
    have xs := congrArg (·[(resolve input.length entry.2).toNat]?) same
    simpa [exactModSums, below] using xs
  · intro same
    rw [same]

theorem visitAll_eq_iff (ranked : input.length < 2 ^ 31) {entries : List (Int × Int)}
    (lt : ∀ entry ∈ entries, Inside input.length entry.2) : (∀ pre after, entries = pre ++ after →
        visitAll input pre = .ok (exactModSums input pre)) ↔ KeepsAll input entries := by
  have next (pre : List (Int × Int)) (entry : Int × Int)
      (exact : visitAll input pre = .ok (exactModSums input pre)) :
      visitAll input (pre ++ [entry]) = visitShift input (exactModSums input pre) entry := by
    rw [visitAll] at exact
    rw [visitAll, foldlM_append, exact]
    exact bind_pure (visitShift input (exactModSums input pre) entry)
  constructor
  · intro exact pre entry after split
    have mem : entry ∈ entries := by
      rw [split]
      exact mem_append_right _ mem_cons_self
    have first := exact pre (entry :: after) split
    have snd := exact (pre ++ [entry]) after (by rw [split, append_assoc]; rfl)
    rw [next pre entry first] at snd
    exact (visitShift_eq_iff ranked pre (lt entry mem)).mp snd
  · intro keeps pre
    induction pre using List.reverseRecOn with
    | nil =>
      intro _ _
      have zeros : exactModSums input [] = List.replicate input.length 0 := by
        apply ext_getElem (by simp [exactModSums])
        intro d _ _
        simp [exactModSums, exactModSum, shiftsOn]
      rw [visitAll, zeros]
      rfl
    | append_singleton pre entry ih =>
      intro after split
      rw [append_assoc] at split
      have mem : entry ∈ entries := by
        rw [split]
        exact mem_append_right _ mem_cons_self
      rw [next pre entry (ih _ split)]
      exact (visitShift_eq_iff ranked pre (lt entry mem)).mpr
        (keeps pre entry after split)

variable {modSums : List Int}

theorem visitShift_above (above : input.length ≤ i32 entry.2) :
    visitShift input modSums entry = .error (.status (.invalidArgument
      ("axis " ++ toString (i32 entry.2) ++ " is out of range"))) := by
  have pos : ¬ i32 entry.2 < 0 := by omega
  have beyond : ¬ i32 entry.2 < input.length := by omega
  simp only [visitShift, normalize, if_neg pos, if_neg beyond]

theorem visitShift_below (below : i32 entry.2 < -input.length) :
    visitShift input modSums entry = .error .outOfRange := by
  have neg : i32 entry.2 < 0 := by omega
  have lt : i32 entry.2 + input.length < input.length := by omega
  have wrong : i32 entry.2 + input.length < 0 := by omega
  simp only [visitShift, normalize, if_pos neg, if_pos lt, if_pos wrong]

theorem visitShift_of_narrowed (modSums : List Int) (lt : Inside input.length (i32 entry.2)) :
    ∃ next, visitShift input modSums entry = .ok next := by
  obtain ⟨lower, upper⟩ := lt
  have bounds : 0 ≤ normalize input.length entry.2 ∧
      normalize input.length entry.2 < input.length := by
    rw [normalize]
    split
    · omega
    · omega
  simp only [visitShift, if_pos bounds.2, if_neg (Int.not_lt.mpr bounds.1)]
  exact ⟨_, rfl⟩

theorem foldlM_visitShift_eq_invalid {xs : List (Int × Int)} {modSums : List Int} :
    (∃ message, xs.foldlM (visitShift input) modSums =
        .error (.status (.invalidArgument message))) ↔
      ∃ pre entry after, xs = pre ++ entry :: after ∧
        (∀ earlier ∈ pre, Inside input.length (i32 earlier.2)) ∧ input.length ≤ i32 entry.2 := by
  induction xs generalizing modSums with
  | nil =>
    refine iff_of_false (fun ⟨_, err⟩ => by cases err) ?_
    rintro ⟨pre, entry, after, split, -⟩
    simp at split
  | cons entry rest ih =>
    rw [foldlM_cons]
    by_cases above : input.length ≤ i32 entry.2
    · rw [visitShift_above above]
      exact iff_of_true ⟨_, rfl⟩ ⟨[], entry, rest, rfl, by simp, above⟩
    by_cases below : i32 entry.2 < -input.length
    · rw [visitShift_below below]
      refine iff_of_false (fun ⟨_, other⟩ => by cases other) ?_
      rintro ⟨pre, entry', after, split, earlier, beyond⟩
      cases pre with
      | nil =>
        cases split
        exact above beyond
      | cons first pre =>
        cases split
        have lower := (earlier entry mem_cons_self).1
        omega
    have lt : Inside input.length (i32 entry.2) := ⟨by omega, by omega⟩
    obtain ⟨next, seen⟩ := visitShift_of_narrowed modSums lt
    rw [seen]
    change (∃ message, rest.foldlM (visitShift input) next = _) ↔ _
    rw [ih]
    constructor
    · rintro ⟨pre, entry', after, rfl, earlier, beyond⟩
      exact ⟨entry :: pre, entry', after, rfl, forall_mem_cons.mpr ⟨lt, earlier⟩, beyond⟩
    · rintro ⟨pre, entry', after, split, earlier, beyond⟩
      cases pre with
      | nil =>
        cases split
        exact absurd beyond above
      | cons first pre =>
        cases split
        exact ⟨pre, entry', after, rfl, (forall_mem_cons.mp earlier).2, beyond⟩

theorem foldlM_visitShift_of_narrowed {xs : List (Int × Int)} (modSums : List Int)
    (lt : ∀ entry ∈ xs, Inside input.length (i32 entry.2)) :
    ∃ final, xs.foldlM (visitShift input) modSums = .ok final := by
  induction xs generalizing modSums with
  | nil => exact ⟨modSums, rfl⟩
  | cons entry rest ih =>
    obtain ⟨first, later⟩ := forall_mem_cons.mp lt
    obtain ⟨next, seen⟩ := visitShift_of_narrowed modSums first
    rw [foldlM_cons, seen]
    exact ih next later

theorem Inside.narrowed (ranked : numDims < 2 ^ 31) (lt : Inside numDims axis) :
    Inside numDims (i32 axis) := by
  obtain ⟨lower, upper⟩ := lt
  have kept : i32 axis = axis := Int.bmod_eq_of_le (by omega) (by omega)
  rw [kept]
  exact ⟨lower, upper⟩

structure Call (w v : Nat) extends Arguments w v where
  vector : input.isVectorOrHigher = true
  ranked : input.length < 2 ^ 31
  flat : shift.shape.length ≤ 1
  agree : shift.shape = axis.shape

namespace Call

variable {w v : Nat} (call : Call w v)

def entries : List (Int × Int) := call.toArguments.entries

/-- The shifts that the loop visits, which counts them in an `int`. -/
def visited : List (Int × Int) := call.entries.take (i32 call.shift.numElements).toNat

theorem length_entries : call.entries.length = call.shift.numElements := by
  have shifts := call.shift.sized
  have axes := call.axis.sized
  rw [← call.agree] at axes
  rw [entries, Arguments.entries, length_zip, length_map, length_map, shifts, axes, min_self]
  rfl

theorem initHelper_eq : initHelper call.toArguments = visitAll call.input call.visited := by
  have flat : call.axis.shape.length ≤ 1 := by
    rw [← call.agree]
    exact call.flat
  have same : (call.shift.shape == call.axis.shape) = true := beq_iff_eq.mpr call.agree
  simp only [initHelper, requires, call.vector, call.flat, flat, same, decide_true, if_true, bind,
    Except.bind, visitAll, visited, entries]

/-- An error is reported for an axis that is out of range and for no other reason, each shift is
    added to the sum of its axis modulo the size, and without shifts nothing changes. -/
structure Handled : Prop where
  reports : (∃ message, initHelper call.toArguments = .error (.status (.invalidArgument message))) ↔
      ∃ entry ∈ call.entries, ¬ Inside call.input.length entry.2
  inRange : initHelper call.toArguments ≠ .error .outOfRange
  used : (∀ entry ∈ call.entries, Inside call.input.length entry.2) →
    call.visited = call.entries ∧ ∀ before after, call.entries = before ++ after →
      visitAll call.input before = .ok (exactModSums call.input before)
  unchanged : call.entries = [] → ∀ (α : Type) [Zero α] (values : List α),
    values.length = call.input.numElements →
      compute call.toArguments values = .ok (some (values.map some))

theorem visited_eq_iff : call.visited = call.entries ↔ call.shift.numElements < 2 ^ 31 := by
  rw [visited, take_eq_self_iff, call.length_entries]
  obtain ⟨above, below, k, whole⟩ := i32_bounds call.shift.numElements
  constructor
  · intro all
    omega
  · intro few
    have kept : i32 call.shift.numElements = call.shift.numElements := i32_of_lt few
    omega

theorem compute_of_nil (none : call.entries = []) {α : Type} [Zero α] (values : List α) :
    compute call.toArguments values = .ok (some (NoOpKernel.zeroed call.input)) := by
  have nothing : initHelper call.toArguments = .ok (List.replicate call.input.length 0) := by
    rw [initHelper_eq, visited, none, take_nil]
    rfl
  have empty : call.shift.shape.numElements = 0 := by
    have count := call.length_entries
    rw [none] at count
    exact count.symm
  have skipped : NoOpKernel.isNoOpKernel [call.input, call.shift.shape, call.axis.shape]
      [call.input] = true := by
    rw [NoOpKernel.isNoOpKernel_iff]
    exact Or.inl ⟨call.shift.shape, by simp, empty⟩
  simp only [compute, nothing, bind, Except.bind, skipped, if_true, pure, Except.pure]

theorem unchanged_iff (none : call.entries = []) :
    (∀ (α : Type) [Zero α] (values : List α), values.length = call.input.numElements →
        compute call.toArguments values = .ok (some (values.map some))) ↔
      call.input.numElements = 0 := by
  constructor
  · intro kept
    have ones := kept Nat (List.replicate call.input.numElements 1) length_replicate
    rw [call.compute_of_nil none, Except.ok.injEq, Option.some.injEq, NoOpKernel.zeroed,
      map_replicate, replicate_inj] at ones
    exact ones.2.resolve_right (by decide)
  · intro empty α _ values length
    obtain rfl := length_eq_zero_iff.mp (length.trans empty)
    rw [call.compute_of_nil none, NoOpKernel.zeroed_of_empty empty, map_nil]

theorem initHelper_of_inside (lt : ∀ entry ∈ call.entries, Inside call.input.length entry.2) :
    ∃ final, initHelper call.toArguments = .ok final := by
  rw [initHelper_eq]
  exact foldlM_visitShift_of_narrowed _ fun entry mem =>
    (lt entry (mem_of_mem_take mem)).narrowed call.ranked

/-- An axis that is out of range is reported if the first axis whose low 32 bits are out of range
    is too large. Axes in range are handled if the loop counts all shifts, if each is added
    without loss, and if there is one or nothing to roll. -/
theorem handled_iff : call.Handled ↔ ((∃ entry ∈ call.entries, ¬ Inside call.input.length entry.2) →
      ∃ before entry after, call.visited = before ++ entry :: after ∧
        (∀ earlier ∈ before, Inside call.input.length (i32 earlier.2)) ∧
        call.input.length ≤ i32 entry.2) ∧
    ((∀ entry ∈ call.entries, Inside call.input.length entry.2) →
      call.shift.numElements < 2 ^ 31 ∧ KeepsAll call.input call.entries ∧
        (call.entries = [] → call.input.numElements = 0)) := by
  have invalid := @foldlM_visitShift_eq_invalid call.input call.visited
    (List.replicate call.input.length 0)
  constructor
  · intro handled
    constructor
    · intro outside
      have err := handled.reports.mpr outside
      rw [initHelper_eq] at err
      exact invalid.mp err
    · intro lt
      obtain ⟨all, exact⟩ := handled.used lt
      exact ⟨call.visited_eq_iff.mp all, (visitAll_eq_iff call.ranked lt).mp exact,
        fun none => (call.unchanged_iff none).mp (handled.unchanged none)⟩
  · rintro ⟨above, proper⟩
    by_cases outside : ∃ entry ∈ call.entries, ¬ Inside call.input.length entry.2
    · have err := invalid.mpr (above outside)
      rw [← visitAll, ← initHelper_eq] at err
      refine ⟨iff_of_true err outside, ?_, ?_, ?_⟩
      · obtain ⟨message, failed⟩ := err
        rw [failed]
        exact nofun
      · intro lt
        obtain ⟨entry, mem, not⟩ := outside
        exact absurd (lt entry mem) not
      · intro none
        obtain ⟨entry, mem, -⟩ := outside
        rw [none] at mem
        cases mem
    · have lt : ∀ entry ∈ call.entries, Inside call.input.length entry.2 := by
        simpa using outside
      obtain ⟨few, keeps, empty⟩ := proper lt
      obtain ⟨final, made⟩ := call.initHelper_of_inside lt
      refine ⟨iff_of_false ?_ outside, ?_, ?_, ?_⟩
      · rintro ⟨message, failed⟩
        rw [made] at failed
        cases failed
      · rw [made]
        exact nofun
      · exact fun _ => ⟨call.visited_eq_iff.mpr few, (visitAll_eq_iff call.ranked lt).mpr keeps⟩
      · exact fun none => (call.unchanged_iff none).mpr (empty none)

/-- An axis below `-rank` is not reported, and the helper reads the size of dimension -1. -/
theorem negativeAxis_not_handled :
    ¬ (Call.mk (w := 32) (v := 32) ⟨[2, 3], ⟨[1], [1], rfl⟩, ⟨[1], [-3], rfl⟩⟩
      rfl (by decide) (by decide) rfl).Handled := fun handled =>
  handled.inRange (by decide +kernel)

end Call

end TfDml.Roll
