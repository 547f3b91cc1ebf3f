import TfDml.Kernels.SimplifySlice

/-! # Simplified transposes

`SimplifyTranspose` merges the dimensions of the input that stay next to each other in
the output, and renumbers the permutation. Its indices are `int`s that come from the
permutation as they are.
-/

namespace TfDml.Transpose

open Lib List
open StridedSlice (IndexTensor i32 u32)

/-- Why the process ends, or may do anything: an element outside of a vector is accessed. -/
inductive Fatal where
  | outOfRange
  | check
  deriving DecidableEq

/-- `v[index]`. -/
def read {α : Type} (v : List α) (index : Int) : Except Fatal α :=
  if 0 ≤ index then
    match v[index.toNat]? with
    | some x => .ok x
    | none => .error .outOfRange
  else .error .outOfRange

/-- `v[index] = x`. -/
def write {α : Type} (v : List α) (index : Int) (x : α) : Except Fatal (List α) :=
  if 0 ≤ index ∧ index < v.length then .ok (v.set index.toNat x) else .error .outOfRange

structure SimpleTranspose where
  inputShape : List Int
  outputShape : List Int
  permutations : List Int
  deriving DecidableEq

/-- `static_cast<int>(perm_values[i])`, of all values. -/
def ints (perm : IndexTensor w) : List Int := perm.values.map fun value => i32 value.toInt

structure Merger where
  simpleInputSizes : List Int
  inputToPermMap : List Int
  inputIndex : Int
  dimSize : Int

/-- The loop body, for the entry `i` of the permutation. -/
def Merger.visit (shape : TensorShape) (m : Merger) (i : Nat) (prevIndex index : Int) :
    Except Fatal Merger := do
  let inputToPermMap ← write m.inputToPermMap index (i : Int)
  let size ← read shape index
  if index = prevIndex + 1 then
    let simpleInputSizes ← write m.simpleInputSizes index (-1)
    .ok ⟨simpleInputSizes, inputToPermMap, m.inputIndex, i32 (m.dimSize * size)⟩
  else
    let simpleInputSizes ← write m.simpleInputSizes m.inputIndex m.dimSize
    .ok ⟨simpleInputSizes, inputToPermMap, index, i32 size⟩

/-- The loop from entry `i` on. -/
def Merger.visitAll (shape : TensorShape) : Nat → Int → List Int → Merger → Except Fatal Merger
  | _, _, [], m => .ok m
  | i, prevIndex, index :: rest, m => do
    let next ← m.visit shape i prevIndex index
    visitAll shape (i + 1) index rest next

/-- `simple_input_sizes` and `input_to_perm_map`. A null permutation is an identity operation. -/
def mergeDims (shape : TensorShape) : List Int → Except Fatal (List Int × List Int)
  | [] => .ok ([1], [0])
  | first :: rest => do
    let size ← read shape first
    let inputToPermMap ← write (replicate shape.length 0) first 0
    let m ← Merger.visitAll shape 1 first rest
      ⟨replicate shape.length 0, inputToPermMap, first, i32 size⟩
    let simpleInputSizes ← write m.simpleInputSizes m.inputIndex m.dimSize
    .ok (simpleInputSizes, m.inputToPermMap)

structure Shifter where
  simpleInputSizes : List Int
  simplePermutations : List Int
  inputLeftShift : Nat

def Shifter.visit (inputToPermMap : List Int) (s : Shifter) (i : Nat) : Except Fatal Shifter := do
  let permIndex ← read inputToPermMap i
  let size ← read s.simpleInputSizes i
  if size = -1 then
    let simplePermutations ← write s.simplePermutations permIndex (-1)
    .ok ⟨s.simpleInputSizes, simplePermutations, s.inputLeftShift + 1⟩
  else
    let newIndex : Int := i - s.inputLeftShift
    let simpleInputSizes ← write s.simpleInputSizes newIndex size
    let simplePermutations ← write s.simplePermutations permIndex newIndex
    .ok ⟨simpleInputSizes, simplePermutations, s.inputLeftShift⟩

/-- The loop body for `simple_permutations` and `perm_left_shift`. -/
def shiftPermutation (state : List Int × Nat) (i : Nat) : Except Fatal (List Int × Nat) := do
  let (simplePermutations, permLeftShift) := state
  let index ← read simplePermutations i
  if index = -1 then .ok (simplePermutations, permLeftShift + 1)
  else
    let shifted ← write simplePermutations (i - permLeftShift) index
    .ok (shifted, permLeftShift)

/-- `v.resize(v.size() - shift)`. -/
def dropLast (v : List Int) (shift : Nat) : List Int := v.take (v.length - shift)

def simplifyTranspose (shape : TensorShape) (perm : List Int) : Except Fatal SimpleTranspose := do
  let (sizes, inputToPermMap) ← mergeDims shape perm
  let s ← (range sizes.length).foldlM (Shifter.visit inputToPermMap)
    ⟨sizes, replicate sizes.length 0, 0⟩
  let simpleInputSizes := dropLast s.simpleInputSizes s.inputLeftShift
  let (shifted, permLeftShift) ← (range s.simplePermutations.length).foldlM shiftPermutation
    (s.simplePermutations, 0)
  let simplePermutations := dropLast shifted permLeftShift
  let outputShape ← simplePermutations.mapM fun index => do
    let size ← read simpleInputSizes index
    .ok (i32 size)
  .ok ⟨simpleInputSizes, outputShape, simplePermutations⟩

theorem read_ok {α : Type} {v : List α} {i : Nat} {x : α} (got : v[i]? = some x) :
    read v (i : Int) = .ok x := by
  rw [read, if_pos (Int.natCast_nonneg i), Int.toNat_natCast, got]

theorem write_ok {α : Type} {v : List α} {i : Nat} (lt : i < v.length) (x : α) :
    write v (i : Int) x = .ok (v.set i x) := by
  rw [write, if_pos ⟨Int.natCast_nonneg i, Int.ofNat_lt.mpr lt⟩, Int.toNat_natCast]

def remaining (v : List Int) : List Int := v.filter (· ≠ -1)

/-- Before element `i`, the elements that remain have been shifted to the left by `shift`. -/
structure Compacted (v : List Int) (i : Nat) (s : List Int) (shift : Nat) : Prop where
  length : s.length = v.length
  shifted : s.take (i - shift) = remaining (v.take i)
  rest : s.drop i = v.drop i
  shift : shift + (remaining (v.take i)).length = i

theorem remaining_take_succ {v : List Int} {i : Nat} {x : Int} (is : v[i]? = some x) :
    remaining (v.take (i + 1)) = remaining (v.take i) ++ if x = -1 then [] else [x] := by
  rw [take_add_one, is, remaining, filter_append]
  by_cases removed : x = -1
  · simp [removed, remaining]
  · simp [removed, remaining]

namespace Compacted

variable {v s : List Int} {i shift : Nat} {x : Int}

theorem start (v : List Int) : Compacted v 0 v 0 := ⟨rfl, rfl, rfl, rfl⟩

theorem read_eq (compacted : Compacted v i s shift) (is : v[i]? = some x) :
    read s (i : Int) = .ok x := by
  apply read_ok
  have first := congrArg (fun l => l[0]?) compacted.rest
  simpa [is] using first

theorem remove (compacted : Compacted v i s shift) (is : v[i]? = some (-1)) :
    Compacted v (i + 1) s (shift + 1) := by
  have same : remaining (v.take (i + 1)) = remaining (v.take i) := by simp [remaining_take_succ is]
  constructor
  · exact compacted.length
  · rw [same, ← compacted.shifted]
    congr 1
    omega
  · rw [← tail_drop, compacted.rest, tail_drop]
  · rw [same, Nat.add_right_comm, compacted.shift]

theorem keep (compacted : Compacted v i s shift) (is : v[i]? = some x) (kept : x ≠ -1) :
    Compacted v (i + 1) (s.set (i - shift) x) shift := by
  have lt : i < v.length := (List.getElem?_eq_some_iff.mp is).1
  have total := compacted.shift
  have more : remaining (v.take (i + 1)) = remaining (v.take i) ++ [x] := by
    rw [remaining_take_succ is, if_neg kept]
  constructor
  · rw [length_set, compacted.length]
  · have room : i - shift < s.length := by
      rw [compacted.length]
      omega
    rw [more, ← compacted.shifted, Nat.sub_add_comm (by omega), take_add_one,
      take_set_of_le (le_refl _)]
    simp [room]
  · rw [drop_set_of_lt (by omega), ← tail_drop, compacted.rest, tail_drop]
  · rw [more, length_append, ← add_assoc, total]
    rfl

theorem dropLast_eq (compacted : Compacted v v.length s shift) :
    dropLast s shift = remaining v := by
  rw [dropLast, compacted.length, compacted.shifted, take_length]

end Compacted

/-- The index that is left for a dimension of the input, or -1. -/
def renumbered (sizes : List Int) (d : Nat) : Int :=
  if sizes[d]? = some (-1) then -1 else (remaining (sizes.take d)).length

section Shifting

variable {sizes inputToPermMap : List Int} {perm : List Nat}

theorem idxOf_lt (isPerm : perm.Perm (range sizes.length)) {d : Nat}
    (lt : d < sizes.length) : perm.idxOf d < sizes.length := by
  have length := isPerm.length_eq
  rw [length_range] at length
  rw [← length]
  exact idxOf_lt_length_iff.mpr (isPerm.mem_iff.mpr (mem_range.mpr lt))

/-- The entries of the dimensions below `i` have been renumbered. -/
structure Shifter.Renumbered (sizes : List Int) (perm : List Nat) (s : Shifter) (i : Nat) :
    Prop where
  compacted : Compacted sizes i s.simpleInputSizes s.inputLeftShift
  length : s.simplePermutations.length = sizes.length
  entries : ∀ d < i, s.simplePermutations[perm.idxOf d]? = some (renumbered sizes d)

theorem entries_set {v : List Int} {i : Nat} (isPerm : perm.Perm (range sizes.length))
    (lt : i < sizes.length) (length : v.length = sizes.length)
    (xs : ∀ d < i, v[perm.idxOf d]? = some (renumbered sizes d)) : ∀ d < i + 1,
      (v.set (perm.idxOf i) (renumbered sizes i))[perm.idxOf d]? = some (renumbered sizes d) := by
  intro d less
  by_cases last : d = i
  · have room : perm.idxOf i < v.length := length ▸ idxOf_lt isPerm lt
    rw [last, getElem?_set_self room]
  · have mem : i ∈ perm := isPerm.mem_iff.mpr (mem_range.mpr lt)
    have other : perm.idxOf i ≠ perm.idxOf d := fun same => last ((idxOf_inj mem).mp same).symm
    rw [getElem?_set_ne other, xs d (by omega)]

theorem Shifter.visit_renumbered {s : Shifter} {i : Nat}
    (isPerm : perm.Perm (range sizes.length))
    (inverse : ∀ d < sizes.length, inputToPermMap[d]? = some (perm.idxOf d : Int))
    (lt : i < sizes.length) (pre : s.Renumbered sizes perm i) :
    ∃ s', s.visit inputToPermMap i = .ok s' ∧ s'.Renumbered sizes perm (i + 1) := by
  obtain ⟨x, is⟩ : ∃ x, sizes[i]? = some x := ⟨_, getElem?_eq_getElem lt⟩
  have room : perm.idxOf i < s.simplePermutations.length := pre.length ▸ idxOf_lt isPerm lt
  have total := pre.compacted.shift
  have same : ((i : Int) - s.inputLeftShift) = (i - s.inputLeftShift : Nat) := by omega
  have xs := entries_set isPerm lt pre.length pre.entries
  unfold Shifter.visit
  rw [read_ok (inverse i lt), pre.compacted.read_eq is]
  by_cases removed : x = -1
  · have value : renumbered sizes i = -1 := by rw [renumbered, is, if_pos (congrArg some removed)]
    subst removed
    refine ⟨⟨s.simpleInputSizes, s.simplePermutations.set (perm.idxOf i) (-1),
      s.inputLeftShift + 1⟩, ?_, pre.compacted.remove is, ?_, ?_⟩
    · simp [bind, Except.bind, write_ok room]
    · simp [pre.length]
    · rw [value] at xs
      exact xs
  · have value : renumbered sizes i = (i - s.inputLeftShift : Nat) := by
      rw [renumbered, is, if_neg (fun eq => removed (Option.some.inj eq))]
      omega
    have shifted : i - s.inputLeftShift < s.simpleInputSizes.length := by
      rw [pre.compacted.length]
      omega
    refine ⟨⟨s.simpleInputSizes.set (i - s.inputLeftShift) x,
      s.simplePermutations.set (perm.idxOf i) (i - s.inputLeftShift : Nat), s.inputLeftShift⟩, ?_,
      pre.compacted.keep is removed, ?_, ?_⟩
    · simp [bind, Except.bind, removed, same, write_ok room, write_ok shifted]
    · simp [pre.length]
    · rw [value] at xs
      exact xs

theorem shiftDims_ok (isPerm : perm.Perm (range sizes.length))
    (inverse : ∀ d < sizes.length, inputToPermMap[d]? = some (perm.idxOf d : Int)) :
    ∃ s, (range sizes.length).foldlM (Shifter.visit inputToPermMap)
        ⟨sizes, replicate sizes.length 0, 0⟩ = .ok s ∧
      dropLast s.simpleInputSizes s.inputLeftShift = remaining sizes ∧
      s.simplePermutations = perm.map (renumbered sizes) := by
  have start : Shifter.Renumbered sizes perm ⟨sizes, replicate sizes.length 0, 0⟩ 0 :=
    ⟨.start sizes, by simp, by simp⟩
  obtain ⟨s, folded, done⟩ := foldlM_range_ok start fun i lt s pre =>
    Shifter.visit_renumbered isPerm inverse lt pre
  refine ⟨s, folded, done.compacted.dropLast_eq, ?_⟩
  have length := isPerm.length_eq
  rw [length_range] at length
  apply ext_getElem
  · rw [done.length, length_map, length]
  · intro k first snd
    rw [length_map] at snd
    have mem : perm[k] < sizes.length := mem_range.mp (isPerm.mem_iff.mp (getElem_mem snd))
    have entry := done.entries perm[k] mem
    rw [List.Nodup.idxOf_getElem (isPerm.nodup_iff.mpr nodup_range) k snd,
      getElem?_eq_getElem first, Option.some.injEq] at entry
    rw [entry, getElem_map]

theorem shiftPermutations_ok (v : List Int) :
    ∃ shifted shift, (range v.length).foldlM shiftPermutation (v, 0) = .ok (shifted, shift) ∧
      dropLast shifted shift = remaining v := by
  have step : ∀ i < v.length, ∀ state : List Int × Nat, Compacted v i state.1 state.2 →
      ∃ next, shiftPermutation state i = .ok next ∧ Compacted v (i + 1) next.1 next.2 := by
    rintro i lt ⟨s, shift⟩ pre
    obtain ⟨x, is⟩ : ∃ x, v[i]? = some x := ⟨_, getElem?_eq_getElem lt⟩
    have total := pre.shift
    have room : i - shift < s.length := by
      rw [pre.length]
      omega
    have same : ((i : Int) - shift) = (i - shift : Nat) := by omega
    simp only [shiftPermutation, pre.read_eq is]
    by_cases removed : x = -1
    · subst removed
      exact ⟨(s, shift + 1), by simp [bind, Except.bind], pre.remove is⟩
    · refine ⟨(s.set (i - shift) x, shift), ?_, pre.keep is removed⟩
      simp [bind, Except.bind, removed, same, write_ok room]
  obtain ⟨⟨shifted, shift⟩, folded, done⟩ := foldlM_range_ok (b := (v, 0))
    (I := fun (state : List Int × Nat) i => Compacted v i state.1 state.2) (.start v) step
  exact ⟨shifted, shift, folded, done.dropLast_eq⟩

end Shifting

/-- The runs of consecutive dimensions, each with its first dimension and how many follow it.
    One that starts with `a` is open, with `k` dimensions that have followed. -/
def runsFrom (a k : Nat) : List Nat → List (Nat × Nat)
  | [] => [(a, k)]
  | x :: rest => if x = a + k + 1 then runsFrom a (k + 1) rest else (a, k) :: runsFrom x 0 rest

def runs : List Nat → List (Nat × Nat)
  | [] => []
  | x :: rest => runsFrom x 0 rest

def runDims (r : Nat × Nat) : List Nat := range' r.1 (r.2 + 1)

/-- The `dim_size` of a run, which is an `int` after each step. -/
def groupSize (shape : TensorShape) (a : Nat) : Nat → Int
  | 0 => i32 (shape.getD a 0)
  | k + 1 => i32 (groupSize shape a k * shape.getD (a + k + 1) 0)

/-- The size of the run is with its first dimension; the others are to be removed. -/
structure Sized (shape : TensorShape) (sizes : List Int) (r : Nat × Nat) : Prop where
  first : sizes[r.1]? = some (groupSize shape r.1 r.2)
  others : ∀ d, r.1 < d → d ≤ r.1 + r.2 → sizes[d]? = some (-1)

theorem runsFrom_dims (a k : Nat) (rest : List Nat) :
    (runsFrom a k rest).flatMap runDims = range' a (k + 1) ++ rest := by
  induction rest generalizing a k with
  | nil => simp [runsFrom, runDims]
  | cons x rest ih =>
    rw [runsFrom]
    by_cases next : x = a + k + 1
    · have longer : range' a (k + 1 + 1) = range' a (k + 1) ++ [x] := by
        rw [range'_concat, next]
        simp [add_assoc]
      rw [if_pos next, ih, longer, append_assoc]
      rfl
    · rw [if_neg next, flatMap_cons, ih]
      rfl

theorem runs_dims (perm : List Nat) : (runs perm).flatMap runDims = perm := by
  cases perm with
  | nil => rfl
  | cons x rest => exact runsFrom_dims x 0 rest

section Merging

variable {shape : TensorShape} {a k i : Nat} {rest : List Nat} {m : Merger}

/-- The run from `a` on is open in the local variables. -/
structure Merger.Open (m : Merger) (shape : TensorShape) (a k : Nat) : Prop where
  sizes : m.simpleInputSizes.length = shape.length
  map : m.inputToPermMap.length = shape.length
  inputIndex : m.inputIndex = a
  dimSize : m.dimSize = groupSize shape a k
  inside : a + k < shape.length
  removed : ∀ d, a < d → d ≤ a + k → m.simpleInputSizes[d]? = some (-1)

structure Merged (shape : TensorShape) (i a k : Nat) (rest : List Nat) (m : Merger)
    (sizes map : List Int) : Prop where
  sizesLength : sizes.length = shape.length
  mapLength : map.length = shape.length
  sized : ∀ r ∈ runsFrom a k rest, Sized shape sizes r
  otherSizes : ∀ d, d ∉ range' a (k + 1) ++ rest → sizes[d]? = m.simpleInputSizes[d]?
  entries : ∀ j (inside : j < rest.length), map[rest[j]]? = some ((i + j : Nat) : Int)
  otherEntries : ∀ d, d ∉ rest → map[d]? = m.inputToPermMap[d]?

theorem entries_cons {x : Nat} {map map' : List Int} (room : x < map'.length) (fresh : x ∉ rest)
    (xs : ∀ j (lt : j < rest.length), map[rest[j]]? = some ((i + 1 + j : Nat) : Int))
    (others : ∀ d, d ∉ rest → map[d]? = (map'.set x (i : Int))[d]?) :
    (∀ j (lt : j < (x :: rest).length), map[(x :: rest)[j]]? = some ((i + j : Nat) : Int)) ∧
      ∀ d, d ∉ x :: rest → map[d]? = map'[d]? := by
  constructor
  · intro j lt
    rcases j with _ | j
    · rw [getElem_cons_zero, others x fresh, getElem?_set_self room]
      rfl
    · rw [length_cons] at lt
      rw [getElem_cons_succ, xs j (by omega)]
      congr 2
      omega
  · intro d other
    rw [mem_cons, not_or] at other
    rw [others d other.2, getElem?_set_ne (Ne.symm other.1)]

theorem Merger.visit_next (isOpen : m.Open shape a k) {x : Nat} (lt : x < shape.length)
    (next : x = a + k + 1) : m.visit shape i ((a + k : Nat) : Int) (x : Int) =
      .ok ⟨m.simpleInputSizes.set x (-1), m.inputToPermMap.set x (i : Int), m.inputIndex,
        i32 (m.dimSize * (shape.getD x 0 : Nat))⟩ := by
  have size : shape[x]? = some (shape.getD x 0) := by
    rw [getD_eq_getElem _ _ lt, getElem?_eq_getElem lt]
  have isNext : (x : Int) = ((a + k : Nat) : Int) + 1 := by omega
  have room : x < m.simpleInputSizes.length := isOpen.sizes ▸ lt
  rw [visit, write_ok (isOpen.map ▸ lt), read_ok size]
  simp only [bind, Except.bind, if_pos isNext, write_ok room]

theorem Merger.visit_start (isOpen : m.Open shape a k) {x : Nat} (lt : x < shape.length)
    (other : x ≠ a + k + 1) : m.visit shape i ((a + k : Nat) : Int) (x : Int) =
      .ok ⟨m.simpleInputSizes.set a (groupSize shape a k), m.inputToPermMap.set x (i : Int), x,
        i32 (shape.getD x 0 : Nat)⟩ := by
  have size : shape[x]? = some (shape.getD x 0) := by
    rw [getD_eq_getElem _ _ lt, getElem?_eq_getElem lt]
  have notNext : ¬ (x : Int) = ((a + k : Nat) : Int) + 1 := by omega
  have room : a < m.simpleInputSizes.length := by
    have lt := isOpen.inside
    rw [isOpen.sizes]
    omega
  rw [visit, write_ok (isOpen.map ▸ lt), read_ok size, isOpen.inputIndex, isOpen.dimSize]
  simp only [bind, Except.bind, if_neg notNext, write_ok room]

theorem Merger.visitAll_ok (isOpen : m.Open shape a k) (lt : ∀ x ∈ rest, x < shape.length)
    (nodup : (range' a (k + 1) ++ rest).Nodup) :
    ∃ m' sizes, visitAll shape i ((a + k : Nat) : Int) (rest.map Int.ofNat) m = .ok m' ∧
      write m'.simpleInputSizes m'.inputIndex m'.dimSize = .ok sizes ∧
      Merged shape i a k rest m sizes m'.inputToPermMap := by
  induction rest generalizing a k i m with
  | nil =>
    have room : a < m.simpleInputSizes.length := by
      have lt := isOpen.inside
      rw [isOpen.sizes]
      omega
    refine ⟨m, m.simpleInputSizes.set a m.dimSize, rfl, ?_, ?_⟩
    · rw [isOpen.inputIndex, write_ok room]
    · refine ⟨by rw [length_set, isOpen.sizes], isOpen.map, ?_, ?_, by simp, by simp⟩
      · intro r mem
        rw [runsFrom, mem_singleton] at mem
        subst mem
        refine ⟨by rw [getElem?_set_self room, isOpen.dimSize], fun d above below => ?_⟩
        rw [getElem?_set_ne (by omega), isOpen.removed d above below]
      · intro d other
        rw [append_nil, mem_range'_1] at other
        rw [getElem?_set_ne (by omega)]
  | cons x rest ih =>
    obtain ⟨firstInside, laterInside⟩ := forall_mem_cons.mp lt
    have mapRoom : x < m.inputToPermMap.length := isOpen.map ▸ firstInside
    have fresh : x ∉ rest := (nodup_cons.mp (nodup_append.mp nodup).2.1).1
    have xOutside : x ∉ range' a (k + 1) := fun mem =>
      (nodup_append.mp nodup).2.2 x mem x mem_cons_self rfl
    rw [mem_range'_1] at xOutside
    by_cases next : x = a + k + 1
    · -- The dimension is merged into the open run.
      have longer : range' a (k + 1) ++ x :: rest = range' a (k + 1 + 1) ++ rest := by
        rw [range'_concat (n := k + 1), next]
        simp [add_assoc]
      have room : x < m.simpleInputSizes.length := isOpen.sizes ▸ firstInside
      have opened : Merger.Open
          ⟨m.simpleInputSizes.set x (-1), m.inputToPermMap.set x (i : Int), m.inputIndex,
            i32 (m.dimSize * (shape.getD x 0 : Nat))⟩ shape a (k + 1) := by
        refine ⟨by simp [isOpen.sizes], by simp [isOpen.map], isOpen.inputIndex, ?_, by omega, ?_⟩
        · rw [isOpen.dimSize, groupSize, next]
        · intro d above below
          by_cases last : d = x
          · rw [last, getElem?_set_self room]
          · rw [getElem?_set_ne (Ne.symm last), isOpen.removed d above (by omega)]
      obtain ⟨m', sizes, seen, put, merged⟩ := ih (i := i + 1) opened laterInside (longer ▸ nodup)
      refine ⟨m', sizes, ?_, put, ?_⟩
      · rw [map_cons, visitAll, Int.ofNat_eq_natCast, visit_next isOpen firstInside next]
        rw [← add_assoc, ← next] at seen
        exact seen
      · obtain ⟨xs, otherEntries⟩ :=
          entries_cons mapRoom fresh merged.entries merged.otherEntries
        refine ⟨merged.sizesLength, merged.mapLength, ?_, ?_, xs, otherEntries⟩
        · rw [runsFrom, if_pos next]
          exact merged.sized
        · intro d other
          rw [longer] at other
          have notLast : d ≠ x := by
            rintro rfl
            exact other (mem_append_left _ (mem_range'_1.mpr (by omega)))
          rw [merged.otherSizes d other, getElem?_set_ne (Ne.symm notLast)]
    · -- The open run is closed, and the dimension starts another.
      have apart := nodup_append.mp nodup
      have room : a < m.simpleInputSizes.length := by
        have lt := isOpen.inside
        rw [isOpen.sizes]
        omega
      have opened : Merger.Open
          ⟨m.simpleInputSizes.set a (groupSize shape a k), m.inputToPermMap.set x (i : Int), x,
            i32 (shape.getD x 0 : Nat)⟩ shape x 0 := by
        refine ⟨by simp [isOpen.sizes], by simp [isOpen.map], rfl, by rw [groupSize], firstInside, ?_⟩
        intro d above below
        omega
      obtain ⟨m', sizes, seen, put, merged⟩ := ih (i := i + 1) opened laterInside apart.2.1
      refine ⟨m', sizes, ?_, put, ?_⟩
      · rw [map_cons, visitAll, Int.ofNat_eq_natCast, visit_start isOpen firstInside next]
        exact seen
      · obtain ⟨xs, otherEntries⟩ :=
          entries_cons mapRoom fresh merged.entries merged.otherEntries
        have later : ∀ d ∈ range' a (k + 1), d ∉ range' x (0 + 1) ++ rest :=
          fun d mem after => apart.2.2 d mem d after rfl
        refine ⟨merged.sizesLength, merged.mapLength, ?_, ?_, xs, otherEntries⟩
        · rw [runsFrom, if_neg next]
          refine forall_mem_cons.mpr ⟨⟨?_, fun d above below => ?_⟩, merged.sized⟩
          · rw [merged.otherSizes a (later a (mem_range'_1.mpr (by omega))), getElem?_set_self room]
          · rw [merged.otherSizes d (later d (mem_range'_1.mpr (by omega))),
              getElem?_set_ne (by omega), isOpen.removed d above below]
        · intro d other
          rw [mem_append, not_or] at other
          have notFirst : d ≠ a := by
            rintro rfl
            exact other.1 (mem_range'_1.mpr (by omega))
          have notLater : d ∉ range' x (0 + 1) ++ rest := other.2
          rw [merged.otherSizes d notLater, getElem?_set_ne (Ne.symm notFirst)]

end Merging

theorem inverse_of_entries {perm : List Nat} {n : Nat} {map : List Int}
    (isPerm : perm.Perm (range n))
    (xs : ∀ j (lt : j < perm.length), map[perm[j]]? = some (j : Int)) :
    ∀ d < n, map[d]? = some (perm.idxOf d : Int) := by
  intro d lt
  have mem : perm.idxOf d < perm.length :=
    idxOf_lt_length_iff.mpr (isPerm.mem_iff.mpr (mem_range.mpr lt))
  have entry := xs (perm.idxOf d) mem
  rwa [getElem_idxOf mem] at entry

theorem mergeDims_ok {shape : TensorShape} {perm : List Nat} (some_ : perm ≠ [])
    (isPerm : perm.Perm (range shape.length)) :
    ∃ sizes map, mergeDims shape (perm.map Int.ofNat) = .ok (sizes, map) ∧
      sizes.length = shape.length ∧ (∀ r ∈ runs perm, Sized shape sizes r) ∧
      ∀ d < shape.length, map[d]? = some (perm.idxOf d : Int) := by
  cases perm with
  | nil => exact absurd rfl some_
  | cons first rest =>
    have lt : ∀ x ∈ first :: rest, x < shape.length :=
      fun x mem => mem_range.mp (isPerm.mem_iff.mp mem)
    obtain ⟨firstInside, laterInside⟩ := forall_mem_cons.mp lt
    have nodup : (range' first (0 + 1) ++ rest).Nodup := isPerm.nodup_iff.mpr nodup_range
    have fresh : first ∉ rest := (nodup_cons.mp nodup).1
    have size : shape[first]? = some (shape.getD first 0) := by
      rw [getD_eq_getElem _ _ firstInside, getElem?_eq_getElem firstInside]
    have room : first < (replicate shape.length (0 : Int)).length := by
      rw [length_replicate]
      exact firstInside
    have opened : Merger.Open
        ⟨replicate shape.length 0, (replicate shape.length 0).set first 0, first,
          i32 (shape.getD first 0 : Nat)⟩ shape first 0 := by
      refine ⟨by simp, by simp, rfl, by rw [groupSize], firstInside, ?_⟩
      intro d above below
      omega
    obtain ⟨m, sizes, seen, put, merged⟩ := Merger.visitAll_ok (i := 1) opened laterInside nodup
    refine ⟨sizes, m.inputToPermMap, ?_, merged.sizesLength, merged.sized, ?_⟩
    · have seen' : Merger.visitAll shape 1 (first : Int) (rest.map Int.ofNat)
          ⟨replicate shape.length 0, (replicate shape.length 0).set first 0, first,
            i32 (shape.getD first 0 : Nat)⟩ = .ok m := seen
      rw [map_cons, mergeDims, Int.ofNat_eq_natCast, read_ok size, write_ok room]
      simp only [bind, Except.bind, seen', put]
    · apply inverse_of_entries isPerm
      have xs := (entries_cons (i := 0) room fresh (by simpa using merged.entries)
        merged.otherEntries).1
      simpa using xs

theorem renumbered_ne {sizes : List Int} {d : Nat} :
    renumbered sizes d ≠ -1 ↔ sizes[d]? ≠ some (-1) := by
  unfold renumbered
  by_cases removed : sizes[d]? = some (-1)
  · simp [removed]
  · rw [if_neg removed]
    exact iff_of_true (by omega) removed

theorem renumbered_bounds {sizes : List Int} {d : Nat} (lt : d < sizes.length)
    (kept : renumbered sizes d ≠ -1) :
    0 ≤ renumbered sizes d ∧ renumbered sizes d < (remaining sizes).length := by
  rw [renumbered_ne, getElem?_eq_getElem lt, ne_eq, Option.some.injEq] at kept
  have value : renumbered sizes d = (remaining (sizes.take d)).length := by
    rw [renumbered, getElem?_eq_getElem lt, if_neg (fun eq => kept (Option.some.inj eq))]
  have whole : sizes = sizes.take d ++ sizes[d] :: sizes.drop (d + 1) := by
    rw [← drop_eq_getElem_cons lt, take_append_drop]
  have split : remaining sizes =
      remaining (sizes.take d) ++ sizes[d] :: remaining (sizes.drop (d + 1)) := by
    refine (congrArg remaining whole).trans ?_
    rw [remaining, filter_append, filter_cons_of_pos (by simpa using kept)]
    rfl
  rw [value, split, length_append, length_cons]
  omega

theorem outputShape_ok {sizes indices : List Int}
    (lt : ∀ index ∈ indices, 0 ≤ index ∧ index < sizes.length) : (indices.mapM fun index => do
      let size ← read sizes index
      Except.ok (i32 size)) = .ok (indices.map fun index => i32 (sizes.getD index.toNat 0)) := by
  induction indices with
  | nil => rfl
  | cons index rest ih =>
    obtain ⟨⟨ge, below⟩, later⟩ := forall_mem_cons.mp lt
    have room : index.toNat < sizes.length := by omega
    have got : sizes[index.toNat]? = some (sizes.getD index.toNat 0) := by
      rw [getD_eq_getElem _ _ room, getElem?_eq_getElem room]
    have first := read_ok got
    rw [Int.toNat_of_nonneg ge] at first
    rw [mapM_cons, ih later, first]
    rfl

theorem simplifyTranspose_ok {shape : TensorShape} {ints : List Int} {perm : List Nat}
    {sizes map : List Int} (isPerm : perm.Perm (range sizes.length))
    (mergedDims : mergeDims shape ints = .ok (sizes, map))
    (inverse : ∀ d < sizes.length, map[d]? = some (perm.idxOf d : Int)) :
    simplifyTranspose shape ints = .ok
        { inputShape := remaining sizes
          outputShape := (remaining (perm.map (renumbered sizes))).map fun index =>
            i32 ((remaining sizes).getD index.toNat 0)
          permutations := remaining (perm.map (renumbered sizes)) } := by
  obtain ⟨s, folded, inputs, permutations⟩ := shiftDims_ok isPerm inverse
  obtain ⟨shifted, shift, shiftedAll, isShifted⟩ :=
    shiftPermutations_ok (perm.map (renumbered sizes))
  have lt : ∀ index ∈ remaining (perm.map (renumbered sizes)),
      0 ≤ index ∧ index < (remaining sizes).length := by
    intro index mem
    obtain ⟨mapped, kept⟩ := mem_filter.mp mem
    obtain ⟨d, isDim, rfl⟩ := mem_map.mp mapped
    exact renumbered_bounds (mem_range.mp (isPerm.mem_iff.mp isDim)) (by simpa using kept)
  have shapes := outputShape_ok lt
  unfold simplifyTranspose
  rw [mergedDims]
  simp only [bind, Except.bind, folded, inputs, permutations, shiftedAll, isShifted] at shapes ⊢
  rw [shapes]

end TfDml.Transpose
