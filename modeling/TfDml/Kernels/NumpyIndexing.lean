import TfDml.Kernels.SlicePositions
import TfDml.Lib.BasicIndexing
import Mathlib.Data.List.ReduceOption

/-! # Strided slices as basic indexing

The begins, the ends, the strides and the five masks of a strided slice spell an index
with an entry for each position. What `ValidateStridedSliceOp` makes of them takes the
elements that the index selects.
-/

namespace TfDml.StridedSlice

open Lib.BasicIndexing List Option

section Meaning

variable (beginTensor endTensor stridesTensor : IndexTensor w) (masks : Attributes)

/-- Vectors with one entry for each position, of which there are fewer than bits in a mask. -/
structure WellFormed : Prop where
  vectors : beginTensor.isVector ∧ endTensor.isVector ∧ stridesTensor.isVector
  begins : beginTensor.numElements = stridesTensor.numElements
  ends : endTensor.numElements = stridesTensor.numElements
  few : stridesTensor.numElements < 32

def numpyEntry (i : Nat) : Entry :=
  if inMask masks.ellipsisMask i then .ellipsis
  else if inMask masks.newAxisMask i then .newAxis
  else if inMask masks.shrinkAxisMask i then .index (beginTensor.flat i)
  else
    .slice (if inMask masks.beginMask i then none else some (beginTensor.flat i))
      (if inMask masks.endMask i then none else some (endTensor.flat i)) (stridesTensor.flat i)

def numpyIndex : List Entry :=
  (range stridesTensor.numElements).map (numpyEntry beginTensor endTensor stridesTensor masks)

/-- The strides of the integers, which select the same element with any stride, are positive. -/
def IntegersForward : Prop :=
  ∀ i < stridesTensor.numElements, ∀ x,
    numpyEntry beginTensor endTensor stridesTensor masks i = .index x → 0 < stridesTensor.flat i

end Meaning

def ProcessingDim.positions (d : ProcessingDim) : List Int :=
  (range d.size).map fun k : Nat => d.begin_ + (k : Int) * d.stride

theorem inMask_eq_getLsbD (mask : BitVec 32) (i : Nat) : inMask mask i = mask.getLsbD (i % 32) := by
  have lt : i % 32 < 32 := Nat.mod_lt i (by decide)
  have isPow : bit i = BitVec.twoPow 32 (i % 32) := rfl
  rw [inMask, isPow, BitVec.and_comm, BitVec.and_twoPow]
  cases is : mask.getLsbD (i % 32) with
  | false => rfl
  | true =>
    simp only [if_true, bne_iff_ne, ne_eq]
    intro zero
    have set := congrArg (fun m => m.getLsbD (i % 32)) zero
    simp [lt] at set

theorem inMask_or_bit (mask : BitVec 32) {i j : Nat} (first : i < 32) (snd : j < 32) :
    inMask (mask ||| bit i) j = (inMask mask j || i == j) := by
  have isPow : bit i = BitVec.twoPow 32 i := by rw [bit, Nat.mod_eq_of_lt first, BitVec.twoPow_eq]
  rw [inMask_eq_getLsbD, inMask_eq_getLsbD, Nat.mod_eq_of_lt snd, BitVec.getLsbD_or, isPow,
    BitVec.getLsbD_twoPow, decide_eq_true first, Bool.true_and]
  rfl

structure DenseEntry where
  begin_ : Int
  end_ : Int
  stride : Int
  beginMasked : Bool
  endMasked : Bool
  shrink : Bool

def DenseEntry.implicit : DenseEntry := ⟨0, 0, 1, true, true, false⟩

namespace StridedSliceDenseSpec

def entry (dense : StridedSliceDenseSpec) (i : Nat) : DenseEntry where
  begin_ := dense.begin_.getD i 0
  end_ := dense.end_.getD i 0
  stride := dense.strides.getD i 0
  beginMasked := inMask dense.beginMask i
  endMasked := inMask dense.endMask i
  shrink := inMask dense.shrinkAxisMask i

def insert (dense : StridedSliceDenseSpec) (e : DenseEntry) (i : Nat) : StridedSliceDenseSpec :=
  { dense with
    begin_ := dense.begin_.set i e.begin_
    end_ := dense.end_.set i e.end_
    strides := dense.strides.set i e.stride
    beginMask := if e.beginMasked then dense.beginMask ||| bit i else dense.beginMask
    endMask := if e.endMasked then dense.endMask ||| bit i else dense.endMask
    shrinkAxisMask := if e.shrink then dense.shrinkAxisMask ||| bit i else dense.shrinkAxisMask
    finalShapeGatherIndices :=
      dense.finalShapeGatherIndices ++ [if e.shrink then kShrinkAxis else (i : Int)] }

end StridedSliceDenseSpec

/-- The first entries of the dense specification are those of `done`; the others have not been
    written yet. -/
structure Filled (dense : StridedSliceDenseSpec) (done : List DenseEntry) : Prop where
  sizes : dense.begin_.length = dense.dims ∧ dense.end_.length = dense.dims ∧
    dense.strides.length = dense.dims
  entries : ∀ j (inside : j < done.length), dense.entry j = done[j]
  unset : ∀ j < 32, done.length ≤ j → inMask dense.beginMask j = false ∧
    inMask dense.endMask j = false ∧ inMask dense.shrinkAxisMask j = false

theorem filled_empty (dims : Nat) : Filled (.empty dims) [] where
  sizes := by simp [StridedSliceDenseSpec.empty]
  entries := by simp
  unset := fun j _ _ => by
    have zero : inMask 0 j = false := by simp [inMask]
    exact ⟨zero, zero, zero⟩

theorem inMask_ite_or_bit (mask : BitVec 32) {i j : Nat} (masked : Bool) (first : i < 32)
    (snd : j < 32) :
    inMask (if masked then mask ||| bit i else mask) j = (inMask mask j || (masked && i == j)) := by
  cases masked with
  | true => rw [if_pos rfl, inMask_or_bit mask first snd, Bool.true_and]
  | false => simp

theorem Filled.insert {dense : StridedSliceDenseSpec} {done : List DenseEntry}
    (filled : Filled dense done) (room : done.length < dense.dims) (small : dense.dims ≤ 32)
    (e : DenseEntry) : Filled (dense.insert e done.length) (done ++ [e]) := by
  obtain ⟨begins, ends, strides⟩ := filled.sizes
  have first : done.length < 32 := by omega
  constructor
  · simp [StridedSliceDenseSpec.insert, begins, ends, strides]
  · intro j lt
    rw [length_append, length_singleton] at lt
    simp only [StridedSliceDenseSpec.entry, StridedSliceDenseSpec.insert, getD_eq_getElem?_getD,
      getElem?_set, inMask_ite_or_bit _ _ first (by omega : j < 32)]
    by_cases last : done.length = j
    · obtain ⟨b, n, s⟩ := filled.unset j (by omega) (by omega)
      subst last
      simp [begins, ends, strides, room, b, n, s]
    · have pre := filled.entries j (by omega)
      simp only [StridedSliceDenseSpec.entry, getD_eq_getElem?_getD] at pre
      simp [last, getElem_append_left (by omega : j < done.length), ← pre]
  · intro j snd later
    rw [length_append, length_singleton] at later
    obtain ⟨b, n, s⟩ := filled.unset j snd (by omega)
    have other : (done.length == j) = false := by
      rw [beq_eq_false_iff_ne]
      omega
    simp [StridedSliceDenseSpec.insert, inMask_ite_or_bit _ _ first snd, b, n, s, other]

inductive SparseEntry where
  | ellipsis
  | newAxis
  | dimension (e : DenseEntry)

def SparseEntry.takesDim : SparseEntry → Bool
  | .ellipsis | .newAxis => false
  | .dimension _ => true

def StridedSliceSparseSpec.entry (sparse : StridedSliceSparseSpec w) (i : Nat) : SparseEntry :=
  if inMask sparse.masks.ellipsisMask i then .ellipsis
  else if inMask sparse.masks.newAxisMask i then .newAxis
  else
    .dimension
      { begin_ := sparse.beginTensor.flat i
        end_ := sparse.endTensor.flat i
        stride := sparse.stridesTensor.flat i
        beginMasked := inMask sparse.masks.beginMask i
        endMasked := inMask sparse.masks.endMask i
        shrink := inMask sparse.masks.shrinkAxisMask i }

/-- The entries after expansion: `none` is a new axis. `left` dimensions of the input are left. -/
def expandEntries (left : Nat) : List SparseEntry → Option (List (Option DenseEntry))
  | [] => some []
  | .ellipsis :: rest =>
    let n := left - rest.countP SparseEntry.takesDim
    (expandEntries (left - n) rest).map (replicate n (some .implicit) ++ ·)
  | .newAxis :: rest => (expandEntries left rest).map (none :: ·)
  | .dimension e :: rest =>
    if left = 0 then none else (expandEntries (left - 1) rest).map (some e :: ·)

def fill (state : StridedSliceDenseSpec × Nat) : Option DenseEntry → StridedSliceDenseSpec × Nat
  | none =>
    ({ state.1 with finalShapeGatherIndices := state.1.finalShapeGatherIndices ++ [kNewAxis] },
      state.2)
  | some e => (state.1.insert e state.2, state.2 + 1)

theorem foldl_addImplicit (dense : StridedSliceDenseSpec) (i n : Nat) :
    ((range' i n).foldl .addImplicit dense, i + n) =
      (replicate n (some DenseEntry.implicit)).foldl fill (dense, i) := by
  induction n generalizing dense i with
  | zero => rfl
  | succ n ih =>
    rw [range'_succ, foldl_cons, replicate_succ, foldl_cons, fill, ← ih, Nat.add_right_comm]
    rfl

def EllipsisCounted (sparse : StridedSliceSparseSpec w) : Prop :=
  ∀ i k, i + (k + 1) = sparse.dims → sparse.entry i = .ellipsis → sparse.numAddAxisAfterEllipsis +
      ((range' (i + 1) k).map sparse.entry).countP SparseEntry.takesDim = k

section Loop

variable {sparse : StridedSliceSparseSpec w} {dense : StridedSliceDenseSpec} {fullIndex i : Nat}

theorem addSparse_ellipsis {k : Nat} (counted : EllipsisCounted sparse)
    (lt : i + (k + 1) = sparse.dims) (is : sparse.entry i = .ellipsis) :
    addSparse sparse (dense, fullIndex) i = .ok ((replicate (dense.dims - fullIndex -
        ((range' (i + 1) k).map sparse.entry).countP SparseEntry.takesDim)
          (some DenseEntry.implicit)).foldl fill (dense, fullIndex)) := by
  have total := counted i k lt is
  have masked : inMask sparse.masks.ellipsisMask i = true := by
    by_contra other
    simp only [StridedSliceSparseSpec.entry, if_neg other] at is
    split at is <;> cases is
  generalize ((range' (i + 1) k).map sparse.entry).countP SparseEntry.takesDim = taken
    at total ⊢
  have added : (min ((dense.dims : Int) - (sparse.dims - i) + 1 + sparse.numAddAxisAfterEllipsis)
      dense.dims).toNat - fullIndex = dense.dims - fullIndex - taken := by
    omega
  simp only [addSparse, if_pos masked]
  rw [added, foldl_addImplicit]

theorem addSparse_newAxis (is : sparse.entry i = .newAxis) :
    addSparse sparse (dense, fullIndex) i = .ok (fill (dense, fullIndex) none) := by
  unfold StridedSliceSparseSpec.entry at is
  split at is
  · cases is
  · rename_i notEllipsis
    split at is
    · rename_i masked
      simp only [addSparse, if_neg notEllipsis, if_pos masked]
      rfl
    · cases is

theorem addSparse_dimension {e : DenseEntry} (is : sparse.entry i = .dimension e)
    (state : StridedSliceDenseSpec × Nat) : addSparse sparse (dense, fullIndex) i = .ok state ↔
      fullIndex ≠ dense.begin_.length ∧ fill (dense, fullIndex) (some e) = state := by
  unfold StridedSliceSparseSpec.entry at is
  split at is
  · cases is
  · rename_i notEllipsis
    split at is
    · cases is
    · rename_i notNewAxis
      injection is with is
      subst is
      simp only [addSparse, if_neg notEllipsis, if_neg notNewAxis, bind_eq_ok, opRequires_eq_ok,
        bne_iff_ne, Except.ok.injEq]
      constructor
      · rintro ⟨-, room, same⟩
        exact ⟨room, same⟩
      · rintro ⟨room, same⟩
        exact ⟨(), room, same⟩

theorem foldl_fill_sizes (l : List (Option DenseEntry)) (dense : StridedSliceDenseSpec)
    (fullIndex : Nat) : (l.foldl fill (dense, fullIndex)).1.dims = dense.dims ∧
      (l.foldl fill (dense, fullIndex)).1.begin_.length = dense.begin_.length ∧
      (l.foldl fill (dense, fullIndex)).2 = fullIndex + l.reduceOption.length := by
  induction l generalizing dense fullIndex with
  | nil => exact ⟨rfl, rfl, rfl⟩
  | cons slot rest ih =>
    rw [foldl_cons]
    cases slot with
    | none => exact ih _ _
    | some e =>
      obtain ⟨dims, begins, index⟩ := ih (dense.insert e fullIndex) (fullIndex + 1)
      refine ⟨dims, begins.trans (length_set ..), ?_⟩
      rw [reduceOption_cons_of_some, length_cons]
      exact index.trans (by omega)

theorem foldlM_addSparse {k : Nat} (counted : EllipsisCounted sparse)
    (lt : i + k = sparse.dims) (size : dense.begin_.length = dense.dims)
    (room : fullIndex ≤ dense.dims) {state : StridedSliceDenseSpec × Nat} :
    (range' i k).foldlM (addSparse sparse) (dense, fullIndex) = .ok state ↔
      ∃ l, expandEntries (dense.dims - fullIndex) ((range' i k).map sparse.entry) = some l ∧
        l.foldl fill (dense, fullIndex) = state := by
  induction k generalizing i dense fullIndex with
  | zero => simp [expandEntries, pure, Except.pure]
  | succ k ih =>
    rw [range'_succ, foldlM_cons, map_cons]
    have next : i + 1 + k = sparse.dims := by omega
    cases is : sparse.entry i with
    | ellipsis =>
      rw [addSparse_ellipsis counted lt is]
      simp only [expandEntries, map_eq_some_iff]
      generalize ((range' (i + 1) k).map sparse.entry).countP SparseEntry.takesDim = taken
      obtain ⟨dims, begins, index⟩ := foldl_fill_sizes
        (replicate (dense.dims - fullIndex - taken) (some DenseEntry.implicit)) dense
        fullIndex
      have added : (replicate (dense.dims - fullIndex - taken)
          (some DenseEntry.implicit)).reduceOption.length = dense.dims - fullIndex - taken := by
        simp [reduceOption]
      rw [added] at index
      refine (ih next (begins.trans (size.trans dims.symm)) (by omega)).trans ?_
      have left : dense.dims - (fullIndex + (dense.dims - fullIndex - taken)) =
          dense.dims - fullIndex - (dense.dims - fullIndex - taken) := by
        omega
      rw [dims, index, left]
      constructor
      · rintro ⟨l, got, rfl⟩
        exact ⟨_, ⟨l, got, rfl⟩, by rw [foldl_append, ← index]⟩
      · rintro ⟨-, ⟨l, got, rfl⟩, same⟩
        refine ⟨l, got, ?_⟩
        rw [← same, foldl_append, ← index]
    | newAxis =>
      rw [addSparse_newAxis is]
      simp only [expandEntries, map_eq_some_iff]
      have sizes : (fill (dense, fullIndex) none).1.begin_.length =
          (fill (dense, fullIndex) none).1.dims := size
      refine (ih next sizes room).trans ?_
      constructor
      · rintro ⟨l, got, rfl⟩
        exact ⟨_, ⟨l, got, rfl⟩, rfl⟩
      · rintro ⟨-, ⟨l, got, rfl⟩, same⟩
        exact ⟨l, got, same⟩
    | dimension e =>
      rw [bind_eq_ok]
      simp only [expandEntries, addSparse_dimension is, size]
      by_cases full : dense.dims - fullIndex = 0
      · rw [if_pos full]
        constructor
        · rintro ⟨-, ⟨notFull, -⟩, -⟩
          omega
        · rintro ⟨l, none_, -⟩
          cases none_
      · have sizes : (fill (dense, fullIndex) (some e)).1.begin_.length =
            (fill (dense, fullIndex) (some e)).1.dims := by
          simp [fill, StridedSliceDenseSpec.insert, size]
        have inner := ih next sizes
          (Nat.lt_of_not_le fun none_ => full (Nat.sub_eq_zero_of_le none_))
        rw [if_neg full]
        simp only [map_eq_some_iff]
        constructor
        · rintro ⟨-, ⟨-, rfl⟩, rest⟩
          obtain ⟨l, got, same⟩ := inner.mp rest
          exact ⟨_, ⟨l, got, rfl⟩, same⟩
        · rintro ⟨-, ⟨l, got, rfl⟩, same⟩
          exact ⟨_, ⟨by omega, rfl⟩, inner.mpr ⟨l, got, same⟩⟩

end Loop

/-- `final_shape_gather_indices`, from dimension `i` of the input on. -/
def gatherIndices (i : Nat) : List (Option DenseEntry) → List Int
  | [] => []
  | none :: rest => kNewAxis :: gatherIndices i rest
  | some e :: rest => (if e.shrink then kShrinkAxis else (i : Int)) :: gatherIndices (i + 1) rest

theorem filled_foldl {l : List (Option DenseEntry)} {dense : StridedSliceDenseSpec}
    {done : List DenseEntry} (filled : Filled dense done) (lt : dense.dims ≤ 32)
    (room : done.length + l.reduceOption.length ≤ dense.dims) :
    Filled (l.foldl fill (dense, done.length)).1 (done ++ l.reduceOption) ∧
      (l.foldl fill (dense, done.length)).1.finalShapeGatherIndices =
        dense.finalShapeGatherIndices ++ gatherIndices done.length l := by
  induction l generalizing dense done with
  | nil => exact ⟨by simpa using filled, by simp [gatherIndices]⟩
  | cons slot rest ih =>
    cases slot with
    | none =>
      rw [reduceOption_cons_of_none] at room ⊢
      have pushed : Filled (fill (dense, done.length) none).1 done :=
        ⟨filled.sizes, filled.entries, filled.unset⟩
      obtain ⟨later, indices⟩ := ih pushed lt room
      refine ⟨later, indices.trans ?_⟩
      simp [fill, gatherIndices]
    | some e =>
      rw [reduceOption_cons_of_some, length_cons] at room
      have next := filled.insert (by omega) lt e
      have length : (done ++ [e]).length = done.length + 1 := by simp
      have more : (done ++ [e]).length + rest.reduceOption.length ≤ dense.dims := by omega
      obtain ⟨later, indices⟩ := ih next lt more
      rw [length] at later indices
      rw [append_assoc] at later
      refine ⟨later, indices.trans ?_⟩
      simp [StridedSliceDenseSpec.insert, gatherIndices]

theorem expandEntries_reduceOption {left : Nat} {raw : List SparseEntry}
    {l : List (Option DenseEntry)} (noEllipsis : .ellipsis ∉ raw)
    (expanded : expandEntries left raw = some l) :
    l.reduceOption.length = raw.countP SparseEntry.takesDim ∧
      raw.countP SparseEntry.takesDim ≤ left := by
  induction raw generalizing left l with
  | nil =>
    obtain rfl := some.inj expanded
    simp
  | cons entry rest ih =>
    rw [mem_cons, not_or] at noEllipsis
    cases entry with
    | ellipsis => exact absurd rfl noEllipsis.1
    | newAxis =>
      simp only [expandEntries, map_eq_some_iff] at expanded
      obtain ⟨l, expanded, rfl⟩ := expanded
      rw [reduceOption_cons_of_none, countP_cons_of_neg (by simp [SparseEntry.takesDim])]
      exact ih noEllipsis.2 expanded
    | dimension e =>
      simp only [expandEntries] at expanded
      split at expanded
      · cases expanded
      · simp only [map_eq_some_iff] at expanded
        obtain ⟨l, expanded, rfl⟩ := expanded
        rw [reduceOption_cons_of_some, countP_cons_of_pos rfl, length_cons]
        have inner := ih noEllipsis.2 expanded
        omega

theorem expandEntries_whole {left : Nat} {pre after : List SparseEntry}
    {l : List (Option DenseEntry)} (noneBefore : .ellipsis ∉ pre) (noneAfter : .ellipsis ∉ after)
    (expanded : expandEntries left (pre ++ .ellipsis :: after) = some l) :
    l.reduceOption.length = left := by
  induction pre generalizing left l with
  | nil =>
    simp only [nil_append, expandEntries, map_eq_some_iff] at expanded
    obtain ⟨l, expanded, rfl⟩ := expanded
    obtain ⟨length, lt⟩ := expandEntries_reduceOption noneAfter expanded
    rw [reduceOption_append, length_append, length]
    have implicit : ∀ n, (replicate n (some DenseEntry.implicit)).reduceOption.length = n := by
      simp [reduceOption]
    rw [implicit]
    omega
  | cons entry rest ih =>
    rw [mem_cons, not_or] at noneBefore
    cases entry with
    | ellipsis => exact absurd rfl noneBefore.1
    | newAxis =>
      simp only [cons_append, expandEntries, map_eq_some_iff] at expanded
      obtain ⟨l, expanded, rfl⟩ := expanded
      rw [reduceOption_cons_of_none]
      exact ih noneBefore.2 expanded
    | dimension e =>
      simp only [cons_append, expandEntries] at expanded
      split at expanded
      · cases expanded
      · simp only [map_eq_some_iff] at expanded
        obtain ⟨l, expanded, rfl⟩ := expanded
        rw [reduceOption_cons_of_some, length_cons, ih noneBefore.2 expanded]
        omega

/-- The entry of an index that is meant by an entry of the dense specification. -/
def DenseEntry.toEntry (e : DenseEntry) : Entry :=
  if e.shrink then .index e.begin_
  else
    .slice (if e.beginMasked then none else some e.begin_)
      (if e.endMasked then none else some e.end_) e.stride

def slotEntry : Option DenseEntry → Entry
  | none => .newAxis
  | some e => e.toEntry

def SparseEntry.toEntry : SparseEntry → Entry
  | .ellipsis => .ellipsis
  | .newAxis => .newAxis
  | .dimension e => e.toEntry

theorem DenseEntry.toEntry_ne_ellipsis (e : DenseEntry) : e.toEntry ≠ .ellipsis := by
  unfold toEntry
  split <;> simp

theorem SparseEntry.toEntry_eq_ellipsis {entry : SparseEntry} :
    entry.toEntry = .ellipsis ↔ entry = .ellipsis := by
  cases entry with
  | ellipsis => simp [toEntry]
  | newAxis => simp [toEntry]
  | dimension e => simp [toEntry, e.toEntry_ne_ellipsis]

theorem SparseEntry.takesDim_toEntry (entry : SparseEntry) :
    entry.toEntry.takesDim = entry.takesDim := by
  cases entry with
  | ellipsis => rfl
  | newAxis => rfl
  | dimension e =>
    simp only [toEntry, DenseEntry.toEntry]
    split <;> rfl

theorem countP_toEntry (raw : List SparseEntry) :
    (raw.map SparseEntry.toEntry).countP Entry.takesDim = raw.countP SparseEntry.takesDim := by
  rw [countP_map]
  exact countP_congr fun entry _ => by simp [entry.takesDim_toEntry]

theorem ellipsis_mem_toEntry {raw : List SparseEntry} :
    .ellipsis ∈ raw.map SparseEntry.toEntry ↔ .ellipsis ∈ raw := by
  simp [List.mem_map, SparseEntry.toEntry_eq_ellipsis]

theorem indexed_toEntry_bind (e : DenseEntry) {shape : List Nat}
    {rest : List Entry} {later : Option (List (Option DenseEntry))}
    (same : ∀ dim shape', shape = dim :: shape' →
      indexed rest shape' = later.bind fun l => indexed (l.map slotEntry) shape') :
    indexed (e.toEntry :: rest) shape =
      (if shape.length = 0 then none else later.map (some e :: ·)).bind fun l =>
        indexed (l.map slotEntry) shape := by
  cases shape with
  | nil =>
    unfold DenseEntry.toEntry
    split <;> rfl
  | cons dim shape =>
    rw [if_neg (by simp)]
    have inner := same dim shape rfl
    cases later with
    | none =>
      unfold DenseEntry.toEntry
      split
      · simp [indexed, inner]
      · simp [indexed, inner]
    | some l =>
      rw [bind_some] at inner
      simp only [map_some, bind_some, map_cons, slotEntry]
      unfold DenseEntry.toEntry
      split
      · simp [indexed, inner]
      · simp [indexed, inner]

theorem indexed_expandEntries {raw : List SparseEntry} (noEllipsis : .ellipsis ∉ raw)
    (shape : List Nat) : indexed (raw.map SparseEntry.toEntry) shape =
      (expandEntries shape.length raw).bind fun l => indexed (l.map slotEntry) shape := by
  induction raw generalizing shape with
  | nil => rfl
  | cons entry rest ih =>
    rw [mem_cons, not_or] at noEllipsis
    have inner := ih noEllipsis.2
    cases entry with
    | ellipsis => exact absurd rfl noEllipsis.1
    | newAxis =>
      simp only [map_cons, SparseEntry.toEntry, indexed, inner, expandEntries]
      cases expandEntries shape.length rest with
      | none => rfl
      | some l => rfl
    | dimension e =>
      apply indexed_toEntry_bind e
      rintro dim shape' rfl
      exact inner shape'

theorem indexed_expandEntries_ellipsis {pre after : List SparseEntry}
    (noneBefore : .ellipsis ∉ pre) (noneAfter : .ellipsis ∉ after) (shape : List Nat) :
    indexed ((pre ++ .ellipsis :: after).map SparseEntry.toEntry) shape =
      (expandEntries shape.length (pre ++ .ellipsis :: after)).bind fun l =>
        indexed (l.map slotEntry) shape := by
  induction pre generalizing shape with
  | nil =>
    have none_ : .ellipsis ∉ after.map SparseEntry.toEntry :=
      fun mem => noneAfter (ellipsis_mem_toEntry.mp mem)
    simp only [nil_append, map_cons, SparseEntry.toEntry, indexed, if_neg none_,
      expandEntries, countP_toEntry]
    generalize isLeft : shape.length - after.countP SparseEntry.takesDim = n
    rw [indexed_expandEntries noneAfter, length_drop]
    cases expandEntries (shape.length - n) after with
    | none => rfl
    | some l =>
      have implicit : slotEntry (some .implicit) = .slice none none 1 := rfl
      simp only [bind_some, map_some, map_append, map_replicate, implicit]
      rw [indexed_replicate_full _ (by omega)]
  | cons entry rest ih =>
    rw [mem_cons, not_or] at noneBefore
    have inner := ih noneBefore.2
    cases entry with
    | ellipsis => exact absurd rfl noneBefore.1
    | newAxis =>
      simp only [cons_append, map_cons, SparseEntry.toEntry, indexed, inner, expandEntries]
      cases expandEntries shape.length (rest ++ .ellipsis :: after) with
      | none => rfl
      | some l => rfl
    | dimension e =>
      apply indexed_toEntry_bind e
      rintro dim shape' rfl
      exact inner shape'

theorem canonical_eq_slice (stride : Int) (dim : Nat) (masked : Bool) (x : Int) :
    canonical stride dim masked x false = sliceStart dim stride (if masked then none else some x) ∧
      canonical stride dim masked x true =
        sliceStop dim stride (if masked then none else some x) := by
  cases masked with
  | true =>
    simp only [canonical, if_true, sliceStart, sliceStop, validRange, Bool.not_false, Bool.not_true]
    constructor
    · split <;> simp
    · split <;> simp
  | false =>
    simp only [canonical, Bool.false_eq_true, if_false, sliceStart, sliceStop, clip, validRange]
    grind

theorem before_iff_lt_size {d : ProcessingDim} (lt : d.Within) (k : Nat) :
    before d.stride (d.begin_ + (k : Int) * d.stride) d.end_ = true ↔ k < d.size := by
  have steps : ((k * d.stride.natAbs : Nat) : Int) = k * |d.stride| := by
    rw [Int.natCast_mul, Int.natCast_natAbs]
  rcases Nat.eq_zero_or_pos d.size with empty | nonempty
  · have against : ¬ (0 < d.stride ∧ 0 < d.end_ - d.begin_ ∨
        d.stride < 0 ∧ d.end_ - d.begin_ < 0) := by
      intro direction
      have some_ : 0 < processingSize (d.end_ - d.begin_) d.stride := by
        rw [processingSize_of_direction direction]
        exact Nat.add_pos_left one_pos _
      rw [← lt.size] at some_
      omega
    rw [empty, iff_false_right (Nat.not_lt_zero k)]
    rcases Int.lt_or_gt_of_ne lt.stride with down | up
    · rw [abs_of_neg down, Int.mul_neg] at steps
      simp only [before, if_neg (Int.not_lt.mpr (Int.le_of_lt down)), decide_eq_true_eq]
      omega
    · rw [abs_of_pos up] at steps
      simp only [before, if_pos up, decide_eq_true_eq]
      omega
  · have taken := lt.clamped.taken nonempty
    have pos : 0 < d.stride.natAbs := Int.natAbs_pos.mpr lt.stride
    have cut : k ≤ ((d.end_ - d.begin_).natAbs - 1) / d.stride.natAbs ↔
        k * d.stride.natAbs ≤ (d.end_ - d.begin_).natAbs - 1 := Nat.le_div_iff_mul_le pos
    rw [taken.size, Nat.lt_one_add_iff, cut]
    rcases taken.direction with ⟨up, first, long, last⟩ | ⟨down, first, long, last⟩
    · rw [abs_of_pos up] at steps
      simp only [before, if_pos up, decide_eq_true_eq]
      omega
    · rw [abs_of_neg down, Int.mul_neg] at steps
      simp only [before, if_neg (Int.not_lt.mpr (Int.le_of_lt down)), decide_eq_true_eq]
      omega

theorem ProcessingDim.Within.size_le {d : ProcessingDim} (lt : d.Within) : d.size ≤ d.dim := by
  rcases Nat.eq_zero_or_pos d.size with empty | nonempty
  · omega
  · exact (lt.clamped.taken nonempty).size_le

theorem positions_eq_slicePositions {d : ProcessingDim} (within : d.Within)
    {start stop : Option Int} (begins : d.begin_ = sliceStart d.dim d.stride start)
    (ends : d.end_ = sliceStop d.dim d.stride stop) :
    d.positions = slicePositions d.dim start stop d.stride := by
  rw [slicePositions, ← begins, ← ends, ProcessingDim.positions]
  refine (takeWhile_progression _ _ _ within.size_le ?_ ?_).symm
  · exact fun k lt => (before_iff_lt_size within k).mpr lt
  · intro _
    rw [← Bool.not_eq_true, before_iff_lt_size within]
    exact Nat.lt_irrefl _

theorem positions_integer {d : ProcessingDim} (x : Int) (forward : 0 < d.stride)
    (begins : d.begin_ = x) (size : d.size = processingSize 1 d.stride) : d.positions = [x] := by
  have one : d.size = 1 := by
    rw [size, processingSize_of_direction (Or.inl ⟨forward, Int.one_pos⟩)]
    simp
  rw [ProcessingDim.positions, one, begins]
  simp

theorem processingDim_ok_iff {dense : StridedSliceDenseSpec} {i dim : Nat} {d : ProcessingDim}
    {e : DenseEntry} (is : dense.entry i = e) : processingDim dense i dim = .ok d ↔ if e.shrink then
        (0 < e.stride ∧ -(dim : Int) ≤ e.begin_ ∧ e.begin_ < dim) ∧
          .ofInterval dim (if e.begin_ < 0 then dim + e.begin_ else e.begin_)
            ((if e.begin_ < 0 then dim + e.begin_ else e.begin_) + 1) e.stride = d
      else
        e.stride ≠ 0 ∧ .ofInterval dim (canonical e.stride dim e.beginMasked e.begin_ false)
            (canonical e.stride dim e.endMasked e.end_ true) e.stride = d := by
  subst is
  simp only [processingDim, StridedSliceDenseSpec.entry, bind_eq_ok, opRequires_eq_ok,
    decide_eq_true_eq]
  by_cases shrink : inMask dense.shrinkAxisMask i = true
  · simp only [shrink, if_true, Bool.true_and, Bool.not_eq_true', decide_eq_false_iff_not,
      bind_eq_ok, opRequires_eq_ok, Bool.or_eq_false_iff, Except.ok.injEq]
    constructor
    · rintro ⟨-, ne, -, forward, -, lt, same⟩
      exact ⟨by omega, same⟩
    · rintro ⟨lt, same⟩
      exact ⟨(), by omega, (), by omega, (), by omega, same⟩
  · simp only [shrink, Bool.false_eq_true, if_false, Bool.false_and, Bool.not_false,
      Except.ok.injEq]
    constructor
    · rintro ⟨-, ne, -, -, same⟩
      exact ⟨ne, same⟩
    · rintro ⟨ne, same⟩
      exact ⟨(), ne, (), trivial, same⟩

/-- One more dimension, with the positions that are taken of it. -/
def addDim (e : DenseEntry) (positions : List Int) (r : Indexed) : Indexed :=
  if e.shrink then ⟨positions :: r.positions, r.shape⟩ else r.slice positions

section OneDimension

variable {dense : StridedSliceDenseSpec} {i dim : Nat} {e : DenseEntry}

theorem indexed_of_processingDim {d : ProcessingDim} (is : dense.entry i = e)
    (ok : processingDim dense i dim = .ok d) (rest : List Entry) (shape : List Nat) :
    (e.shrink = true → 0 < e.stride) ∧ indexed (e.toEntry :: rest) (dim :: shape) =
        (indexed rest shape).map (addDim e d.positions) := by
  obtain ⟨-, -, lt⟩ := processingDim_ok ok
  rw [processingDim_ok_iff is] at ok
  by_cases shrink : e.shrink = true
  · simp only [shrink, if_true] at ok
    obtain ⟨⟨forward, above, below⟩, rfl⟩ := ok
    refine ⟨fun _ => forward, ?_⟩
    have size : (ProcessingDim.ofInterval dim (if e.begin_ < 0 then dim + e.begin_ else e.begin_)
        ((if e.begin_ < 0 then dim + e.begin_ else e.begin_) + 1) e.stride).size =
          processingSize 1 e.stride := by
      rw [ProcessingDim.ofInterval, add_sub_cancel_left]
    rw [positions_integer _ forward rfl size, DenseEntry.toEntry, if_pos shrink, indexed,
      if_pos ⟨above, below⟩]
    congr 1
    funext r
    rw [addDim, if_pos shrink, Indexed.integer, Int.add_comm e.begin_]
    rfl
  · simp only [shrink, Bool.false_eq_true, if_false] at ok
    obtain ⟨ne, rfl⟩ := ok
    refine ⟨fun is => absurd is shrink, ?_⟩
    rw [positions_eq_slicePositions lt (canonical_eq_slice _ _ _ _).1
      (canonical_eq_slice _ _ _ _).2, DenseEntry.toEntry, if_neg shrink, indexed, if_neg ne]
    congr 1
    funext r
    rw [addDim, if_neg shrink]
    rfl

theorem processingDim_of_indexed {rest : List Entry} {shape : List Nat} {r : Indexed}
    (is : dense.entry i = e) (forward : e.shrink = true → 0 < e.stride)
    (got : indexed (e.toEntry :: rest) (dim :: shape) = some r) :
    ∃ d, processingDim dense i dim = .ok d := by
  simp only [processingDim_ok_iff is]
  unfold DenseEntry.toEntry at got
  by_cases shrink : e.shrink = true
  · rw [if_pos shrink, indexed] at got
    simp only [shrink, if_true]
    by_cases lt : -(dim : Int) ≤ e.begin_ ∧ e.begin_ < dim
    · exact ⟨_, ⟨forward shrink, lt⟩, rfl⟩
    · rw [if_neg lt] at got
      cases got
  · rw [if_neg shrink, indexed] at got
    simp only [shrink, Bool.false_eq_true, if_false]
    by_cases zero : e.stride = 0
    · rw [if_pos zero] at got
      cases got
    · exact ⟨_, zero, rfl⟩

end OneDimension

/-- The dimensions, from dimension `i` of the input on, take what the index selects. -/
structure Selects (i : Nat) (l : List (Option DenseEntry)) (dims : List ProcessingDim)
    (r : Indexed) : Prop where
  positions : dims.map ProcessingDim.positions = r.positions
  shape : ∀ processingShape : TensorShape, processingShape.drop i = dims.map ProcessingDim.size →
      (gatherIndices i l).filterMap (gather processingShape) = r.shape

theorem Selects.addDim {i : Nat} {l : List (Option DenseEntry)} {dims : List ProcessingDim}
    {r : Indexed} (selects : Selects (i + 1) l dims r) (e : DenseEntry) (d : ProcessingDim) :
    Selects i (some e :: l) (d :: dims) (addDim e d.positions r) := by
  constructor
  · rw [map_cons, selects.positions]
    unfold StridedSlice.addDim
    split <;> rfl
  · intro processingShape suffix
    have later : processingShape.drop (i + 1) = dims.map ProcessingDim.size := by
      rw [← tail_drop, suffix]
      rfl
    have size : processingShape.getD i 0 = d.size := by
      have first := congrArg head? suffix
      rw [head?_drop, map_cons, head?_cons] at first
      rw [getD_eq_getElem?_getD, first]
      rfl
    rw [gatherIndices]
    by_cases shrink : e.shrink = true
    · rw [if_pos shrink, filterMap_cons_none (by rfl), selects.shape _ later,
        StridedSlice.addDim, if_pos shrink]
    · have kept : gather processingShape (i : Int) = some d.size := by
        rw [gather, if_pos (Int.natCast_nonneg i), Int.toNat_natCast, size]
      rw [if_neg shrink, filterMap_cons_some kept, selects.shape _ later, StridedSlice.addDim,
        if_neg shrink, Indexed.slice, ProcessingDim.positions, length_map, length_range]

section AllDimensions

variable {dense : StridedSliceDenseSpec} {i : Nat} {l : List (Option DenseEntry)}
  {shape : List Nat}

theorem entries_tail {e : DenseEntry} {done : List DenseEntry}
    (xs : ∀ j (lt : j < (e :: done).length), dense.entry (i + j) = (e :: done)[j]) :
    ∀ j (lt : j < done.length), dense.entry (i + 1 + j) = done[j] := by
  intro j lt
  rw [Nat.add_right_comm]
  exact xs (j + 1) (Nat.succ_lt_succ lt)

theorem selects_of_processingDims {dims : List ProcessingDim}
    (xs : ∀ j (lt : j < l.reduceOption.length), dense.entry (i + j) = l.reduceOption[j])
    (length : l.reduceOption.length = shape.length)
    (ok : processingDims dense i shape = .ok dims) :
    (∀ e ∈ l.reduceOption, e.shrink = true → 0 < e.stride) ∧
      ∃ r, indexed (l.map slotEntry) shape = some r ∧ Selects i l dims r := by
  induction l generalizing i shape dims with
  | nil =>
    obtain rfl := length_eq_zero_iff.mp length.symm
    obtain rfl := Except.ok.inj ok
    exact ⟨by simp, _, rfl, rfl, fun _ _ => rfl⟩
  | cons slot rest ih =>
    cases slot with
    | none =>
      rw [reduceOption_cons_of_none] at length
      simp only [reduceOption_cons_of_none] at xs ⊢
      obtain ⟨forward, r, got, positions, shape_⟩ := ih xs length ok
      refine ⟨forward, r.newAxis, ?_, positions, fun processingShape suffix => ?_⟩
      · rw [map_cons, slotEntry, indexed, got]
        rfl
      · rw [gatherIndices, filterMap_cons_some (by rfl), shape_ _ suffix]
        rfl
    | some e =>
      simp only [reduceOption_cons_of_some] at xs length ⊢
      cases shape with
      | nil => simp at length
      | cons dim shape =>
        simp only [processingDims, bind_eq_ok, Except.ok.injEq] at ok
        obtain ⟨d, made, others, rest_, rfl⟩ := ok
        have first : dense.entry i = e := xs 0 (by simp)
        obtain ⟨forward, r, got, selects⟩ := ih (entries_tail xs) (by simpa using length) rest_
        obtain ⟨firstForward, is⟩ := indexed_of_processingDim first made (rest.map slotEntry) shape
        refine ⟨forall_mem_cons.mpr ⟨firstForward, forward⟩, _, ?_, selects.addDim e d⟩
        rw [map_cons, slotEntry, is, got]
        rfl

theorem processingDims_of_indexed {r : Indexed}
    (xs : ∀ j (lt : j < l.reduceOption.length), dense.entry (i + j) = l.reduceOption[j])
    (length : l.reduceOption.length = shape.length)
    (forward : ∀ e ∈ l.reduceOption, e.shrink = true → 0 < e.stride)
    (got : indexed (l.map slotEntry) shape = some r) :
    ∃ dims, processingDims dense i shape = .ok dims := by
  induction l generalizing i shape r with
  | nil =>
    obtain rfl := length_eq_zero_iff.mp length.symm
    exact ⟨[], rfl⟩
  | cons slot rest ih =>
    cases slot with
    | none =>
      simp only [reduceOption_cons_of_none] at xs length forward
      simp only [map_cons, slotEntry, indexed, map_eq_some_iff] at got
      obtain ⟨r, got, rfl⟩ := got
      exact ih xs length forward got
    | some e =>
      simp only [reduceOption_cons_of_some] at xs length forward
      cases shape with
      | nil => simp at length
      | cons dim shape =>
        have first : dense.entry i = e := xs 0 (by simp)
        obtain ⟨firstForward, laterForward⟩ := forall_mem_cons.mp forward
        obtain ⟨d, made⟩ := processingDim_of_indexed first firstForward got
        have is := (indexed_of_processingDim first made (rest.map slotEntry) shape).2
        rw [map_cons, slotEntry, is, map_eq_some_iff] at got
        obtain ⟨r, got, rfl⟩ := got
        obtain ⟨dims, others⟩ := ih (entries_tail xs) (by simpa using length)
          laterForward got
        refine ⟨d :: dims, ?_⟩
        rw [processingDims, made, others]
        rfl

end AllDimensions

theorem inMask_unique {mask : BitVec 32} (single : mask &&& (mask - 1) = 0) {i j : Nat}
    (first : i < 32) (snd : j < 32) (hasFirst : inMask mask i = true)
    (hasSecond : inMask mask j = true) : i = j := by
  rw [inMask_eq_getLsbD, Nat.mod_eq_of_lt first] at hasFirst
  rw [inMask_eq_getLsbD, Nat.mod_eq_of_lt snd] at hasSecond
  have ne : mask.toNat ≠ 0 := by
    intro zero
    rw [BitVec.getLsbD, zero, Nat.zero_testBit] at hasFirst
    cases hasFirst
  have less : (mask - 1).toNat = mask.toNat - 1 := by bv_omega
  have pow : (mask.toNat &&& (mask.toNat - 1)) = 0 := by
    have both := congrArg BitVec.toNat single
    rw [BitVec.toNat_and, less] at both
    exact both
  obtain ⟨k, isPow⟩ := (Nat.and_sub_one_eq_zero_iff_isPowerOfTwo ne).mp pow
  rw [BitVec.getLsbD, isPow, Nat.testBit_two_pow, decide_eq_true_eq] at hasFirst hasSecond
  exact hasFirst.symm.trans hasSecond

theorem countNewAxes_before (masks : Attributes) {l : List Nat}
    (none_ : ∀ i ∈ l, inMask masks.ellipsisMask i = false) : l.foldl (fun (state : Nat × Bool) i =>
      (if state.2 && inMask masks.newAxisMask i then state.1 + 1 else state.1,
        state.2 || inMask masks.ellipsisMask i)) (0, false) = (0, false) := by
  induction l with
  | nil => rfl
  | cons i rest ih =>
    obtain ⟨first, later⟩ := forall_mem_cons.mp none_
    rw [foldl_cons]
    simp only [first, Bool.false_and, Bool.false_or, Bool.false_eq_true, if_false]
    exact ih later

theorem countNewAxes_after (masks : Attributes) (l : List Nat) (added : Nat) :
    l.foldl (fun (state : Nat × Bool) i =>
      (if state.2 && inMask masks.newAxisMask i then state.1 + 1 else state.1,
        state.2 || inMask masks.ellipsisMask i)) (added, true) =
      (added + l.countP (inMask masks.newAxisMask), true) := by
  induction l generalizing added with
  | nil => rfl
  | cons i rest ih =>
    rw [foldl_cons]
    simp only [Bool.true_and, Bool.true_or]
    rw [ih, countP_cons, Prod.mk.injEq]
    split
    · exact ⟨by omega, rfl⟩
    · exact ⟨by omega, rfl⟩

/-- The ellipsis, the loop and the index agree. -/
structure Expands (sparse : StridedSliceSparseSpec w) (entries : List Entry)
    (forward : Prop) : Prop where
  counted : EllipsisCounted sparse
  split : ∃ before after, (range sparse.dims).map sparse.entry = before ++ .ellipsis :: after ∧
    .ellipsis ∉ before ∧ .ellipsis ∉ after
  index : ∀ shape, indexed (((range sparse.dims).map sparse.entry).map SparseEntry.toEntry)
    shape = indexed entries shape
  forward : forward ↔ ∀ i < sparse.dims, ∀ e, sparse.entry i = .dimension e →
    e.shrink = true → 0 < e.stride

section Whole

variable {beginTensor endTensor stridesTensor : IndexTensor w} {masks : Attributes}

theorem entry_eq_ellipsis {sparse : StridedSliceSparseSpec w} {i : Nat} :
    sparse.entry i = .ellipsis ↔ inMask sparse.masks.ellipsisMask i = true := by
  unfold StridedSliceSparseSpec.entry
  split
  · simp [*]
  · split <;> simp [*]

theorem toEntry_entry (sparse : StridedSliceSparseSpec w) (i : Nat) : (sparse.entry i).toEntry =
      numpyEntry sparse.beginTensor sparse.endTensor sparse.stridesTensor sparse.masks i := by
  unfold StridedSliceSparseSpec.entry numpyEntry
  split
  · rfl
  · split
    · rfl
    · simp only [SparseEntry.toEntry, DenseEntry.toEntry]

theorem dimension_shrink_iff {sparse : StridedSliceSparseSpec w} {i : Nat} :
    (∀ e, sparse.entry i = .dimension e → e.shrink = true → 0 < e.stride) ↔
      ∀ x, numpyEntry sparse.beginTensor sparse.endTensor sparse.stridesTensor sparse.masks i =
        .index x → 0 < sparse.stridesTensor.flat i := by
  unfold StridedSliceSparseSpec.entry numpyEntry
  split
  · simp
  · split
    · simp
    · by_cases shrink : inMask sparse.masks.shrinkAxisMask i = true
      · simp [shrink]
      · simp [shrink]

theorem countP_takesDim (sparse : StridedSliceSparseSpec w) {l : List Nat}
    (none_ : ∀ i ∈ l, inMask sparse.masks.ellipsisMask i = false) :
    l.countP (inMask sparse.masks.newAxisMask) +
      (l.map sparse.entry).countP SparseEntry.takesDim = l.length := by
  induction l with
  | nil => rfl
  | cons i rest ih =>
    obtain ⟨first, later⟩ := forall_mem_cons.mp none_
    have inner := ih later
    rw [map_cons, countP_cons, countP_cons, length_cons, StridedSliceSparseSpec.entry, first]
    cases inMask sparse.masks.newAxisMask i with
    | true =>
      simp only [if_true, Bool.false_eq_true, if_false, SparseEntry.takesDim]
      omega
    | false =>
      simp only [if_true, Bool.false_eq_true, if_false, SparseEntry.takesDim]
      omega

theorem range_split {p n : Nat} (lt : p < n) :
    range n = range p ++ p :: range' (p + 1) (n - (p + 1)) := by
  obtain ⟨k, rfl⟩ := Nat.exists_eq_add_of_le (Nat.succ_le_of_lt lt)
  rw [Nat.add_sub_cancel_left, range_add, range_succ, append_assoc, range'_eq_map_range]
  rfl

theorem countNewAxes_eq {masks : Attributes} {p n : Nat} (lt : p < n)
    (masked : inMask masks.ellipsisMask p = true)
    (others : ∀ i < n, i ≠ p → inMask masks.ellipsisMask i = false) : countNewAxes masks n =
      ((range' (p + 1) (n - (p + 1))).countP (inMask masks.newAxisMask), true) := by
  have pre := countNewAxes_before masks (l := range p) fun i mem => by
    rw [mem_range] at mem
    exact others i (by omega) (by omega)
  have after := countNewAxes_after masks (range' (p + 1) (n - (p + 1))) 0
  rw [zero_add] at after
  unfold countNewAxes
  rw [range_split lt, foldl_append, foldl_cons]
  refine Eq.trans ?_ after
  congr 1
  refine (congrArg (fun state : Nat × Bool =>
    (if state.2 && inMask masks.newAxisMask p then state.1 + 1 else state.1,
      state.2 || inMask masks.ellipsisMask p)) pre).trans ?_
  rw [masked]
  rfl

theorem expands_ellipsis (sparse : StridedSliceSparseSpec w) {p : Nat}
    (lt : p < sparse.dims) (masked : inMask sparse.masks.ellipsisMask p = true)
    (others : ∀ i < sparse.dims, i ≠ p → inMask sparse.masks.ellipsisMask i = false)
    (added : sparse.numAddAxisAfterEllipsis = (countNewAxes sparse.masks sparse.dims).1) :
    EllipsisCounted sparse ∧ ∃ pre after,
      (range sparse.dims).map sparse.entry = pre ++ .ellipsis :: after ∧
        .ellipsis ∉ pre ∧ .ellipsis ∉ after := by
  constructor
  · intro i k size is
    obtain rfl : i = p := by
      by_contra other
      have none_ := others i (by omega) other
      rw [entry_eq_ellipsis.mp is] at none_
      cases none_
    have isRest : sparse.dims - (i + 1) = k := by omega
    rw [added, countNewAxes_eq lt masked others, isRest]
    have total := countP_takesDim sparse (l := range' (i + 1) k) fun j mem => by
      have bounds := mem_range'_1.mp mem
      exact others j (by omega) (by omega)
    rw [total, length_range']
  · refine ⟨_, _, by rw [range_split lt, map_append, map_cons,
      entry_eq_ellipsis.mpr masked], ?_, ?_⟩
    · intro mem
      obtain ⟨i, isIndex, is⟩ := List.mem_map.mp mem
      rw [mem_range] at isIndex
      have none_ := others i (by omega) (by omega)
      rw [entry_eq_ellipsis.mp is] at none_
      cases none_
    · intro mem
      obtain ⟨i, isIndex, is⟩ := List.mem_map.mp mem
      have bounds := mem_range'_1.mp isIndex
      have none_ := others i (by omega) (by omega)
      rw [entry_eq_ellipsis.mp is] at none_
      cases none_

theorem map_toEntry (sparse : StridedSliceSparseSpec w) (l : List Nat) :
    (l.map sparse.entry).map SparseEntry.toEntry =
      l.map (numpyEntry sparse.beginTensor sparse.endTensor sparse.stridesTensor sparse.masks) := by
  rw [List.map_map]
  exact map_congr_left fun i _ => toEntry_entry sparse i

theorem numpyEntry_congr {masks masks' : Attributes} {i : Nat}
    (ellipsis : inMask masks'.ellipsisMask i = inMask masks.ellipsisMask i)
    (same : { masks' with ellipsisMask := masks.ellipsisMask } = masks) :
    numpyEntry beginTensor endTensor stridesTensor masks' i =
      numpyEntry beginTensor endTensor stridesTensor masks i := by
  rw [← same] at ellipsis ⊢
  unfold numpyEntry
  rw [ellipsis]

theorem expands_sparseSpec
    (single : masks.ellipsisMask &&& (masks.ellipsisMask - 1) = 0)
    (few : stridesTensor.numElements < 32) :
    Expands (sparseSpec beginTensor endTensor stridesTensor masks)
      (numpyIndex beginTensor endTensor stridesTensor masks)
      (IntegersForward beginTensor endTensor stridesTensor masks) := by
  by_cases seen : ∃ p < stridesTensor.numElements, inMask masks.ellipsisMask p = true
  · obtain ⟨p, lt, masked⟩ := seen
    have others : ∀ i < stridesTensor.numElements, i ≠ p → inMask masks.ellipsisMask i = false := by
      intro i less other
      rw [← Bool.not_eq_true]
      exact fun is => other (inMask_unique single (by omega) (by omega) is masked)
    have is : sparseSpec beginTensor endTensor stridesTensor masks =
        ⟨stridesTensor.numElements, (countNewAxes masks stridesTensor.numElements).1, beginTensor,
          endTensor, stridesTensor, masks⟩ := by
      simp only [sparseSpec, countNewAxes_eq lt masked others, if_true]
    rw [is]
    obtain ⟨counted, split⟩ := expands_ellipsis
      ⟨stridesTensor.numElements, (countNewAxes masks stridesTensor.numElements).1, beginTensor,
        endTensor, stridesTensor, masks⟩ lt masked others rfl
    refine ⟨counted, split, fun shape => ?_, ?_⟩
    · rw [map_toEntry]
      rfl
    · unfold IntegersForward
      refine forall₂_congr fun i _ => Iff.symm ?_
      exact dimension_shrink_iff
  · have none_ : ∀ i < stridesTensor.numElements, inMask masks.ellipsisMask i = false := by
      intro i less
      rw [← Bool.not_eq_true]
      exact fun is => seen ⟨i, less, is⟩
    generalize isDims : stridesTensor.numElements = n at few none_
    have is : sparseSpec beginTensor endTensor stridesTensor masks =
        ⟨n + 1, 0, beginTensor, endTensor, stridesTensor,
          { masks with ellipsisMask := masks.ellipsisMask ||| bit n }⟩ := by
      have count := countNewAxes_before masks (l := range n)
        fun i mem => none_ i (mem_range.mp mem)
      have count' : countNewAxes masks n = (0, false) := count
      simp only [sparseSpec, isDims, count', Bool.false_eq_true, if_false]
    rw [is]
    have masked : inMask (masks.ellipsisMask ||| bit n) n = true := by
      rw [inMask_or_bit _ few few]
      simp
    have same : ∀ i < n, inMask (masks.ellipsisMask ||| bit n) i = inMask masks.ellipsisMask i := by
      intro i less
      have other : (n == i) = false := by
        rw [beq_eq_false_iff_ne]
        omega
      rw [inMask_or_bit _ few (by omega), other, Bool.or_false]
    have others : ∀ i < n + 1, i ≠ n → inMask (masks.ellipsisMask ||| bit n) i = false := by
      intro i less other
      rw [same i (by omega), none_ i (by omega)]
    have xs : ∀ i < n, numpyEntry beginTensor endTensor stridesTensor
        { masks with ellipsisMask := masks.ellipsisMask ||| bit n } i =
          numpyEntry beginTensor endTensor stridesTensor masks i :=
      fun i less => numpyEntry_congr (same i less) rfl
    obtain ⟨counted, split⟩ := expands_ellipsis
      ⟨n + 1, 0, beginTensor, endTensor, stridesTensor,
        { masks with ellipsisMask := masks.ellipsisMask ||| bit n }⟩ (Nat.lt_succ_self n) masked
      others (by rw [countNewAxes_eq (Nat.lt_succ_self n) masked others, Nat.sub_self]; rfl)
    have last : numpyEntry beginTensor endTensor stridesTensor
        { masks with ellipsisMask := masks.ellipsisMask ||| bit n } n = .ellipsis := by
      rw [numpyEntry, if_pos masked]
    refine ⟨counted, split, fun shape => ?_, ?_⟩
    · have index : (range n).map (numpyEntry beginTensor endTensor stridesTensor
          { masks with ellipsisMask := masks.ellipsisMask ||| bit n }) =
            numpyIndex beginTensor endTensor stridesTensor masks := by
        rw [numpyIndex, isDims]
        exact map_congr_left fun i mem => xs i (mem_range.mp mem)
      rw [map_toEntry, range_succ, map_append, map_singleton, last, index]
      apply indexed_append_ellipsis
      intro mem
      obtain ⟨i, isIndex, isEllipsis⟩ := List.mem_map.mp mem
      have none_ := none_ i (by rw [← isDims]; exact mem_range.mp isIndex)
      unfold numpyEntry at isEllipsis
      rw [none_] at isEllipsis
      grind
    · unfold IntegersForward
      rw [isDims]
      constructor
      · intro forward i (less : i < n + 1)
        refine dimension_shrink_iff.mpr fun x isIndex => ?_
        by_cases isLast : i = n
        · rw [isLast, last] at isIndex
          cases isIndex
        · exact forward i (by omega) x (xs i (by omega) ▸ isIndex)
      · intro forward i less x isIndex
        exact dimension_shrink_iff.mp (forward i (Nat.lt_succ_of_lt less)) x
          ((xs i less).symm ▸ isIndex)

theorem shrink_mem_expandEntries {e : DenseEntry} (shrink : e.shrink = true) {left : Nat}
    {raw : List SparseEntry} {l : List (Option DenseEntry)}
    (expanded : expandEntries left raw = some l) : e ∈ l.reduceOption ↔ .dimension e ∈ raw := by
  rw [reduceOption_mem_iff]
  induction raw generalizing left l with
  | nil =>
    obtain rfl := some.inj expanded
    simp
  | cons entry rest ih =>
    cases entry with
    | ellipsis =>
      simp only [expandEntries, map_eq_some_iff] at expanded
      obtain ⟨l, expanded, rfl⟩ := expanded
      have other : e ≠ .implicit := by
        rintro rfl
        cases shrink
      rw [mem_append, ih expanded, mem_replicate, mem_cons]
      simp [other]
    | newAxis =>
      simp only [expandEntries, map_eq_some_iff] at expanded
      obtain ⟨l, expanded, rfl⟩ := expanded
      rw [mem_cons, ih expanded, mem_cons]
      simp
    | dimension e' =>
      simp only [expandEntries] at expanded
      split at expanded
      · cases expanded
      · simp only [map_eq_some_iff] at expanded
        obtain ⟨l, expanded, rfl⟩ := expanded
        rw [mem_cons, ih expanded, mem_cons]
        simp

theorem forward_iff_expandEntries {sparse : StridedSliceSparseSpec w} {left : Nat}
    {l : List (Option DenseEntry)}
    (expanded : expandEntries left ((range sparse.dims).map sparse.entry) = some l) :
    (∀ i < sparse.dims, ∀ e, sparse.entry i = .dimension e → e.shrink = true → 0 < e.stride) ↔
      ∀ e ∈ l.reduceOption, e.shrink = true → 0 < e.stride := by
  constructor
  · intro forward e mem shrink
    rw [shrink_mem_expandEntries shrink expanded] at mem
    obtain ⟨i, lt, is⟩ := List.mem_map.mp mem
    exact forward i (mem_range.mp lt) e is shrink
  · intro forward i lt e is shrink
    apply forward e _ shrink
    rw [shrink_mem_expandEntries shrink expanded]
    exact List.mem_map.mpr ⟨i, mem_range.mpr lt, is⟩

theorem buildDenseSpec_ok_iff {sparse : StridedSliceSparseSpec w}
    (counted : EllipsisCounted sparse) {rank : Nat} {dense : StridedSliceDenseSpec} :
    buildDenseSpec sparse rank = .ok dense ↔
      ∃ l, expandEntries rank ((range sparse.dims).map sparse.entry) = some l ∧
        (l.foldl fill (.empty rank, 0)).1 = dense := by
  have size : (StridedSliceDenseSpec.empty rank).begin_.length =
      (StridedSliceDenseSpec.empty rank).dims := by simp [StridedSliceDenseSpec.empty]
  have loop : ∀ state, (range' 0 sparse.dims).foldlM (addSparse sparse) (.empty rank, 0) =
      .ok state ↔ _ :=
    fun _ => foldlM_addSparse counted (zero_add sparse.dims) size (Nat.zero_le _)
  simp only [buildDenseSpec, bind_eq_ok, range_eq_range', loop]
  constructor
  · rintro ⟨-, ⟨l, expanded, rfl⟩, same⟩
    exact ⟨l, expanded, Except.ok.inj same⟩
  · rintro ⟨l, expanded, rfl⟩
    exact ⟨_, ⟨l, expanded, rfl⟩, rfl⟩

theorem wellFormed_iff :
    (!((!(beginTensor.isVector && beginTensor.numElements == stridesTensor.numElements)) ||
      (decide (32 ≤ beginTensor.numElements)) ||
      (!(endTensor.isVector && endTensor.numElements == stridesTensor.numElements)) ||
      !stridesTensor.isVector)) = true ↔ WellFormed beginTensor endTensor stridesTensor := by
  simp only [Bool.not_eq_true', Bool.or_eq_false_iff, Bool.not_eq_false', Bool.and_eq_true,
    beq_iff_eq, decide_eq_false_iff_not]
  constructor
  · rintro ⟨⟨⟨⟨begins, size⟩, few⟩, ends, endSize⟩, strides⟩
    exact ⟨⟨begins, ends, strides⟩, size, endSize, by omega⟩
  · rintro ⟨⟨begins, ends, strides⟩, size, endSize, few⟩
    exact ⟨⟨⟨⟨begins, size⟩, by omega⟩, ends, endSize⟩, strides⟩

theorem validateStridedSliceOp_ok_iff {inputShape : TensorShape} {spec : SliceSpec} :
    validateStridedSliceOp beginTensor endTensor stridesTensor inputShape masks = .ok spec ↔
      WellFormed beginTensor endTensor stridesTensor ∧
        masks.ellipsisMask &&& (masks.ellipsisMask - 1) = 0 ∧
        ∃ dense, buildDenseSpec (sparseSpec beginTensor endTensor stridesTensor masks)
            inputShape.length = .ok dense ∧ ∃ dims, processingDims dense 0 inputShape = .ok dims ∧
            (⟨dims, dense.finalShapeGatherIndices.filterMap (gather (dims.map ProcessingDim.size)),
              dims.all ProcessingDim.takeAll, dims.all fun d => d.stride == 1,
              dims.zipIdx.all fun (d, i) => (i == 0 && d.stride == 1) || d.takeAll⟩ : SliceSpec) =
              spec := by
  simp only [validateStridedSliceOp, bind_eq_ok, opRequires_eq_ok, wellFormed_iff, Except.ok.injEq,
    beq_iff_eq]
  constructor
  · rintro ⟨-, wellFormed, -, single, rest⟩
    exact ⟨wellFormed, single, rest⟩
  · rintro ⟨wellFormed, single, rest⟩
    exact ⟨(), wellFormed, (), single, rest⟩

theorem Expands.filled {sparse : StridedSliceSparseSpec w} {xs : List Entry} {forward : Prop}
    (expands : Expands sparse xs forward) {inputShape : TensorShape}
    (rank : inputShape.length ≤ 32) {l : List (Option DenseEntry)}
    (expanded : expandEntries inputShape.length ((range sparse.dims).map sparse.entry) =
      some l) : l.reduceOption.length = inputShape.length ∧
      Filled (l.foldl fill (.empty inputShape.length, 0)).1 l.reduceOption ∧
      (l.foldl fill (.empty inputShape.length, 0)).1.finalShapeGatherIndices = gatherIndices 0 l ∧
      indexed xs inputShape = indexed (l.map slotEntry) inputShape := by
  obtain ⟨pre, after, split, noneBefore, noneAfter⟩ := expands.split
  have index := expands.index inputShape
  rw [split] at expanded index
  have length := expandEntries_whole noneBefore noneAfter expanded
  obtain ⟨filled, indices⟩ := filled_foldl (filled_empty inputShape.length) rank
    (le_of_eq ((zero_add _).trans length))
  refine ⟨length, filled, indices, ?_⟩
  rw [← index, indexed_expandEntries_ellipsis noneBefore noneAfter, expanded]
  rfl

theorem indexed_of_accepted {inputShape : TensorShape} (rank : inputShape.length ≤ 32)
    {spec : SliceSpec}
    (ok : validateStridedSliceOp beginTensor endTensor stridesTensor inputShape masks =
      .ok spec) : WellFormed beginTensor endTensor stridesTensor ∧
      IntegersForward beginTensor endTensor stridesTensor masks ∧
      ∃ r, indexed (numpyIndex beginTensor endTensor stridesTensor masks) inputShape = some r ∧
        spec.dims.map ProcessingDim.positions = r.positions ∧
        spec.processingShape = r.positions.map List.length ∧ spec.finalShape = r.shape := by
  obtain ⟨wellFormed, single, dense, built, dims, made, rfl⟩ := validateStridedSliceOp_ok_iff.mp ok
  have expands : Expands _ (numpyIndex beginTensor endTensor stridesTensor masks) _ :=
    expands_sparseSpec single wellFormed.few
  obtain ⟨l, expanded, rfl⟩ := (buildDenseSpec_ok_iff expands.counted).mp built
  obtain ⟨length, filled, indices, index⟩ := expands.filled rank expanded
  obtain ⟨forward, r, got, selects⟩ := selects_of_processingDims
    (fun j lt => by rw [zero_add]; exact filled.entries j lt) length made
  refine ⟨wellFormed, expands.forward.mpr ((forward_iff_expandEntries expanded).mpr forward), r,
    index.trans got, selects.positions, ?_, ?_⟩
  · rw [← selects.positions, List.map_map]
    apply map_congr_left
    intro d _
    simp [ProcessingDim.positions]
  · rw [indices]
    exact selects.shape _ rfl

theorem accepted_of_indexed {inputShape : TensorShape} (rank : inputShape.length ≤ 32)
    (single : masks.ellipsisMask &&& (masks.ellipsisMask - 1) = 0)
    (wellFormed : WellFormed beginTensor endTensor stridesTensor)
    (forward : IntegersForward beginTensor endTensor stridesTensor masks) {r : Indexed}
    (got : indexed (numpyIndex beginTensor endTensor stridesTensor masks) inputShape = some r) :
    ∃ spec, validateStridedSliceOp beginTensor endTensor stridesTensor inputShape masks =
      .ok spec := by
  have expands : Expands _ (numpyIndex beginTensor endTensor stridesTensor masks)
      (IntegersForward beginTensor endTensor stridesTensor masks) :=
    expands_sparseSpec single wellFormed.few
  obtain ⟨pre, after, split, noneBefore, noneAfter⟩ := expands.split
  have index := expands.index inputShape
  rw [split, indexed_expandEntries_ellipsis noneBefore noneAfter, got, ← split,
    bind_eq_some_iff] at index
  obtain ⟨l, expanded, selected⟩ := index
  obtain ⟨length, filled, -, -⟩ := expands.filled rank expanded
  obtain ⟨dims, made⟩ := processingDims_of_indexed
    (fun j lt => by rw [zero_add]; exact filled.entries j lt) length
    ((forward_iff_expandEntries expanded).mp (expands.forward.mp forward)) selected
  exact ⟨_, validateStridedSliceOp_ok_iff.mpr ⟨wellFormed, single, _,
    (buildDenseSpec_ok_iff expands.counted).mpr ⟨l, expanded, rfl⟩, dims, made, rfl⟩⟩

/-- A strided slice is accepted if it is a basic index of the input and all integers have a
    positive stride. It takes what the index selects. -/
theorem validateStridedSliceOp_iff_numpy {inputShape : TensorShape}
    (rank : inputShape.length ≤ 32)
    (single : masks.ellipsisMask &&& (masks.ellipsisMask - 1) = 0) :
    ((∃ spec, validateStridedSliceOp beginTensor endTensor stridesTensor inputShape masks =
        .ok spec) ↔ WellFormed beginTensor endTensor stridesTensor ∧
        IntegersForward beginTensor endTensor stridesTensor masks ∧
        ∃ r, indexed (numpyIndex beginTensor endTensor stridesTensor masks) inputShape = some r) ∧
      ∀ spec, validateStridedSliceOp beginTensor endTensor stridesTensor inputShape masks =
          .ok spec →
        ∃ r, indexed (numpyIndex beginTensor endTensor stridesTensor masks) inputShape = some r ∧
          spec.dims.map ProcessingDim.positions = r.positions ∧
          spec.processingShape = r.positions.map List.length ∧ spec.finalShape = r.shape := by
  constructor
  · constructor
    · rintro ⟨spec, ok⟩
      obtain ⟨wellFormed, forward, r, got, -⟩ := indexed_of_accepted rank ok
      exact ⟨wellFormed, forward, r, got⟩
    · rintro ⟨wellFormed, forward, r, got⟩
      exact accepted_of_indexed rank single wellFormed forward got
  · intro spec ok
    exact (indexed_of_accepted rank ok).2.2

end Whole

/-- `x[::-2, ..., None, 1]` of a tensor of 5 x 2 x 3 elements. -/
theorem reversedRows_indexed : ∃ spec, validateStridedSliceOp (indexVector [0#64, 0#64, 0#64, 1#64])
        (indexVector [0#64, 0#64, 0#64, 0#64]) (indexVector [-2#64, 0#64, 0#64, 1#64]) [5, 2, 3]
        { beginMask := 1, endMask := 1, ellipsisMask := 2, newAxisMask := 4, shrinkAxisMask := 8 } =
          .ok spec ∧ spec.dims.map ProcessingDim.positions = [[4, 2, 0], [0, 1], [1]] ∧
      spec.processingShape = [3, 2, 1] ∧ spec.finalShape = [3, 2, 1] := by
  have ok : validateStridedSliceOp (indexVector [0#64, 0#64, 0#64, 1#64])
      (indexVector [0#64, 0#64, 0#64, 0#64]) (indexVector [-2#64, 0#64, 0#64, 1#64]) [5, 2, 3]
      { beginMask := 1, endMask := 1, ellipsisMask := 2, newAxisMask := 4, shrinkAxisMask := 8 } =
        .ok _ := rfl
  obtain ⟨r, got, positions, processingShape, finalShape⟩ :=
    (validateStridedSliceOp_iff_numpy (by decide) (by decide)).2 _ ok
  obtain rfl : (⟨[[4, 2, 0], [0, 1], [1]], [3, 2, 1]⟩ : Indexed) = r := some.inj got
  exact ⟨_, ok, positions, processingShape, finalShape⟩

/-- `x[2]` of a vector with six elements is refused with a stride of -1. -/
theorem backwardInteger_refused :
    ¬ ((∃ spec, validateStridedSliceOp (indexVector [2#64]) (indexVector [3#64])
        (indexVector [-1#64]) [6] { shrinkAxisMask := 1 } = .ok spec) ↔
      ∃ r, indexed (numpyIndex (indexVector [2#64]) (indexVector [3#64]) (indexVector [-1#64])
        { shrinkAxisMask := 1 }) [6] = some r) := by
  intro same
  obtain ⟨spec, ok⟩ := same.mpr ⟨⟨[[2]], []⟩, rfl⟩
  have refused : validateStridedSliceOp (indexVector [2#64]) (indexVector [3#64])
      (indexVector [-1#64]) [6] { shrinkAxisMask := 1 } =
        .error (.invalidArgument "only stride 1 allowed on non-range indexing.") := rfl
  cases refused.symm.trans ok

end TfDml.StridedSlice
