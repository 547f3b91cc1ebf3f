import TfDml.Lib.MultiIndex

/-! # Padding of row-major arrays

Each dimension gets elements before and after its own. They are a constant, or mirror the
elements at the edge, with or without the edge itself. An element of the padded array has
a source in every dimension, or is the constant.
-/

namespace TfDml.Lib

open List Option

inductive PaddingMode where
  | constant
  | reflect
  | symmetric
  deriving DecidableEq

structure PadDim where
  size : Nat
  before : Nat
  after : Nat
  deriving DecidableEq

namespace PadDim

def total (d : PadDim) : Nat := d.before + d.size + d.after

def Unpadded (d : PadDim) : Prop := d.before = 0 ∧ d.after = 0

def scale (d : PadDim) (n : Nat) : PadDim := ⟨d.size * n, d.before * n, d.after * n⟩

def Fits (d : PadDim) : PaddingMode → Prop
  | .constant => True
  | .reflect => d.before < d.size ∧ d.after < d.size
  | .symmetric => d.before ≤ d.size ∧ d.after ≤ d.size

/-- Where the element `o` of the padded dimension comes from, if not from the constant. -/
def source (mode : PaddingMode) (d : PadDim) (o : Nat) : Option Nat :=
  if o < d.before then
    match mode with
    | .constant => none
    | .reflect => some (d.before - o)
    | .symmetric => some (d.before - 1 - o)
  else if o < d.before + d.size then some (o - d.before)
  else
    match mode with
    | .constant => none
    | .reflect => some (d.size - 2 - (o - d.before - d.size))
    | .symmetric => some (d.size - 1 - (o - d.before - d.size))

theorem total_scale (d : PadDim) (n : Nat) : (d.scale n).total = d.total * n := by
  simp [total, scale, Nat.add_mul]

variable {mode : PaddingMode} {d : PadDim} {o : Nat}

theorem source_lt (fits : d.Fits mode) {i : Nat} (lt : o < d.total)
    (got : d.source mode o = some i) : i < d.size := by
  rw [total] at lt
  unfold source at got
  split at got
  case isTrue start =>
    cases mode with
    | constant => cases got
    | reflect =>
      obtain rfl := some.inj got
      have enough := fits.1
      omega
    | symmetric =>
      obtain rfl := some.inj got
      have enough := fits.1
      omega
  case isFalse start =>
    split at got
    case isTrue middle =>
      obtain rfl := some.inj got
      omega
    case isFalse middle =>
      cases mode with
      | constant => cases got
      | reflect =>
        obtain rfl := some.inj got
        have enough := fits.2
        omega
      | symmetric =>
        obtain rfl := some.inj got
        have enough := fits.2
        omega

theorem source_of_unpadded (mode : PaddingMode) (unpadded : d.Unpadded) (lt : o < d.size) :
    d.source mode o = some o := by
  have start : d.before = 0 := unpadded.1
  simp [source, start, lt]

theorem source_scale (merges : mode = .constant ∨ d.Unpadded) {n l : Nat} (inBlock : l < n)
    (lt : o < d.total) :
    (d.scale n).source mode (o * n + l) = (d.source mode o).map fun i => i * n + l := by
  rcases merges with rfl | unpadded
  · have start : o * n + l < d.before * n ↔ o < d.before := by
      rw [mul_comm o, mul_comm d.before]
      constructor
      · intro less
        exact Nat.lt_of_mul_lt_mul_left (lt_of_le_of_lt (Nat.le_add_right _ l) less)
      · intro less
        have blocks : n * (o + 1) ≤ n * d.before := Nat.mul_le_mul_left n less
        rw [Nat.mul_succ] at blocks
        omega
    have middle : o * n + l < d.before * n + d.size * n ↔ o < d.before + d.size := by
      rw [← Nat.add_mul, mul_comm o, mul_comm _ n]
      constructor
      · intro less
        exact Nat.lt_of_mul_lt_mul_left (lt_of_le_of_lt (Nat.le_add_right _ l) less)
      · intro less
        have blocks : n * (o + 1) ≤ n * (d.before + d.size) := Nat.mul_le_mul_left n less
        rw [Nat.mul_succ] at blocks
        omega
    simp only [source, scale, start, middle]
    split
    · rfl
    · split
      · have le : d.before * n ≤ o * n := Nat.mul_le_mul_right n (by omega)
        rw [map_some, Nat.sub_mul, Nat.sub_add_comm le]
      · rfl
  · have scaled : (d.scale n).Unpadded := by
      rw [Unpadded, scale, unpadded.1, unpadded.2]
      exact ⟨zero_mul n, zero_mul n⟩
    have inSize : o < d.size := by
      rw [total, unpadded.1, unpadded.2] at lt
      omega
    have inScaled : o * n + l < (d.scale n).size := by
      have blocks : (o + 1) * n ≤ d.size * n := Nat.mul_le_mul_right n inSize
      rw [Nat.succ_mul] at blocks
      simp only [scale]
      omega
    rw [source_of_unpadded mode scaled inScaled, source_of_unpadded mode unpadded inSize, map_some]

end PadDim

/-- The index of the source, if no dimension has the constant. -/
def sourceIndex (mode : PaddingMode) : List PadDim → List Nat → Option (List Nat)
  | d :: rest, o :: index => do
    let i ← d.source mode o
    let inner ← sourceIndex mode rest index
    some (i :: inner)
  | _, _ => some []

/-- The padded array, with what is read from the flat `values`. -/
def padded {α : Type*} (mode : PaddingMode) (dims : List PadDim) (fill : α) (values : List α) :
    List (Option α) :=
  (indices (dims.map PadDim.total)).map fun index =>
    match sourceIndex mode dims index with
    | none => some fill
    | some source => values[flatten (dims.map PadDim.size) source]?

theorem sourceIndex_mem {mode : PaddingMode} {dims : List PadDim} {index src : List Nat}
    (fits : ∀ d ∈ dims, d.Fits mode) (mem : index ∈ indices (dims.map PadDim.total))
    (got : sourceIndex mode dims index = some src) : src ∈ indices (dims.map PadDim.size) := by
  rw [mem_indices] at mem ⊢
  induction dims generalizing index src with
  | nil =>
    cases mem
    obtain rfl := some.inj got
    exact .nil
  | cons d rest ih =>
    obtain ⟨first, later⟩ := forall_mem_cons.mp fits
    cases mem with
    | cons less lt =>
      simp only [sourceIndex, bind_eq_bind, bind_eq_some_iff] at got
      obtain ⟨i, isSource, inner, isInner, same⟩ := got
      obtain rfl := some.inj same
      exact .cons (PadDim.source_lt first less isSource) (ih later lt isInner)

variable {α : Type*} {mode : PaddingMode} {dims : List PadDim}

theorem isSome_of_mem_padded (fits : ∀ d ∈ dims, d.Fits mode) {fill : α} {values : List α}
    (length : values.length = (dims.map PadDim.size).prod) {x : Option α}
    (mem : x ∈ padded mode dims fill values) : x.isSome = true := by
  obtain ⟨index, lt, rfl⟩ := List.mem_map.mp mem
  cases got : sourceIndex mode dims index with
  | none => rfl
  | some src =>
    have below := flatten_lt (sourceIndex_mem fits lt got)
    simp [length, below]

theorem length_padded (mode : PaddingMode) (dims : List PadDim) (fill : α) (values : List α) :
    (padded mode dims fill values).length = (dims.map PadDim.total).prod := by
  rw [padded, length_map, length_indices]

variable {index : List Nat} {d : PadDim}

theorem sourceIndex_of_empty (mem : d ∈ dims) (empty : d.size = 0)
    (length : index.length = dims.length) : sourceIndex .constant dims index = none := by
  induction dims generalizing index with
  | nil => simp at mem
  | cons first rest ih =>
    cases index with
    | nil => simp at length
    | cons o index =>
      rw [sourceIndex]
      cases mem_cons.mp mem with
      | inl here =>
        subst here
        have none : d.source .constant o = none := by simp [PadDim.source, empty]
        simp [none]
      | inr later =>
        rw [ih later (by simpa using length)]
        cases first.source .constant o with
        | none => rfl
        | some i => rfl

theorem padded_of_empty (mem : d ∈ dims) (empty : d.size = 0) (fill : α) (values : List α) :
    padded .constant dims fill values =
      List.replicate (dims.map PadDim.total).prod (some fill) := by
  refine eq_replicate_iff.mpr ⟨length_padded _ dims fill values, fun x inPadded => ?_⟩
  obtain ⟨index, lt, rfl⟩ := List.mem_map.mp inPadded
  have length := (mem_indices.mp lt).length_eq
  rw [length_map] at length
  rw [sourceIndex_of_empty mem empty length]

theorem sourceIndex_of_unpadded (unpadded : ∀ d ∈ dims, d.Unpadded)
    (mem : index ∈ indices (dims.map PadDim.size)) : sourceIndex mode dims index = some index := by
  rw [mem_indices] at mem
  induction dims generalizing index with
  | nil =>
    cases mem
    rfl
  | cons d rest ih =>
    obtain ⟨first, later⟩ := forall_mem_cons.mp unpadded
    cases mem with
    | cons less lt =>
      rw [sourceIndex, PadDim.source_of_unpadded mode first less, ih later lt]
      rfl

def sources (mode : PaddingMode) : List PadDim → List (Option Nat)
  | [] => [some 0]
  | d :: rest =>
    (List.range d.total).flatMap fun o =>
      (sources mode rest).map fun inner => do
        let i ← d.source mode o
        let p ← inner
        some (i * (rest.map PadDim.size).prod + p)

theorem map_sourceIndex_indices (mode : PaddingMode) (dims : List PadDim) :
    ((indices (dims.map PadDim.total)).map fun index =>
      (sourceIndex mode dims index).map (flatten (dims.map PadDim.size))) = sources mode dims := by
  induction dims with
  | nil => rfl
  | cons d rest ih =>
    rw [sources, ← ih, map_cons, map_cons, indices, map_flatMap]
    apply flatMap_congr
    intro o _
    rw [List.map_map, List.map_map]
    apply map_congr_left
    intro index _
    simp only [Function.comp_apply, sourceIndex]
    cases d.source mode o with
    | none => rfl
    | some i =>
      cases sourceIndex mode rest index with
      | none => rfl
      | some inner => rfl

theorem padded_eq_sources (mode : PaddingMode) (dims : List PadDim) (fill : α) (values : List α) :
    padded mode dims fill values = (sources mode dims).map fun src =>
      match src with
      | none => some fill
      | some p => values[p]? := by
  rw [padded, ← map_sourceIndex_indices, List.map_map]
  apply map_congr_left
  intro index _
  rw [Function.comp_apply]
  cases sourceIndex mode dims index with
  | none => rfl
  | some src => rfl

theorem padded_congr {dims' : List PadDim} (same : sources mode dims = sources mode dims')
    (fill : α) (values : List α) :
    padded mode dims fill values = padded mode dims' fill values := by
  rw [padded_eq_sources, padded_eq_sources, same]

theorem sources_cons_congr (d : PadDim) {rest rest' : List PadDim}
    (same : sources mode rest = sources mode rest')
    (sizes : (rest.map PadDim.size).prod = (rest'.map PadDim.size).prod) :
    sources mode (d :: rest) = sources mode (d :: rest') := by
  rw [sources, sources, same, sizes]

theorem sources_replicate_trivial (mode : PaddingMode) (n : Nat) (dims : List PadDim) :
    sources mode (List.replicate n ⟨1, 0, 0⟩ ++ dims) = sources mode dims := by
  induction n with
  | zero => rfl
  | succ n ih =>
    have one : (⟨1, 0, 0⟩ : PadDim).total = 1 := rfl
    have src : (⟨1, 0, 0⟩ : PadDim).source mode 0 = some 0 :=
      PadDim.source_of_unpadded mode ⟨rfl, rfl⟩ one_pos
    rw [replicate_succ, cons_append, sources, one, range_one, flatMap_singleton, ih, src]
    simp

theorem sources_merge {e : PadDim} (rest : List PadDim) (merges : mode = .constant ∨ d.Unpadded)
    (unpadded : e.Unpadded) :
    sources mode (d :: e :: rest) = sources mode (d.scale e.size :: rest) := by
  have inner : e.total = e.size := by rw [PadDim.total, unpadded.1, unpadded.2, zero_add, add_zero]
  -- What a place in the merged dimension reads, with the place among the dimensions inside.
  let read (place inside : Option Nat) : Option Nat := do
    let i ← place
    let p ← inside
    some (i * (rest.map PadDim.size).prod + p)
  have merged := flatMap_range_mul d.total e.size
    (fun o l => (sources mode rest).map (read ((d.source mode o).map fun i => i * e.size + l)))
    (fun k => (sources mode rest).map (read ((d.scale e.size).source mode k)))
    (fun o inside l inBlock => by rw [PadDim.source_scale merges inBlock inside])
  rw [sources, sources, sources, PadDim.total_scale, inner]
  refine Eq.trans ?_ merged
  apply flatMap_congr
  intro o _
  rw [map_flatMap]
  apply flatMap_congr
  intro l mem
  rw [List.map_map]
  apply map_congr_left
  intro p _
  rw [Function.comp_apply, PadDim.source_of_unpadded mode unpadded (mem_range.mp mem),
    map_cons, prod_cons]
  cases d.source mode o with
  | none => rfl
  | some i =>
    cases p with
    | none => rfl
    | some p =>
      simp only [read, bind_eq_bind, bind_some, map_some, Nat.add_mul, mul_assoc, add_assoc]

end TfDml.Lib
