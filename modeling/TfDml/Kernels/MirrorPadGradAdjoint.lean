import TfDml.Kernels.MirrorPadGrad

/-! # MirrorPadGrad is the adjoint of MirrorPad

Each fold moves the elements along the map that mirrors one border. The maps of both borders and
of all dimensions compose to the one that MirrorPad reads through.
-/

namespace TfDml.MirrorPadGrad

open Lib List
open Lib.NdArray (along slice_along zipWith_along modify_eq_set sizes_pad_along entry_pad_along)
open GatherNd (IndexType)
open ScatterNd (indexWidth)
open StridedSlice (IndexTensor u32 u32_of_bounds u32_natCast)

universe u

variable {R : Type u} [CommRing R] {w : Nat}

/-- A part of a line between zeros, with the whole in reverse order. -/
structure Border where
  start : Nat
  size : Nat
  before : Nat
  after : Nat

namespace Border

def total (b : Border) : Nat := b.before + b.size + b.after

def reversed (b : Border) (line : Nat → R) (k : Nat) : R :=
  let r := b.total - 1 - k
  if b.before ≤ r ∧ r < b.before + b.size then line (b.start + (r - b.before)) else 0

end Border

variable {axis : Nat}

theorem border_spec {t : NdArray R} (lt : axis < t.sizes.length) {b : Border}
    (fits : b.start + b.size ≤ t.sizes[axis]) {padded : NdArray R → NdArray R}
    (pads : ∀ s : NdArray R, padded s = s.pad 0 (along s.sizes.length axis b.before)
        (along s.sizes.length axis b.after) ∨ padded s = s ∧ b.before = 0 ∧ b.after = 0) :
    ∃ border, t.slice (along t.sizes.length axis b.start) (t.sizes.set axis b.size) = some border ∧
      (reverseBorder axis (padded border)).sizes = t.sizes.set axis b.total ∧
      ∀ index ∈ indices (t.sizes.set axis b.total), ∀ lt' : axis < index.length,
        (reverseBorder axis (padded border)).entry index =
          b.reversed (fun o => t.entry (index.set axis o)) index[axis] := by
  refine ⟨_, slice_along t lt fits, ?_⟩
  set border : NdArray R := ⟨t.sizes.set axis b.size, fun index =>
    t.entry (List.zipWith (· + ·) (along t.sizes.length axis b.start) index)⟩ with isBorder
  have rank : border.sizes.length = t.sizes.length := length_set
  have onAxis : axis < border.sizes.length := by rwa [rank]
  have size : border.sizes[axis] = b.size := getElem_set_self _
  have read : ∀ index : List Nat, index.length = t.sizes.length → ∀ lt' : axis < index.length,
      border.entry index = t.entry (index.set axis (b.start + index[axis])) := by
    intro index length lt'
    rw [← modify_eq_set lt' (b.start + ·), ← zipWith_along length]
  -- The padded border, also where it is left as it is.
  have paddedSizes : (padded border).sizes = t.sizes.set axis b.total := by
    cases pads border with
    | inl isPad =>
      rw [isPad, sizes_pad_along _ onAxis, size, set_set]
      rfl
    | inr isSame => rw [isSame.1, Border.total, isSame.2.1, isSame.2.2, zero_add, add_zero]
  have paddedEntry : ∀ index ∈ indices (t.sizes.set axis b.total),
      ∀ lt' : axis < index.length, (padded border).entry index =
        if b.before ≤ index[axis] ∧ index[axis] < b.before + b.size then
          t.entry (index.set axis (b.start + (index[axis] - b.before))) else 0 := by
    intro index mem lt'
    have length := length_of_mem_indices mem
    rw [length_set] at length
    cases pads border with
    | inl isPad =>
      have member' : index ∈ indices (border.sizes.set axis b.total) := by rwa [set_set]
      rw [isPad, entry_pad_along border onAxis 0 _ _ member' lt', size]
      split
      · rw [read _ (by rwa [length_set]) (by rwa [length_set]), getElem_set_self, set_set]
      · rfl
    | inr isSame =>
      have below := getElem_lt_of_mem_indices mem (d := axis) (by rwa [length_set]) lt'
      rw [getElem_set_self, Border.total, isSame.2.1, isSame.2.2] at below
      rw [isSame.1, read _ length lt', isSame.2.1, if_pos (by omega), Nat.sub_zero]
  have total : (padded border).sizes.getD axis 0 = b.total := by
    rw [paddedSizes, getD_eq_getElem _ _ (by rwa [length_set]), getElem_set_self]
  refine ⟨?_, fun index mem lt' => ?_⟩
  · rw [reverseBorder]
    split
    · exact paddedSizes
    · exact paddedSizes
  · have below := getElem_lt_of_mem_indices mem (d := axis) (by rwa [length_set]) lt'
    rw [getElem_set_self] at below
    have same : (reverseBorder axis (padded border)).entry index =
        (padded border).entry (index.set axis (b.total - 1 - index[axis])) := by
      simp only [reverseBorder, total]
      split
      case isTrue many =>
        simp only [NdArray.reverse, NdArray.const, getD_eq_getElem _ _ lt']
        rw [if_pos below]
      case isFalse single =>
        congr 1
        have only : b.total - 1 - index[axis] = index[axis] := by omega
        rw [only, set_getElem_self]
    have moved : index.set axis (b.total - 1 - index[axis]) ∈ indices (t.sizes.set axis b.total) := by
      refine set_mem_indices (n := b.total) ?_ fun _ => ?_
      · rwa [set_set]
      · rw [getElem_set_self]
        omega
    rw [same, paddedEntry _ moved (by rwa [length_set]), getElem_set_self, set_set]
    rfl

def MirrorPadMode.padding : MirrorPadMode → PaddingMode
  | .reflect => .reflect
  | .symmetric => .symmetric

def mirror (mode : MirrorPadMode) (d : PadDim) (o : Nat) : Nat := (d.source mode.padding o).getD 0

def Side.dim (kept padding : Nat) : Side → PadDim
  | .before => ⟨kept, padding, 0⟩
  | .after => ⟨kept, 0, padding⟩

def Side.border (offset kept padding : Nat) : Side → Border
  | .before => ⟨0, padding, kept - padding - offset, offset⟩
  | .after => ⟨kept, padding, offset, kept - padding - offset⟩

def Side.rest (padding : Nat) : Side → Nat
  | .before => padding
  | .after => 0

theorem source_eq_mirror (mode : MirrorPadMode) (d : PadDim) (o : Nat) :
    d.source mode.padding o = some (mirror mode d o) := by
  cases mode with
  | reflect =>
    simp only [mirror, PadDim.source, MirrorPadMode.padding]
    split_ifs <;> rfl
  | symmetric =>
    simp only [mirror, PadDim.source, MirrorPadMode.padding]
    split_ifs <;> rfl

theorem mirror_eq (mode : MirrorPadMode) (d : PadDim) (o : Nat) : mirror mode d o =
      if o < d.before then d.before - 1 + mode.offset - o
      else if o < d.before + d.size then o - d.before
      else d.size - 1 - mode.offset - (o - d.before - d.size) := by
  cases mode with
  | reflect =>
    simp only [mirror, PadDim.source, MirrorPadMode.padding, MirrorPadMode.offset]
    split_ifs with start
    · rw [Option.getD_some]
      omega
    · rfl
    · rfl
  | symmetric =>
    simp only [mirror, PadDim.source, MirrorPadMode.padding, MirrorPadMode.offset]
    split_ifs <;> rfl

variable {mode : MirrorPadMode} {d : PadDim} {o : Nat}

theorem mirror_lt (fits : d.Fits mode.padding) (lt : o < d.total) : mirror mode d o < d.size :=
  PadDim.source_lt fits lt (source_eq_mirror mode d o)

theorem mirror_of_unpadded (unpadded : d.Unpadded) (lt : o < d.size) : mirror mode d o = o := by
  rw [mirror, PadDim.source_of_unpadded _ unpadded lt, Option.getD_some]

theorem zeros_of_fits {mode : MirrorPadMode} {side : Side} {kept padding : Nat}
    (fits : (side.dim kept padding).Fits mode.padding) : padding + mode.offset ≤ kept := by
  cases mode with
  | reflect =>
    cases side with
    | before => exact fits.1
    | after => exact fits.2
  | symmetric =>
    cases side with
    | before => exact fits.1
    | after => exact fits.2

variable {side : Side} {kept : Nat}

theorem line_spec {padding : Nat} (fits : (side.dim kept padding).Fits mode.padding)
    (line : Nat → R) {k : Nat} (lt : k < kept) :
    line (side.rest padding + k) + (side.border mode.offset kept padding).reversed line k =
      pushforward (Finset.range (kept + padding)) (mirror mode (side.dim kept padding)) line k := by
  have zeros := zeros_of_fits fits
  have total : (side.border mode.offset kept padding).total = kept := by
    cases side with
    | before => simp only [Border.total, Side.border]; omega
    | after => simp only [Border.total, Side.border]; omega
  rw [Border.reversed, total]
  refine (pushforward_pair line (fun o below => ?_) ?_ (fun met => ?_) (fun met => ?_)).symm
  · have below := Finset.mem_range.mp below
    cases side with
    | before =>
      simp only [mirror_eq, Side.dim, Side.border, Side.rest]
      split_ifs <;> omega
    | after =>
      simp only [mirror_eq, Side.dim, Side.border, Side.rest]
      split_ifs <;> omega
  · rw [Finset.mem_range]
    cases side with
    | before => simp only [Side.rest]; omega
    | after => simp only [Side.rest]; omega
  · rw [Finset.mem_range]
    cases side with
    | before => simp only [Side.border] at met ⊢; omega
    | after => simp only [Side.border] at met ⊢; omega
  · cases side with
    | before => simp only [Side.border, Side.rest] at met ⊢; omega
    | after => simp only [Side.border, Side.rest] at met ⊢; omega

/-- The elements are moved along a map of one index, and no size was negative. -/
structure Moves (state next : Folding R) (axis kept : Nat) (g : Nat → Nat) : Prop where
  sizes : next.result.sizes = state.result.sizes.set axis kept
  used : (∀ n ∈ state.used, 0 ≤ n) → ∀ n ∈ next.used, 0 ≤ n
  entry : ∀ index ∈ indices (state.result.sizes.set axis kept), next.result.entry index =
      pushforward (indexSet state.result.sizes) (List.modify · axis g) state.result.entry index

variable {state : Folding R} {g : Nat → Nat}

theorem Moves.of_id (lt : axis < state.result.sizes.length)
    (unmoved : ∀ k < state.result.sizes[axis], g k = k) :
    Moves state state axis state.result.sizes[axis] g := by
  have same : state.result.sizes.set axis state.result.sizes[axis] = state.result.sizes :=
    set_getElem_self lt
  refine ⟨same.symm, fun nat => nat, fun index mem => ?_⟩
  rw [same] at mem
  rw [← pushforward_id (v := state.result.entry) (mem_indexSet.mpr mem)]
  refine pushforward_congr (fun src got => ?_) (fun _ _ => rfl) index
  have got := mem_indexSet.mp got
  have onAxis : axis < src.length := by rwa [length_of_mem_indices got]
  rw [modify_eq_set onAxis, unmoved _ (getElem_lt_of_mem_indices got lt onAxis), set_getElem_self]
  rfl

variable {n : Nat}

theorem Moves.comp {middle next : Folding R} {h : Nat → Nat} (first : Moves state middle axis n g)
    (snd : Moves middle next axis kept h)
    (maps : ∀ lt : axis < state.result.sizes.length, ∀ k < state.result.sizes[axis], g k < n) :
    Moves state next axis kept (h ∘ g) := by
  have sizes := first.sizes
  refine ⟨?_, fun nat => snd.used (first.used nat), fun index mem => ?_⟩
  · rw [snd.sizes, sizes, set_set]
  · rw [snd.entry index (by rwa [sizes, set_set]), sizes]
    have moved : ∀ src ∈ indexSet state.result.sizes,
        src.modify axis g ∈ indexSet (state.result.sizes.set axis n) := fun src got =>
      mem_indexSet.mpr (modify_mem_indices (mem_indexSet.mp got) maps)
    have composed : (fun src : List Nat => src.modify axis (h ∘ g)) =
        (List.modify · axis h) ∘ (List.modify · axis g) := by
      funext src
      apply ext_getElem
      · simp
      · intro d _ _
        simp only [Function.comp_apply, getElem_modify]
        split_ifs <;> rfl
    rw [composed, ← pushforward_comp _ _ moved]
    refine pushforward_congr (fun _ _ => rfl) (fun src got => ?_) index
    exact first.entry src (mem_indexSet.mp got)

variable {offset : Nat}

theorem padBorder_pads {padding : Nat} (axis : Nat) (side : Side) (small : kept + padding < 2 ^ 32)
    (zeros : padding + offset ≤ kept) (s : NdArray R) : let b := side.border offset kept padding
    padBorder offset axis side (kept - padding) s =
        s.pad 0 (along s.sizes.length axis b.before) (along s.sizes.length axis b.after) ∨
      padBorder offset axis side (kept - padding) s = s ∧ b.before = 0 ∧ b.after = 0 := by
  rw [padBorder]
  by_cases none : kept - padding = 0
  · rw [if_pos none]
    refine .inr ⟨rfl, ?_⟩
    have offsetZero : offset = 0 := by omega
    cases side with
    | before => exact ⟨by simp only [Side.border]; omega, offsetZero⟩
    | after => exact ⟨offsetZero, by simp only [Side.border]; omega⟩
  · have lt : u32 ((kept - padding : Nat) - offset) = kept - padding - offset := by
      rw [u32_of_bounds (by omega) (by omega)]
      omega
    rw [if_neg none, lt]
    cases side with
    | before => exact .inl rfl
    | after => exact .inl rfl

def Side.start (kept : Nat) : Side → Nat
  | .before => 0
  | .after => kept

theorem fold_of_parts {padding : Nat} (pos : 0 < padding)
    (size : state.result.sizes.getD axis 0 = kept + padding) (lt : kept + padding < 2 ^ 32)
    (enough : padding + offset ≤ kept) {border rest : NdArray R}
    (cut : state.result.slice (along state.result.sizes.length axis (side.start kept))
      (state.result.sizes.set axis padding) = some border)
    (left : state.result.slice (along state.result.sizes.length axis (side.rest padding))
      (state.result.sizes.set axis kept) = some rest) (same : rest.sizes =
      (reverseBorder axis (padBorder offset axis side (kept - padding) border)).sizes) :
    ∃ used, (∀ n ∈ used, 0 ≤ n) ∧ fold offset axis side padding state =
      some ⟨⟨rest.sizes, fun index => rest.entry index +
        (reverseBorder axis (padBorder offset axis side (kept - padding) border)).entry index⟩,
        state.used ++ used⟩ := by
  have narrowPadding : u32 padding = padding := u32_natCast (by omega)
  have narrowKept : u32 ((kept + padding : Nat) - padding) = kept := by
    rw [u32_of_bounds (by omega) (by omega)]
    omega
  have narrowNeeded : u32 ((kept + padding : Nat) - (padding : Int) * 2) = kept - padding := by
    rw [u32_of_bounds (by omega) (by omega)]
    omega
  have isPositive : (0 : Int) < padding := by omega
  have nat : ∀ n ∈ usedSizes offset side (kept + padding : Nat) padding (kept - padding),
      0 ≤ n := by
    intro n mem
    simp only [usedSizes, mem_append, mem_cons, not_mem_nil, or_false] at mem
    rcases mem with (fixed | zeros) | last
    · cases side with
      | before => simp only [Side.sliceOffset] at fixed; omega
      | after => simp only [Side.sliceOffset] at fixed; omega
    · split at zeros
      · cases zeros
      · simp only [mem_cons, not_mem_nil, or_false] at zeros
        omega
    · cases side with
      | before => simp only [Side.resultOffset] at last; omega
      | after => simp only [Side.resultOffset] at last; omega
  have sum : rest.add (reverseBorder axis (padBorder offset axis side (kept - padding) border)) =
      some ⟨rest.sizes, fun index => rest.entry index +
        (reverseBorder axis (padBorder offset axis side (kept - padding) border)).entry index⟩ :=
    if_pos same
  have narrowStart : u32 (side.sliceOffset (kept + padding : Nat) padding) = side.start kept := by
    cases side with
    | before => rfl
    | after => exact narrowKept
  have narrowRest : u32 (side.resultOffset padding) = side.rest padding := by
    cases side with
    | before => exact narrowPadding
    | after => rfl
  refine ⟨usedSizes offset side (kept + padding : Nat) padding (kept - padding), nat, ?_⟩
  simp only [fold, size, if_pos isPositive, narrowPadding, narrowKept, narrowNeeded, narrowStart,
    narrowRest, cut, left, sum, Option.bind_eq_bind, Option.bind_some]

theorem fold_spec {padding : Nat} (lt : axis < state.result.sizes.length)
    (size : state.result.sizes[axis] = kept + padding) (small : kept + padding < 2 ^ 32)
    (fits : (side.dim kept padding).Fits mode.padding) :
    ∃ next, fold mode.offset axis side padding state = some next ∧
      Moves state next axis kept (mirror mode (side.dim kept padding)) := by
  by_cases none : padding = 0
  · subst none
    refine ⟨state, rfl, ?_⟩
    have same : kept = state.result.sizes[axis] := size.symm
    rw [same]
    refine Moves.of_id lt fun k below => mirror_of_unpadded ?_ ?_
    · cases side with
      | before => exact ⟨rfl, rfl⟩
      | after => exact ⟨rfl, rfl⟩
    · cases side with
      | before => exact below
      | after => exact below
  · have enough := zeros_of_fits fits
    have total : (side.border mode.offset kept padding).total = kept := by
      cases side with
      | before => simp only [Border.total, Side.border]; omega
      | after => simp only [Border.total, Side.border]; omega
    have cutFits : side.start kept + padding ≤ state.result.sizes[axis] := by
      cases side with
      | before => simp only [Side.start]; omega
      | after => simp only [Side.start]; omega
    have restFits : side.rest padding + kept ≤ state.result.sizes[axis] := by
      cases side with
      | before => simp only [Side.rest]; omega
      | after => simp only [Side.rest]; omega
    have part : (side.border mode.offset kept padding).start = side.start kept ∧
        (side.border mode.offset kept padding).size = padding := by
      cases side with
      | before => exact ⟨rfl, rfl⟩
      | after => exact ⟨rfl, rfl⟩
    obtain ⟨border, cut, borderSizes, borderEntry⟩ := border_spec lt
      (b := side.border mode.offset kept padding) (by rwa [part.1, part.2])
      (padBorder_pads axis side small enough)
    rw [part.1, part.2] at cut
    rw [total] at borderSizes borderEntry
    obtain ⟨used, nat, folded⟩ := fold_of_parts (Nat.pos_of_ne_zero none)
      (by rw [getD_eq_getElem _ _ lt, size]) small enough cut
      (slice_along state.result lt restFits) borderSizes.symm
    refine ⟨_, folded, rfl, fun before => ?_, fun index mem => ?_⟩
    · exact forall_mem_append.mpr ⟨before, nat⟩
    · have length := length_of_mem_indices mem
      rw [length_set] at length
      have onAxis : axis < index.length := by rwa [length]
      have below := getElem_lt_of_mem_indices mem (d := axis) (by rwa [length_set]) onAxis
      rw [getElem_set_self] at below
      have line := line_spec fits (fun o => state.result.entry (index.set axis o)) below
      rw [pushforward_modify lt _ _ mem onAxis, size, ← line]
      simp only [zipWith_along length, modify_eq_set onAxis, borderEntry index mem onAxis]

theorem mirror_comp (fits : d.Fits mode.padding) (lt : o < d.total) :
    mirror mode (Side.after.dim d.size d.after) (mirror mode (Side.before.dim (d.size + d.after)
      d.before) o) = mirror mode d o := by
  have pre : d.before + mode.offset ≤ d.size :=
    @zeros_of_fits mode .before _ _ (by cases mode with
      | reflect => exact ⟨fits.1, lt_of_le_of_lt (Nat.zero_le _) fits.1⟩
      | symmetric => exact ⟨fits.1, Nat.zero_le _⟩)
  rw [PadDim.total] at lt
  simp only [mirror_eq, Side.dim]
  split_ifs <;> omega

def sizesBelow (dims : List PadDim) (n : Nat) : List Nat :=
  (dims.take n).map PadDim.size ++ (dims.drop n).map PadDim.total

def mirrorBelow (mode : MirrorPadMode) (dims : List PadDim) (n : Nat) (index : List Nat) :
    List Nat :=
  List.zipWith (mirror mode) (dims.take n) index ++ index.drop n

theorem length_sizesBelow (dims : List PadDim) (n : Nat) :
    (sizesBelow dims n).length = dims.length := by
  rw [sizesBelow, length_append, length_map, length_map, ← length_append, take_append_drop]

variable {dims : List PadDim}

theorem getElem_sizesBelow (lt : n < dims.length) (lt' : n < (sizesBelow dims n).length) :
    (sizesBelow dims n)[n] = dims[n].total := by
  induction dims generalizing n with
  | nil => simp at lt
  | cons d rest ih =>
    cases n with
    | zero => rfl
    | succ n => exact ih (Nat.lt_of_succ_lt_succ lt) (Nat.lt_of_succ_lt_succ lt')

theorem sizesBelow_succ (lt : n < dims.length) :
    sizesBelow dims (n + 1) = (sizesBelow dims n).set n dims[n].size := by
  induction dims generalizing n with
  | nil => simp at lt
  | cons d rest ih =>
    cases n with
    | zero => rfl
    | succ n => exact congrArg _ (ih (Nat.lt_of_succ_lt_succ lt))

variable {index : List Nat}

theorem mirrorBelow_succ (length : index.length = dims.length) (lt : n < dims.length) :
    mirrorBelow mode dims (n + 1) index =
      (mirrorBelow mode dims n index).modify n (mirror mode dims[n]) := by
  induction dims generalizing n index with
  | nil => simp at lt
  | cons d rest ih =>
    cases index with
    | nil => simp at length
    | cons k index =>
      cases n with
      | zero => rfl
      | succ n => exact congrArg _ (ih (Nat.succ.inj length) (Nat.lt_of_succ_lt_succ lt))

theorem mirrorBelow_mem (fits : ∀ d ∈ dims, d.Fits mode.padding) (le : n ≤ dims.length)
    (mem : index ∈ indices (dims.map PadDim.total)) :
    mirrorBelow mode dims n index ∈ indices (sizesBelow dims n) := by
  induction n with
  | zero => exact mem
  | succ n ih =>
    have length := length_of_mem_indices mem
    rw [length_map] at length
    rw [mirrorBelow_succ length le, sizesBelow_succ le]
    refine modify_mem_indices (ih (Nat.le_of_succ_le le)) fun lt k below => ?_
    rw [getElem_sizesBelow le] at below
    exact mirror_lt (fits _ (getElem_mem le)) below

structure Folded (mode : MirrorPadMode) (dims : List PadDim) (v : List Nat → R) (n : Nat)
    (state : Folding R) : Prop where
  sizes : state.result.sizes = sizesBelow dims n
  used : ∀ n ∈ state.used, 0 ≤ n
  entry : ∀ index ∈ indices (sizesBelow dims n), state.result.entry index =
    pushforward (indexSet (dims.map PadDim.total)) (mirrorBelow mode dims n) v index

theorem foldAxis_spec {padding : Nat → Side → Int} (lt : axis < state.result.sizes.length)
    (size : state.result.sizes[axis] = d.total) (small : d.total < 2 ^ 32)
    (fits : d.Fits mode.padding) (pre : padding axis .before = d.before)
    (after : padding axis .after = d.after) :
    ∃ next, foldAxis mode.offset padding state axis = some next ∧
      Moves state next axis d.size (mirror mode d) := by
  have total : d.total = d.size + d.after + d.before := by
    rw [PadDim.total]
    omega
  rw [total] at size small
  have firstFits : (Side.before.dim (d.size + d.after) d.before).Fits mode.padding := by
    cases mode with
    | reflect => exact ⟨Nat.lt_add_right _ fits.1, Nat.lt_add_right _ (Nat.zero_lt_of_lt fits.1)⟩
    | symmetric => exact ⟨Nat.le_add_right_of_le fits.1, Nat.zero_le _⟩
  have secondFits : (Side.after.dim d.size d.after).Fits mode.padding := by
    cases mode with
    | reflect => exact ⟨Nat.zero_lt_of_lt fits.1, fits.2⟩
    | symmetric => exact ⟨Nat.zero_le _, fits.2⟩
  obtain ⟨middle, folded, first⟩ := fold_spec lt size small firstFits
  have sizes := first.sizes
  have onAxis : axis < middle.result.sizes.length := by rwa [sizes, length_set]
  have size' : middle.result.sizes[axis] = d.size + d.after := by
    simp only [sizes, getElem_set_self]
  obtain ⟨next, folded', snd⟩ := fold_spec onAxis size' (by omega) secondFits
  have lands : ∀ lt : axis < state.result.sizes.length, ∀ k < state.result.sizes[axis],
      mirror mode (Side.before.dim (d.size + d.after) d.before) k < d.size + d.after := by
    intro _ k below
    refine mirror_lt firstFits ?_
    simp only [PadDim.total, Side.dim]
    omega
  have both := first.comp snd lands
  refine ⟨next, ?_, both.sizes, both.used, fun index mem => ?_⟩
  · rw [foldAxis, pre, folded, Option.bind_eq_bind, Option.bind_some, after, folded']
  · rw [both.entry index mem]
    refine pushforward_congr (fun src got => ?_) (fun _ _ => rfl) index
    have got := mem_indexSet.mp got
    have onSource : axis < src.length := by rwa [length_of_mem_indices got]
    have below := getElem_lt_of_mem_indices got lt onSource
    rw [modify_eq_set onSource, modify_eq_set onSource, Function.comp_apply,
      mirror_comp fits (by omega)]

theorem foldAxes_spec {padding : Nat → Side → Int} (fits : ∀ d ∈ dims, d.Fits mode.padding)
    (small : ∀ d ∈ dims, d.total < 2 ^ 32) (paddings : ∀ n (lt : n < dims.length),
      padding n .before = dims[n].before ∧ padding n .after = dims[n].after) {x : NdArray R}
    (sizes : x.sizes = dims.map PadDim.total) (le : n ≤ dims.length) :
    ∃ state, (List.range n).foldlM (foldAxis mode.offset padding) ⟨x, []⟩ = some state ∧
      Folded mode dims x.entry n state := by
  induction n with
  | zero =>
    refine ⟨⟨x, []⟩, rfl, sizes, by simp, fun index mem => ?_⟩
    exact (pushforward_id (mem_indexSet.mpr mem)).symm
  | succ n ih =>
    obtain ⟨state, folded, holds⟩ := ih (Nat.le_of_succ_le le)
    have same := holds.sizes
    have lt : n < state.result.sizes.length := by rwa [same, length_sizesBelow]
    have size : state.result.sizes[n] = dims[n].total := by
      simp only [same]
      exact getElem_sizesBelow le _
    have mem := getElem_mem le
    obtain ⟨next, moved, moves⟩ := foldAxis_spec lt size (small _ mem) (fits _ mem)
      (paddings n le).1 (paddings n le).2
    have nextSizes : sizesBelow dims (n + 1) = state.result.sizes.set n dims[n].size := by
      rw [same, sizesBelow_succ le]
    refine ⟨next, ?_, ?_, moves.used holds.used, fun index inBounds => ?_⟩
    · rw [range_succ, foldlM_append, folded]
      simpa using moved
    · rw [moves.sizes, nextSizes]
    · have lands : ∀ src ∈ indexSet (dims.map PadDim.total),
          mirrorBelow mode dims n src ∈ indexSet (sizesBelow dims n) := fun src got =>
        mem_indexSet.mpr (mirrorBelow_mem fits (Nat.le_of_succ_le le) (mem_indexSet.mp got))
      rw [moves.entry index (by rwa [← nextSizes]), same, pushforward_congr (fun _ _ => rfl)
          (fun src got => holds.entry src (mem_indexSet.mp got)), pushforward_comp _ _ lands]
      refine pushforward_congr (fun src got => ?_) (fun _ _ => rfl) index
      have length := length_of_mem_indices (mem_indexSet.mp got)
      rw [length_map] at length
      rw [Function.comp_apply, mirrorBelow_succ length le]

end TfDml.MirrorPadGrad
