import TfDml.Core.HeapAllocator
import TfDml.Lib.ByteBuffer

/-! # Filling buffers

`FillBufferWithPattern` clears a raw view with four integers, into which it repeats the pattern.
The clear stores the first of the integers in every element of the view. Only what the release
build computes is modelled: its assertions are gone, so that the view is made from whatever offset
and size the region has.
-/

namespace TfDml.BufferFill

open Lib HeapAllocator List

/-- A recorded `ClearUnorderedAccessViewUint`, with the view that it clears. -/
structure ClearUav where
  firstElement : Nat
  numElements : Nat
  values : List Nat

/-- The loop over `fillPattern.bytes`. -/
def fillBytes (value : List Byte) : Nat → Nat → List Byte
  | 0, _ => []
  | count + 1, valueIndex =>
    value.getD valueIndex 0 ::
      fillBytes value count (if valueIndex + 1 = value.length then 0 else valueIndex + 1)

/-- `fillPattern.bytes` -/
def fillPattern (value : List Byte) : List Byte :=
  if value.isEmpty then replicate 16 0 else fillBytes value 16 0

/-- `fillPattern.integers` -/
def integers (bytes : List Byte) : List Nat :=
  (range 4).map fun i => ofLittleEndian ((bytes.drop (4 * i)).take 4)

/-- `DmlCommandList::FillBufferWithPattern`, with a view of `uint32_t` elements. -/
def recordFill (dstOffset dstSizeInBytes : Nat) (value : List Byte) : ClearUav where
  firstElement := dstOffset / 4 % 2 ^ 32
  numElements := dstSizeInBytes / 4 % 2 ^ 32
  values := integers (fillPattern value)

/-- Stores `Values[0]` in every element of the view. -/
def ClearUav.execute (command : ClearUav) : ByteBuffer → ByteBuffer :=
  fill (4 * command.firstElement) (4 * command.numElements)
    (repeated (littleEndian 4 (command.values.getD 0 0)))

structure D3D12BufferRegion where
  offset : Nat
  sizeInBytes : Nat
  width : Nat
  nonempty : sizeInBytes ≠ 0
  inside : offset + sizeInBytes ≤ width

/-- The constructor; there is no region if one of its checks fails. -/
def D3D12BufferRegion.create (offset sizeInBytes width : Nat) : Option D3D12BufferRegion :=
  if checks : sizeInBytes ≠ 0 ∧ offset < width ∧ sizeInBytes ≤ width - offset then
    some ⟨offset, sizeInBytes, width, checks.1, by omega⟩
  else none

/-- `CreateBufferRegion`, with the widths of the allocated resources. -/
def createBufferRegion (allocator : Allocator Nat) (ptr sizeInBytes : Nat) :
    Option D3D12BufferRegion :=
  let taggedPtr := TaggedPointer.unpack ptr
  if ptr = 0 then none
  else
    match allocator.allocationsById.lookup taggedPtr.allocationId with
    | none => none
    | some width => D3D12BufferRegion.create taggedPtr.offset sizeInBytes width

/-- `GetBufferForOpaqueData`, in `uint64_t`. -/
def getBufferForOpaqueData (allocator : Allocator Nat) (opaqueData unalignedSizeInBytes : Nat) :
    Option D3D12BufferRegion :=
  let sizeInBytes := u64 ((1 + (unalignedSizeInBytes - 1) / 4) * 4)
  createBufferRegion allocator opaqueData sizeInBytes

/-- What is left in device memory, by the commands that are recorded; there is nothing if a check
    fails. -/
abbrev Recorded := Option (List ClearUav)

def fillBufferWithPattern (dst : D3D12BufferRegion) (value : List Byte) : List ClearUav :=
  [recordFill dst.offset dst.sizeInBytes value]

def zeroBuffer (dst : D3D12BufferRegion) : List ClearUav := fillBufferWithPattern dst [0]

def pluginMemZero (allocator : Allocator Nat) (location size : Nat) : Recorded :=
  if size = 0 then some []
  else (getBufferForOpaqueData allocator location size).map zeroBuffer

/-- `plugin_memset`, for a pattern of `patternSize` bytes. -/
def pluginMemset (patternSize : Nat) (allocator : Allocator Nat) (location : Nat)
    (pattern : BitVec (8 * patternSize)) (size : Nat) : Recorded :=
  if size = 0 then some []
  else
    (getBufferForOpaqueData allocator location size).map fun dst =>
      fillBufferWithPattern dst (littleEndian patternSize pattern.toNat)

/-- A pattern of 1, 2, 4, 8 or 16 bytes. -/
structure Pattern where
  bytes : List Byte
  sized : bytes.length ∈ [1, 2, 4, 8, 16]

/-- Memory of the device that is asked for, inside one allocation. An empty one may be null. -/
structure Destination where
  allocator : Allocator Nat
  location : Nat
  size : Nat
  allocated : size ≠ 0 → location ≠ 0 ∧ ∃ width < 2 ^ 64,
    allocator.allocationsById.lookup (TaggedPointer.unpack location).allocationId = some width ∧
      (TaggedPointer.unpack location).offset + size ≤ width

/-- A fill, through one of its callers. `memset` and `memset32` of the plugin are both
    `plugin_memset`. -/
inductive Call where
  | zeroBuffer (dst : D3D12BufferRegion)
  | fillBufferWithPattern (dst : D3D12BufferRegion) (value : Pattern)
  | memZero (destination : Destination)
  | memset (destination : Destination) (pattern : BitVec 8)
  | memset32 (destination : Destination) (pattern : BitVec 32)

namespace Call

def record : Call → Recorded
  | zeroBuffer dst => some (BufferFill.zeroBuffer dst)
  | fillBufferWithPattern dst value => some (BufferFill.fillBufferWithPattern dst value.bytes)
  | memZero destination => pluginMemZero destination.allocator destination.location destination.size
  | memset destination pattern =>
    pluginMemset 1 destination.allocator destination.location pattern destination.size
  | memset32 destination pattern =>
    pluginMemset 4 destination.allocator destination.location pattern destination.size

def offset : Call → Nat
  | zeroBuffer dst | fillBufferWithPattern dst _ => dst.offset
  | memZero destination | memset destination _ | memset32 destination _ =>
    (TaggedPointer.unpack destination.location).offset

def size : Call → Nat
  | zeroBuffer dst | fillBufferWithPattern dst _ => dst.sizeInBytes
  | memZero destination | memset destination _ | memset32 destination _ => destination.size

def pattern : Call → List Byte
  | zeroBuffer _ | memZero _ => [0]
  | fillBufferWithPattern _ value => value.bytes
  | memset _ pattern => littleEndian 1 pattern.toNat
  | memset32 _ pattern => littleEndian 4 pattern.toNat

end Call

def execute (commands : List ClearUav) (memory : ByteBuffer) : ByteBuffer :=
  commands.foldl (fun memory command => command.execute memory) memory

/-- The destination repeats the pattern, and no other byte changes. -/
def Call.Exact (call : Call) : Prop :=
  ∃ commands, call.record = some commands ∧
    Sets (execute commands) call.offset call.size (repeated call.pattern)

variable {value : List Byte}

theorem fillBytes_eq (count : Nat) {valueIndex : Nat} (lt : valueIndex < value.length) :
    fillBytes value count valueIndex =
      (range count).map fun k => value.getD ((valueIndex + k) % value.length) 0 := by
  induction count generalizing valueIndex with
  | zero => rfl
  | succ count ih =>
    have next : (if valueIndex + 1 = value.length then 0 else valueIndex + 1) =
        (valueIndex + 1) % value.length := by
      split
      case isTrue last => rw [last, Nat.mod_self]
      case isFalse inner => rw [Nat.mod_eq_of_lt (by omega)]
    rw [fillBytes, next, ih (Nat.mod_lt _ (by omega)), range_succ_eq_map, map_cons, map_map]
    congr 1
    · rw [add_zero, Nat.mod_eq_of_lt lt]
    · apply map_congr_left
      intro k _
      rw [Function.comp_apply, Nat.mod_add_mod, Nat.add_right_comm, add_assoc]

theorem firstInteger_eq (pos : 0 < value.length) :
    littleEndian 4 ((integers (fillPattern value)).getD 0 0) =
      (range 4).map fun k => repeated value k := by
  have bytes : fillPattern value = (range 16).map fun k => value.getD (k % value.length) 0 := by
    have some : value.isEmpty = false := by
      rw [isEmpty_eq_false_iff]
      exact ne_nil_of_length_pos pos
    rw [fillPattern, some, fillBytes_eq 16 pos]
    simp only [zero_add, Bool.false_eq_true, if_false]
  have first : (fillPattern value).take 4 = (range 4).map fun k => repeated value k := by
    rw [bytes, ← map_take]
    rfl
  have length : ((fillPattern value).take 4).length = 4 := by rw [first, length_map, length_range]
  have integer : (integers (fillPattern value)).getD 0 0 =
      ofLittleEndian ((fillPattern value).take 4) := rfl
  have put := littleEndian_ofLittleEndian ((fillPattern value).take 4)
  rw [length] at put
  rw [integer, put, first]

theorem execute_recordFill {offset size : Nat} (pos : 0 < value.length) :
    execute [recordFill offset size value] =
      fill (4 * (offset / 4 % 2 ^ 32)) (4 * (size / 4 % 2 ^ 32))
        fun p => repeated value (p % 4) := by
  have word : repeated (littleEndian 4 ((integers (fillPattern value)).getD 0 0)) =
      fun p => repeated value (p % 4) := by
    funext p
    have lt : p % 4 < 4 := Nat.mod_lt p (by decide)
    rw [firstInteger_eq pos, repeated, length_map, length_range,
      getD_eq_getElem _ _ (by simpa using lt), getElem_map, getElem_range]
  funext memory
  rw [execute, foldl_cons, foldl_nil, ClearUav.execute, recordFill, word]

theorem repeats_iff (sized : value.length ∈ [1, 2, 4, 8, 16]) {size : Nat} :
    (∀ k < size, repeated value (k % 4) = repeated value k) ↔
      ∀ k < size, k < value.length → value.getD k 0 = value.getD (k % 4) 0 := by
  constructor
  · intro repeats k less lt
    have same := repeats k less
    rw [repeated, repeated, Nat.mod_eq_of_lt lt,
      Nat.mod_eq_of_lt ((Nat.mod_le k 4).trans_lt lt)] at same
    exact same.symm
  · intro repeats k less
    have pos : 0 < value.length := by
      by_contra none
      obtain rfl := length_eq_zero_iff.mp (Nat.eq_zero_of_not_pos none)
      simp at sized
    have same := repeats (k % value.length) ((Nat.mod_le k _).trans_lt less)
      (Nat.mod_lt k pos)
    have twice : k % value.length % 4 = k % 4 % value.length := by
      simp only [mem_cons, not_mem_nil, or_false] at sized
      rcases sized with one | two | four | eight | sixteen
      · rw [one]
        omega
      · rw [two]
        omega
      · rw [four]
      · rw [eight]
        omega
      · rw [sixteen]
        omega
    rw [repeated, repeated, same, twice]

theorem recordFill_sets_iff {offset regionSize size : Nat} (sized : value.length ∈ [1, 2, 4, 8, 16])
    (pos : 0 < size) :
    Sets (execute [recordFill offset regionSize value]) offset size (repeated value) ↔
      4 * (offset / 4 % 2 ^ 32) = offset ∧ 4 * (regionSize / 4 % 2 ^ 32) = size ∧
        ∀ k < size, k < value.length → value.getD k 0 = value.getD (k % 4) 0 := by
  have some : 0 < value.length := by
    by_contra none
    obtain rfl := length_eq_zero_iff.mp (Nat.eq_zero_of_not_pos none)
    simp at sized
  rw [execute_recordFill some, fill_sets_iff pos, ← repeats_iff sized]
  constructor
  · rintro ⟨start, count, bytes⟩
    refine ⟨start, count, fun k less => ?_⟩
    rw [← bytes k less]
    congr 1
    omega
  · rintro ⟨start, count, bytes⟩
    refine ⟨start, count, fun k less => ?_⟩
    rw [← bytes k less]
    congr 1
    omega

theorem Call.sized (call : Call) : call.pattern.length ∈ [1, 2, 4, 8, 16] := by
  cases call with
  | zeroBuffer => exact mem_cons_self
  | memZero => exact mem_cons_self
  | fillBufferWithPattern dst value => exact value.sized
  | memset | memset32 =>
    rw [pattern, length_littleEndian]
    decide

def rounded (size : Nat) : Nat := u64 ((1 + (size - 1) / 4) * 4)

theorem rounded_of_dvd {size : Nat} (aligned : 4 ∣ size) (pos : size ≠ 0)
    (lt : size < 2 ^ 64) : rounded size = size := by
  rw [rounded, u64]
  omega

variable {width : Nat}

theorem create_eq {offset size : Nat} (pos : size ≠ 0) (lt : offset + size ≤ width) :
    D3D12BufferRegion.create offset size width = some ⟨offset, size, width, pos, lt⟩ :=
  dif_pos ⟨pos, by omega, by omega⟩

variable {region : D3D12BufferRegion}

theorem create_cases {offset size : Nat}
    (new : D3D12BufferRegion.create offset size width = some region) :
    region.offset = offset ∧ region.sizeInBytes = size := by
  rw [D3D12BufferRegion.create] at new
  split at new
  case isTrue =>
    cases new
    exact ⟨rfl, rfl⟩
  case isFalse => cases new

theorem getBuffer_cases {allocator : Allocator Nat} {location size : Nat}
    (got : getBufferForOpaqueData allocator location size = some region) :
    region.offset = (TaggedPointer.unpack location).offset ∧ region.sizeInBytes = rounded size := by
  simp only [getBufferForOpaqueData, createBufferRegion] at got
  split at got
  case isTrue => cases got
  case isFalse =>
    split at got
    case h_1 => cases got
    case h_2 => exact create_cases got

theorem Destination.getBuffer_eq (dst : Destination) (pos : dst.size ≠ 0)
    (aligned : 4 ∣ dst.size) : ∃ region, getBufferForOpaqueData dst.allocator dst.location
      dst.size = some region := by
  obtain ⟨nonnull, width, small, got, lt⟩ := dst.allocated pos
  have same := rounded_of_dvd aligned pos (by omega)
  rw [rounded] at same
  simp only [getBufferForOpaqueData, createBufferRegion, if_neg nonnull, got, same]
  exact ⟨_, create_eq pos lt⟩

variable {call : Call}

theorem Call.record_cases (pos : call.size ≠ 0) {commands : List ClearUav}
    (made : call.record = some commands) :
    ∃ regionSize, (regionSize = call.size ∨ regionSize = rounded call.size) ∧
      commands = [recordFill call.offset regionSize call.pattern] := by
  have plugin (destination : Destination) (value : List Byte)
      (filled : (getBufferForOpaqueData destination.allocator destination.location
        destination.size).map (BufferFill.fillBufferWithPattern · value) = some commands) :
      commands = [recordFill (TaggedPointer.unpack destination.location).offset
        (rounded destination.size) value] := by
    obtain ⟨region, got, rfl⟩ := Option.map_eq_some_iff.mp filled
    obtain ⟨offset, size⟩ := getBuffer_cases got
    rw [BufferFill.fillBufferWithPattern, offset, size]
  cases call with
  | zeroBuffer dst =>
    cases made
    exact ⟨_, Or.inl rfl, rfl⟩
  | fillBufferWithPattern dst value =>
    cases made
    exact ⟨_, Or.inl rfl, rfl⟩
  | memZero destination =>
    have some : destination.size ≠ 0 := pos
    rw [record, pluginMemZero, if_neg some] at made
    exact ⟨_, Or.inr rfl, plugin destination _ made⟩
  | memset destination value =>
    have some : destination.size ≠ 0 := pos
    rw [record, pluginMemset, if_neg some] at made
    exact ⟨_, Or.inr rfl, plugin destination _ made⟩
  | memset32 destination value =>
    have some : destination.size ≠ 0 := pos
    rw [record, pluginMemset, if_neg some] at made
    exact ⟨_, Or.inr rfl, plugin destination _ made⟩

theorem Call.record_of_dvd (pos : call.size ≠ 0) (aligned : 4 ∣ call.size) :
    ∃ commands, call.record = some commands := by
  cases call with
  | zeroBuffer dst => exact ⟨_, rfl⟩
  | fillBufferWithPattern dst value => exact ⟨_, rfl⟩
  | memZero destination =>
    have some : destination.size ≠ 0 := pos
    obtain ⟨region, got⟩ := destination.getBuffer_eq some aligned
    rw [record, pluginMemZero, if_neg some, got]
    exact ⟨_, rfl⟩
  | memset destination value =>
    have some : destination.size ≠ 0 := pos
    obtain ⟨region, got⟩ := destination.getBuffer_eq some aligned
    rw [record, pluginMemset, if_neg some, got]
    exact ⟨_, rfl⟩
  | memset32 destination value =>
    have some : destination.size ≠ 0 := pos
    obtain ⟨region, got⟩ := destination.getBuffer_eq some aligned
    rw [record, pluginMemset, if_neg some, got]
    exact ⟨_, rfl⟩

theorem Call.exact_of_empty (empty : call.size = 0) : call.Exact := by
  have nothing : call.record = some [] := by
    cases call with
    | zeroBuffer dst => exact absurd empty dst.nonempty
    | fillBufferWithPattern dst value => exact absurd empty dst.nonempty
    | memZero destination => exact if_pos empty
    | memset destination value => exact if_pos empty
    | memset32 destination value => exact if_pos empty
  rw [Exact, empty]
  exact ⟨[], nothing, sets_zero (fun _ => rfl) _ _⟩

theorem Call.exact_iff_of_pos (pos : 0 < call.size) : call.Exact ↔
      4 ∣ call.offset ∧ 4 ∣ call.size ∧ call.offset < 2 ^ 34 ∧ call.size < 2 ^ 34 ∧
        ∀ k < call.size, k < call.pattern.length →
          call.pattern.getD k 0 = call.pattern.getD (k % 4) 0 := by
  constructor
  · rintro ⟨commands, made, sets⟩
    obtain ⟨regionSize, -, rfl⟩ := record_cases pos.ne' made
    rw [recordFill_sets_iff call.sized pos] at sets
    obtain ⟨start, count, repeats⟩ := sets
    exact ⟨by omega, by omega, by omega, by omega, repeats⟩
  · rintro ⟨offsetAligned, sizeAligned, offsetSmall, sizeSmall, repeats⟩
    obtain ⟨commands, made⟩ := record_of_dvd pos.ne' sizeAligned
    obtain ⟨regionSize, sizes, rfl⟩ := record_cases pos.ne' made
    have whole : regionSize = call.size := by
      rcases sizes with whole | blocks
      · exact whole
      · rw [blocks, rounded_of_dvd sizeAligned pos.ne' (by omega)]
    refine ⟨_, made, ?_⟩
    rw [recordFill_sets_iff call.sized pos, whole]
    exact ⟨by omega, by omega, repeats⟩

/-- A fill is exact if there is nothing to fill, or if the destination and the pattern are made
    for the view. -/
theorem Call.fill_exact_iff (call : Call) : call.Exact ↔ call.size = 0 ∨
      4 ∣ call.offset ∧ 4 ∣ call.size ∧ call.offset < 2 ^ 34 ∧ call.size < 2 ^ 34 ∧
        ∀ k < call.size, k < call.pattern.length →
          call.pattern.getD k 0 = call.pattern.getD (k % 4) 0 := by
  rcases Nat.eq_zero_or_pos call.size with empty | pos
  · exact iff_of_true (exact_of_empty empty) (Or.inl empty)
  · rw [or_iff_right pos.ne', exact_iff_of_pos pos]

/-- A `double` is not repeated: only its lower half is. -/
theorem Call.eightBytes_not_exact : ¬ (fillBufferWithPattern ⟨0, 8, 256, by decide, by decide⟩
      ⟨[0, 0, 0, 0, 0, 0, 0xF0#8, 0x3F#8], by decide⟩).Exact := by
  rw [exact_iff_of_pos (by decide)]
  rintro ⟨-, -, -, -, repeats⟩
  exact absurd (repeats 6 (by decide) (by decide)) (by decide)

end TfDml.BufferFill
