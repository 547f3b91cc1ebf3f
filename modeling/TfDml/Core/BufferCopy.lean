import TfDml.Core.BufferFill

/-! # Copying buffers

A copy inside the device takes its size from the region of the source, which is rounded up to four
bytes. The other copies take it from a subregion, or from the span of the host.
-/

namespace TfDml.BufferCopy

open Lib HeapAllocator BufferFill

/-- A recorded `CopyBufferRegion`. -/
structure CopyCommand where
  dstOffset : Nat
  srcOffset : Nat
  sizeInBytes : Nat

def CopyCommand.execute (command : CopyCommand) (source : ByteBuffer) : ByteBuffer → ByteBuffer :=
  fill command.dstOffset command.sizeInBytes fun p =>
    source (command.srcOffset + (p - command.dstOffset))

def copyBufferRegion (dst src : D3D12BufferRegion) : Option CopyCommand :=
  if src.sizeInBytes ≤ dst.sizeInBytes then some ⟨dst.offset, src.offset, src.sizeInBytes⟩
  else none

def subregion (region : D3D12BufferRegion) (offset sizeInBytes : Nat) : Option D3D12BufferRegion :=
  if offset < region.sizeInBytes then
    let size := if sizeInBytes = 0 then region.sizeInBytes - offset else sizeInBytes
    if size ≤ region.sizeInBytes - offset then
      D3D12BufferRegion.create (region.offset + offset) size region.width
    else none
  else none

/-- What a run of the recorded commands leaves of a destination, given the source. -/
abbrev Transfer := Option (ByteBuffer → ByteBuffer → ByteBuffer)

/-- The destination has the bytes of the source, and no other byte changes. -/
def Copies (transfer : Transfer) (srcOffset dstOffset size : Nat) : Prop :=
  ∃ write, transfer = some write ∧ ∀ source, Sets (write source) dstOffset size fun k =>
    source (srcOffset + k)

/-- What `Reserve` finds in a chunk of an upload heap or of a readback heap. -/
structure Reserved (size : Nat) where
  offset : Nat
  capacity : Nat
  content : ByteBuffer
  room : offset + size ≤ capacity

section

variable {size : Nat}

def Reserved.beginUploadToGpu (upload : Reserved size) (dst : D3D12BufferRegion) : Transfer := do
  let uploadResource ← D3D12BufferRegion.create upload.offset size upload.capacity
  let command ← copyBufferRegion dst uploadResource
  some fun src =>
    command.execute (fill upload.offset size (fun p => src (p - upload.offset)) upload.content)

/-- `ReadbackFromGpu`, to memory of the host that starts at the offset zero. -/
def Reserved.readbackFromGpu (readback : Reserved size) (src : D3D12BufferRegion) : Transfer := do
  let readbackResource ← D3D12BufferRegion.create readback.offset size readback.capacity
  let command ← copyBufferRegion readbackResource (← subregion src 0 size)
  some fun source => fill 0 size fun k =>
    command.execute source readback.content (readback.offset + k)

end

namespace Memory

def offset (memory : Destination) : Nat := (TaggedPointer.unpack memory.location).offset

/-- `GetBufferForDeviceMemory` and `GetBufferForTensor`. -/
def buffer (memory : Destination) : Option D3D12BufferRegion :=
  getBufferForOpaqueData memory.allocator memory.location memory.size

/-- The allocation has room for the size when it is rounded up. -/
def RoundedFits (memory : Destination) : Prop :=
  ∃ width, memory.allocator.allocationsById.lookup
      (TaggedPointer.unpack memory.location).allocationId = some width ∧
    offset memory + (memory.size + 3) / 4 * 4 ≤ width

end Memory

open Memory

/-- A copy. `plugin_memcpy_dtod` goes through the host if the devices differ. -/
inductive Call where
  | memoryInSameDevice (src dst : Destination) (same : src.size = dst.size)
  | acrossDevices (src dst : Destination) (same : src.size = dst.size) (host : ByteBuffer)
      (readback : Reserved src.size) (upload : Reserved dst.size)
  | tensorInSameDevice (src dst : Destination) (covers : dst.size ≤ src.size)
  | hostToDevice (dst : Destination) (upload : Reserved dst.size)
  | deviceToHost (src : Destination) (readback : Reserved src.size)

namespace Call

def size : Call → Nat
  | memoryInSameDevice _ dst _ | acrossDevices _ dst _ _ _ _ | tensorInSameDevice _ dst _
  | hostToDevice dst _ => dst.size
  | deviceToHost src _ => src.size

def transfer : Call → Transfer
  | memoryInSameDevice src dst _ => do
    (copyBufferRegion (← buffer dst) (← buffer src)).map CopyCommand.execute
  | acrossDevices src dst _ host readback upload => do
    let read ← readback.readbackFromGpu (← buffer src)
    let write ← upload.beginUploadToGpu (← buffer dst)
    some fun source => write (read source host)
  | tensorInSameDevice src dst _ => do
    (copyBufferRegion (← buffer dst) (← subregion (← buffer src) 0 dst.size)).map
      CopyCommand.execute
  | hostToDevice dst upload => do upload.beginUploadToGpu (← buffer dst)
  | deviceToHost src readback => do readback.readbackFromGpu (← buffer src)

def run (call : Call) : Transfer :=
  if call.size = 0 then some fun _ content => content else call.transfer

def srcOffset : Call → Nat
  | memoryInSameDevice src _ _ | acrossDevices src _ _ _ _ _ | tensorInSameDevice src _ _
  | deviceToHost src _ => offset src
  | hostToDevice _ _ => 0

def dstOffset : Call → Nat
  | memoryInSameDevice _ dst _ | acrossDevices _ dst _ _ _ _ | tensorInSameDevice _ dst _
  | hostToDevice dst _ => offset dst
  | deviceToHost _ _ => 0

def Exact (call : Call) : Prop := Copies call.run call.srcOffset call.dstOffset call.size

def Served : Call → Prop
  | memoryInSameDevice _ dst _ => 4 ∣ dst.size
  | acrossDevices src dst _ _ _ _ | tensorInSameDevice src dst _ => RoundedFits src ∧ RoundedFits dst
  | hostToDevice memory _ | deviceToHost memory _ => RoundedFits memory

end Call

section

variable {memory : Destination}

theorem buffer_cases (pos : memory.size ≠ 0) {region : D3D12BufferRegion}
    (got : buffer memory = some region) : RoundedFits memory ∧ region.offset = offset memory ∧
      region.sizeInBytes = (memory.size + 3) / 4 * 4 := by
  obtain ⟨nonnull, width, small, found, room⟩ := memory.allocated pos
  simp only [buffer, getBufferForOpaqueData, createBufferRegion, if_neg nonnull, found,
    D3D12BufferRegion.create] at got
  split at got
  case isTrue checks =>
    cases got
    rw [u64] at checks
    refine ⟨⟨width, found, ?_⟩, rfl, ?_⟩
    · rw [offset]
      omega
    · change u64 ((1 + (memory.size - 1) / 4) * 4) = _
      rw [u64]
      omega
  case isFalse => cases got

theorem buffer_of_fits (pos : memory.size ≠ 0) (fits : RoundedFits memory) :
    ∃ region, buffer memory = some region ∧ region.offset = offset memory ∧
      region.sizeInBytes = (memory.size + 3) / 4 * 4 := by
  obtain ⟨width, found, room⟩ := fits
  obtain ⟨nonnull, width', small, found', -⟩ := memory.allocated pos
  obtain rfl : width' = width := Option.some.inj (found'.symm.trans found)
  have whole : u64 ((1 + (memory.size - 1) / 4) * 4) = (memory.size + 3) / 4 * 4 := by
    rw [u64]
    omega
  simp only [buffer, getBufferForOpaqueData, createBufferRegion, if_neg nonnull, found, whole]
  exact ⟨_, create_eq (by omega) room, rfl, rfl⟩

theorem fits_of_dvd (pos : memory.size ≠ 0) (aligned : 4 ∣ memory.size) : RoundedFits memory := by
  obtain ⟨-, width, -, found, room⟩ := memory.allocated pos
  refine ⟨width, found, ?_⟩
  rw [offset]
  omega

theorem copies_bind_iff (pos : memory.size ≠ 0) {rest : D3D12BufferRegion → Transfer}
    {start stop size : Nat} {p : Prop} (copies : ∀ region, region.offset = offset memory →
      region.sizeInBytes = (memory.size + 3) / 4 * 4 → (Copies (rest region) start stop size ↔ p)) :
    Copies (buffer memory >>= rest) start stop size ↔ RoundedFits memory ∧ p := by
  constructor
  · rintro ⟨write, made, sets⟩
    obtain ⟨region, got, made⟩ := Option.bind_eq_some_iff.mp made
    obtain ⟨fits, place, whole⟩ := buffer_cases pos got
    exact ⟨fits, (copies region place whole).mp ⟨write, made, sets⟩⟩
  · rintro ⟨fits, holds⟩
    obtain ⟨region, got, place, whole⟩ := buffer_of_fits pos fits
    rw [got]
    exact (copies region place whole).mpr holds

theorem copies_bind (pos : memory.size ≠ 0) {rest : D3D12BufferRegion → Transfer}
    {start stop size : Nat} (copies : ∀ region, region.offset = offset memory →
      region.sizeInBytes = (memory.size + 3) / 4 * 4 → Copies (rest region) start stop size) :
    Copies (buffer memory >>= rest) start stop size ↔ RoundedFits memory :=
  (copies_bind_iff pos fun region place whole => iff_true_intro (copies region place whole)).trans
    (iff_of_eq (and_true _))

end

section

variable {size : Nat} (region : D3D12BufferRegion)

theorem subregion_eq (pos : size ≠ 0) (le : size ≤ region.sizeInBytes) :
    ∃ part, subregion region 0 size = some part ∧ part.offset = region.offset ∧
      part.sizeInBytes = size := by
  have room := region.inside
  refine ⟨⟨region.offset, size, region.width, pos, by omega⟩, ?_, rfl, rfl⟩
  rw [subregion, if_pos (by omega), if_neg pos, if_pos (by omega)]
  exact create_eq pos (by omega)

theorem copies_iff (src : D3D12BufferRegion) (pos : size ≠ 0)
    (le : src.sizeInBytes ≤ region.sizeInBytes) :
    Copies ((copyBufferRegion region src).map CopyCommand.execute) src.offset region.offset size ↔
      src.sizeInBytes = size := by
  have pos := Nat.pos_of_ne_zero pos
  rw [copyBufferRegion, if_pos le]
  constructor
  · rintro ⟨_, ⟨⟩, sets⟩
    exact ((fill_sets_iff pos).mp (sets fun _ => 0)).2.1
  · intro whole
    refine ⟨_, rfl, fun source => (fill_sets_iff pos).mpr ⟨rfl, whole, fun k _ => ?_⟩⟩
    rw [Nat.add_sub_cancel_left]

theorem upload_copies (upload : Reserved size) (pos : size ≠ 0) (le : size ≤ region.sizeInBytes) :
    Copies (upload.beginUploadToGpu region) 0 region.offset size := by
  obtain ⟨write, made, sets⟩ :=
    (copies_iff region ⟨_, size, _, pos, upload.room⟩ pos le).mpr rfl
  obtain ⟨command, copied, rfl⟩ := Option.map_eq_some_iff.mp made
  rw [Reserved.beginUploadToGpu, create_eq pos upload.room, Option.bind_eq_bind, Option.bind_some,
    copied]
  refine ⟨_, rfl, fun source content => ⟨fun k less => ?_, (sets _ content).2⟩⟩
  have inside : upload.offset ≤ upload.offset + k ∧ upload.offset + k < upload.offset + size := by
    omega
  refine ((sets _ content).1 k less).trans ((fill_of_inside _ inside).trans (congrArg source ?_))
  omega

theorem readback_copies (readback : Reserved size) (pos : size ≠ 0)
    (le : size ≤ region.sizeInBytes) :
    Copies (readback.readbackFromGpu region) region.offset 0 size := by
  obtain ⟨part, got, start, whole⟩ := subregion_eq region pos le
  obtain ⟨write, made, sets⟩ :=
    (copies_iff ⟨_, size, _, pos, readback.room⟩ part pos whole.le).mpr whole
  obtain ⟨command, copied, rfl⟩ := Option.map_eq_some_iff.mp made
  rw [Reserved.readbackFromGpu, create_eq pos readback.room, Option.bind_eq_bind, Option.bind_some,
    got, Option.bind_eq_bind, Option.bind_some, copied]
  refine ⟨_, rfl, fun source => (fill_sets_iff (Nat.pos_of_ne_zero pos)).mpr ⟨rfl, rfl, ?_⟩⟩
  intro k less
  rw [zero_add, (sets source _).1 k less, start]

end

namespace Call

/-- A copy is exact if it is empty, or if the rounded regions fit and give no size. -/
theorem exact_iff_served (call : Call) : call.Exact ↔ call.size = 0 ∨ call.Served := by
  rcases eq_or_ne call.size 0 with empty | pos
  · refine iff_of_true ?_ (Or.inl empty)
    rw [Exact, run, if_pos empty, empty]
    exact ⟨_, rfl, fun _ => sets_zero (fun _ => rfl) _ _⟩
  rw [or_iff_right pos, Exact, run, if_neg pos]
  cases call with
  | memoryInSameDevice src dst same =>
    have pos : dst.size ≠ 0 := pos
    have readable : src.size ≠ 0 := same.trans_ne pos
    have rounds : Copies (transfer (memoryInSameDevice src dst same)) (offset src) (offset dst)
        dst.size ↔ RoundedFits dst ∧ RoundedFits src ∧ 4 ∣ dst.size :=
      copies_bind_iff pos fun target there room =>
        copies_bind_iff readable fun source here whole => by
          rw [← here, ← there, copies_iff target source pos (by omega)]
          omega
    refine rounds.trans ⟨fun all => all.2.2, fun (aligned : 4 ∣ dst.size) => ?_⟩
    exact ⟨fits_of_dvd pos aligned, fits_of_dvd readable (by rwa [same]), aligned⟩
  | acrossDevices src dst same host readback upload =>
    have pos : dst.size ≠ 0 := pos
    have readable : src.size ≠ 0 := same.trans_ne pos
    refine copies_bind_iff readable fun source here whole => ?_
    obtain ⟨read, made, reads⟩ := readback_copies source readback readable (by omega)
    rw [made]
    refine copies_bind pos fun target there room => ?_
    obtain ⟨write, made, writes⟩ := upload_copies target upload pos (by omega)
    rw [made]
    refine ⟨_, rfl, fun bytes content => ?_⟩
    obtain ⟨written, kept⟩ := writes (read bytes host) content
    rw [there] at written kept
    refine ⟨fun k less => (written k less).trans ?_, kept⟩
    have got := (reads bytes host).1 k (same ▸ less)
    rwa [here] at got
  | tensorInSameDevice src dst covers =>
    have pos : dst.size ≠ 0 := pos
    have readable : src.size ≠ 0 := by omega
    refine Iff.trans (copies_bind_iff pos fun target there room =>
      copies_bind readable fun source here whole => ?_) and_comm
    obtain ⟨part, got, first, size⟩ := subregion_eq source pos (by omega)
    rw [got]
    have copies := (copies_iff target part pos (by omega)).mpr size
    rwa [first, here, there] at copies
  | hostToDevice dst upload =>
    refine copies_bind pos fun target there room => ?_
    have copies := upload_copies target upload pos (by omega)
    rwa [there] at copies
  | deviceToHost src readback =>
    refine copies_bind pos fun source here room => ?_
    have copies := readback_copies source readback pos (by omega)
    rwa [here] at copies

end Call

end TfDml.BufferCopy
