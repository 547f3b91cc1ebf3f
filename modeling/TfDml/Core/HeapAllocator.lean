import TfDml.Core.Common
import TfDml.Lib.Run
import Mathlib.Data.List.AList
import Mathlib.Data.List.Range
import Mathlib.Data.Nat.Bitwise

/-! # The heap allocators

`D3D12HeapAllocator` and `D3D12DescriptorHeapAllocator` number their allocations
and hand out pointers that carry the number. A freed number goes to a list from
which the next allocation takes it again. The lock is held from taking a number
to storing the allocation, so a call is one step.
-/

namespace TfDml

/-- The parts of a pointer: 4 bits of device, 20 bits of allocation, 40 bits of offset. -/
structure TaggedPointer where
  deviceId : Nat
  allocationId : Nat
  offset : Nat
  deriving DecidableEq, Repr

namespace TaggedPointer

def kDeviceIdBits : Nat := 4
def kAllocationIdBits : Nat := 20
def kOffsetBits : Nat := 40

def unpack (ptr : Nat) : TaggedPointer where
  deviceId := (ptr >>> (kAllocationIdBits + kOffsetBits)) % 2 ^ kDeviceIdBits
  allocationId := (ptr >>> kOffsetBits) &&& (2 ^ kAllocationIdBits - 1)
  offset := ptr &&& (2 ^ kOffsetBits - 1)

/-- The shifts are those of `uint64_t`. -/
def pack (deviceId allocationId offset : Nat) : Nat :=
  u64 (deviceId <<< (kAllocationIdBits + kOffsetBits)) ||| u64 (allocationId <<< kOffsetBits) |||
    offset

variable {allocationId offset : Nat}

theorem pack_eq (deviceId : Nat) (small : allocationId < 2 ^ kAllocationIdBits)
    (lt : offset < 2 ^ kOffsetBits) : pack deviceId allocationId offset =
      (deviceId % 2 ^ kDeviceIdBits) * 2 ^ (kAllocationIdBits + kOffsetBits) +
        (allocationId * 2 ^ kOffsetBits + offset) := by
  have device : u64 (deviceId <<< (kAllocationIdBits + kOffsetBits)) =
      (deviceId % 2 ^ kDeviceIdBits) <<< (kAllocationIdBits + kOffsetBits) := by
    simp only [u64, Nat.shiftLeft_eq, kDeviceIdBits, kAllocationIdBits, kOffsetBits]
    omega
  have allocation : u64 (allocationId <<< kOffsetBits) = allocationId <<< kOffsetBits := by
    simp only [u64, Nat.shiftLeft_eq, kAllocationIdBits, kOffsetBits] at small ⊢
    omega
  have low : allocationId <<< kOffsetBits + offset < 2 ^ (kAllocationIdBits + kOffsetBits) := by
    simp only [Nat.shiftLeft_eq, kAllocationIdBits, kOffsetBits] at small lt ⊢
    omega
  rw [pack, device, allocation, Nat.or_assoc, ← Nat.shiftLeft_add_eq_or_of_lt lt,
    ← Nat.shiftLeft_add_eq_or_of_lt low, Nat.shiftLeft_eq, Nat.shiftLeft_eq]

theorem unpack_pack (deviceId : Nat) (small : allocationId < 2 ^ kAllocationIdBits)
    (lt : offset < 2 ^ kOffsetBits) : unpack (pack deviceId allocationId offset) =
      ⟨deviceId % 2 ^ kDeviceIdBits, allocationId, offset⟩ := by
  rw [pack_eq deviceId small lt]
  simp only [unpack, Nat.and_two_pow_sub_one_eq_mod, Nat.shiftRight_eq_div_pow,
    TaggedPointer.mk.injEq, kDeviceIdBits, kAllocationIdBits, kOffsetBits] at small lt ⊢
  omega

theorem pack_add (deviceId : Nat) (small : allocationId < 2 ^ kAllocationIdBits)
    (lt : offset < 2 ^ kOffsetBits) :
    pack deviceId allocationId 0 + offset = pack deviceId allocationId offset := by
  rw [pack_eq deviceId small (by decide), pack_eq deviceId small lt]
  omega

end TaggedPointer

namespace HeapAllocator

open Lib TaggedPointer

structure Allocator (ρ : Type) where
  currentAllocationId : Nat := 0
  freeAllocationIds : List Nat := []
  allocationsById : AList (fun _ : Nat => ρ) := ∅

variable {ρ : Type}

def kMaxAllocationId : Nat := 2 ^ kAllocationIdBits - 1

/-- Takes the last id of the free list, or else the next new one. -/
def tryReserveAllocationId (h : Allocator ρ) : Option Nat × Allocator ρ :=
  match h.freeAllocationIds.getLast? with
  | some id => (some id, { h with freeAllocationIds := h.freeAllocationIds.dropLast })
  | none =>
    if h.currentAllocationId = kMaxAllocationId then (none, h)
    else
      (some (h.currentAllocationId + 1),
        { h with currentAllocationId := h.currentAllocationId + 1 })

def releaseAllocationId (h : Allocator ρ) (id : Nat) : Allocator ρ :=
  { h with freeAllocationIds := h.freeAllocationIds ++ [id] }

/-- `emplace` of the hash map: an existing entry stays. -/
def emplace (h : Allocator ρ) (id : Nat) (allocation : ρ) : Allocator ρ :=
  if id ∈ h.allocationsById then h
  else { h with allocationsById := h.allocationsById.insert id allocation }

/-- `Alloc`, given what the device answers; the pointer is 0 when it fails. -/
def allocWith (h : Allocator ρ) (deviceId size : Nat) (created : Option ρ) : Nat × Allocator ρ :=
  if size = 0 then (0, h)
  else
    match created with
    | none => (0, h)
    | some allocation =>
      match tryReserveAllocationId h with
      | (none, h) => (0, h)
      | (some id, h) => (pack deviceId id 0, emplace h id allocation)

/-- `Free`; there is no result if one of its checks fails. -/
def free (h : Allocator ρ) (ptr : Nat) : Option (Allocator ρ) :=
  let taggedPtr := unpack ptr
  if ptr = 0 ∨ taggedPtr.offset ≠ 0 ∨ taggedPtr.allocationId ∉ h.allocationsById then none
  else
    let h := releaseAllocationId h taggedPtr.allocationId
    some { h with allocationsById := h.allocationsById.erase taggedPtr.allocationId }

/-- What a call asks for, and what the device would answer to it. -/
structure Request (ρ : Type) where
  deviceId : Nat
  size : Nat
  tiled : Option ρ
  untiled : Option ρ
  descriptorHeap : Option ρ

/-- Which of the two allocators it is, with the constant members that `Alloc` reads. -/
inductive Kind where
  | d3d12Heap (tilingEnabled : Bool)
  | d3d12DescriptorHeap (deviceId : Nat)

def Kind.deviceId (request : Request ρ) : Kind → Nat
  | .d3d12Heap _ => request.deviceId
  | .d3d12DescriptorHeap deviceId => deviceId

def alloc (h : Allocator ρ) (request : Request ρ) : Kind → Nat × Allocator ρ
  | .d3d12Heap tilingEnabled =>
    allocWith h request.deviceId request.size
      (if tilingEnabled then request.tiled else request.untiled)
  | .d3d12DescriptorHeap deviceId => allocWith h deviceId request.size request.descriptorHeap

/-- A pointer that was returned and not freed yet. -/
structure Live where
  pointer : Nat
  deviceId : Nat
  allocationId : Nat
  deriving DecidableEq

structure State (ρ : Type) where
  allocator : Allocator ρ := {}
  live : List Live := []

inductive Action (ρ : Type) where
  | alloc (request : Request ρ)
  | free (ptr : Nat)

/-- `Free` is only given live pointers. -/
def step (kind : Kind) (s : State ρ) : Action ρ → Option (State ρ)
  | .alloc request =>
    match alloc s.allocator request kind with
    | (0, allocator) => some { s with allocator := allocator }
    | (ptr, allocator) =>
      some ⟨allocator, s.live ++ [⟨ptr, kind.deviceId request, (unpack ptr).allocationId⟩]⟩
  | .free ptr =>
    if ptr ∈ s.live.map Live.pointer then
      (free s.allocator ptr).map fun allocator =>
        ⟨allocator, s.live.filter (·.pointer ≠ ptr)⟩
    else none

/-- The numbers of the live allocations and the free list are together the numbers that
    were ever given out, each once. -/
structure Invariant (s : State ρ) : Prop where
  ids : (s.live.map Live.allocationId ++ s.allocator.freeAllocationIds).Perm
    (List.range' 1 s.allocator.currentAllocationId)
  bound : s.allocator.currentAllocationId ≤ kMaxAllocationId
  stored : ∀ id, id ∈ s.allocator.allocationsById ↔ id ∈ s.live.map Live.allocationId
  packed : ∀ l ∈ s.live, l.pointer = pack l.deviceId l.allocationId 0

theorem invariant_init : Invariant ({} : State ρ) where
  ids := by simp
  bound := Nat.zero_le _
  stored := by simp
  packed := by simp

variable {s t : State ρ}

variable {id : Nat}

theorem Invariant.id_range (inv : Invariant s)
    (mem : id ∈ s.live.map Live.allocationId ++ s.allocator.freeAllocationIds) :
    1 ≤ id ∧ id ≤ s.allocator.currentAllocationId := by
  have lt := inv.ids.mem_iff.mp mem
  rw [List.mem_range'_1] at lt
  omega

theorem Invariant.nodup (inv : Invariant s) :
    (s.live.map Live.allocationId ++ s.allocator.freeAllocationIds).Nodup :=
  inv.ids.nodup_iff.mpr List.nodup_range'

variable {l : Live}

theorem Invariant.live_id (inv : Invariant s) (mem : l ∈ s.live) :
    1 ≤ l.allocationId ∧ l.allocationId < 2 ^ kAllocationIdBits := by
  have range := inv.id_range (List.mem_append_left _ (List.mem_map_of_mem mem))
  have bound := inv.bound
  simp only [kMaxAllocationId, kAllocationIdBits] at bound ⊢
  omega

variable {offset : Nat}

theorem Invariant.unpack_add (inv : Invariant s) (mem : l ∈ s.live)
    (lt : offset < 2 ^ kOffsetBits) :
    unpack (l.pointer + offset) = ⟨l.deviceId % 2 ^ kDeviceIdBits, l.allocationId, offset⟩ := by
  have small := (inv.live_id mem).2
  rw [inv.packed l mem, pack_add l.deviceId small lt, unpack_pack l.deviceId small lt]

theorem Invariant.unpack_pointer (inv : Invariant s) (mem : l ∈ s.live) :
    unpack l.pointer = ⟨l.deviceId % 2 ^ kDeviceIdBits, l.allocationId, 0⟩ := by
  have start : 0 < 2 ^ kOffsetBits := by decide
  rw [← inv.unpack_add mem start, add_zero]

variable {m : Live}

theorem Invariant.apart (inv : Invariant s) (first : l ∈ s.live) (snd : m ∈ s.live) {o₁ o₂ : Nat}
    (lt₁ : o₁ < 2 ^ kOffsetBits) (lt₂ : o₂ < 2 ^ kOffsetBits)
    (same : l.pointer + o₁ = m.pointer + o₂) : l = m := by
  have parts := congrArg unpack same
  rw [inv.unpack_add first lt₁, inv.unpack_add snd lt₂] at parts
  have ids : l.allocationId = m.allocationId := congrArg TaggedPointer.allocationId parts
  exact List.inj_on_of_nodup_map (List.Nodup.of_append_left inv.nodup) first snd ids

theorem pack_ne_zero (deviceId : Nat) (pos : 1 ≤ id) (lt : id < 2 ^ kAllocationIdBits) :
    pack deviceId id 0 ≠ 0 := by
  rw [pack_eq deviceId lt (by decide)]
  simp only [kOffsetBits]
  omega

variable {a b : Allocator ρ} {liveIds : List Nat}

theorem tryReserve_some
    (ids : (liveIds ++ a.freeAllocationIds).Perm (List.range' 1 a.currentAllocationId))
    (bound : a.currentAllocationId ≤ kMaxAllocationId)
    (reserved : tryReserveAllocationId a = (some id, b)) :
    ((liveIds ++ [id]) ++ b.freeAllocationIds).Perm (List.range' 1 b.currentAllocationId) ∧
      b.currentAllocationId ≤ kMaxAllocationId ∧ b.allocationsById = a.allocationsById := by
  unfold tryReserveAllocationId at reserved
  cases last : a.freeAllocationIds.getLast? with
  | some free =>
    simp only [last, Prod.mk.injEq, Option.some.injEq] at reserved
    obtain ⟨rfl, rfl⟩ := reserved
    refine ⟨?_, bound, rfl⟩
    have split := List.dropLast_append_getLast? free (Option.mem_def.mpr last)
    rw [← split] at ids
    refine List.Perm.trans ?_ ids
    rw [List.append_assoc]
    exact List.perm_append_comm.append_left _
  | none =>
    have empty : a.freeAllocationIds = [] := List.getLast?_eq_none_iff.mp last
    simp only [last] at reserved
    split at reserved
    · cases reserved
    · rename_i below
      simp only [Prod.mk.injEq, Option.some.injEq] at reserved
      obtain ⟨rfl, rfl⟩ := reserved
      refine ⟨?_, by dsimp only; omega, rfl⟩
      rw [empty, List.append_nil] at ids
      rw [empty, List.append_nil, List.range'_concat, one_mul, add_comm 1]
      exact ids.append_right _

theorem tryReserve_fresh
    (ids : (liveIds ++ a.freeAllocationIds).Perm (List.range' 1 a.currentAllocationId))
    (bound : a.currentAllocationId ≤ kMaxAllocationId)
    (reserved : tryReserveAllocationId a = (some id, b)) :
    1 ≤ id ∧ id < 2 ^ kAllocationIdBits ∧ id ∉ liveIds := by
  obtain ⟨ids, bound, -⟩ := tryReserve_some ids bound reserved
  have lt : id ∈ List.range' 1 b.currentAllocationId := ids.mem_iff.mp (by simp)
  rw [List.mem_range'_1] at lt
  simp only [kMaxAllocationId, kAllocationIdBits] at bound ⊢
  refine ⟨by omega, by omega, fun old => ?_⟩
  have nodup := (ids.nodup_iff.mpr List.nodup_range').of_append_left
  exact (List.nodup_append.mp nodup).2.2 id old id (by simp) rfl

theorem tryReserve_none (full : tryReserveAllocationId a = (none, b)) : b = a := by
  unfold tryReserveAllocationId at full
  split at full
  · cases full
  · split at full
    · exact (congrArg Prod.snd full).symm
    · cases full

theorem allocWith_cases (a : Allocator ρ) (deviceId size : Nat) (new : Option ρ) :
    allocWith a deviceId size new = (0, a) ∨
      ∃ id b allocation, tryReserveAllocationId a = (some id, b) ∧ new = some allocation ∧
        allocWith a deviceId size new = (pack deviceId id 0, emplace b id allocation) := by
  unfold allocWith
  split
  · exact Or.inl rfl
  · cases new with
    | none => exact Or.inl rfl
    | some allocation =>
      cases reserved : tryReserveAllocationId a with
      | mk id b =>
        cases id with
        | none => exact Or.inl (by simp [tryReserve_none reserved])
        | some id => exact Or.inr ⟨id, b, allocation, rfl, rfl, rfl⟩

theorem Invariant.alloc (inv : Invariant s) {deviceId size : Nat} {created : Option ρ}
    {ptr : Nat} {allocator : Allocator ρ}
    (result : allocWith s.allocator deviceId size created = (ptr, allocator)) :
    ptr = 0 ∧ allocator = s.allocator ∨ ptr ≠ 0 ∧
      Invariant ⟨allocator, s.live ++ [⟨ptr, deviceId, (TaggedPointer.unpack ptr).allocationId⟩]⟩ := by
  rcases allocWith_cases s.allocator deviceId size created with
    err | ⟨id, b, allocation, reserved, -, placed⟩
  · rw [result] at err
    exact Or.inl (Prod.mk.inj err)
  · rw [result] at placed
    obtain ⟨rfl, rfl⟩ := Prod.mk.inj placed
    obtain ⟨ids, bound, table⟩ := tryReserve_some inv.ids inv.bound reserved
    obtain ⟨pos, lt, notLive⟩ := tryReserve_fresh inv.ids inv.bound reserved
    have new : id ∉ b.allocationsById := by
      rw [table, inv.stored]
      exact notLive
    have parts := unpack_pack deviceId lt (by decide : 0 < 2 ^ kOffsetBits)
    refine Or.inr ⟨pack_ne_zero deviceId pos lt, ?_⟩
    rw [parts, emplace, if_neg new]
    refine ⟨?_, bound, ?_, ?_⟩
    · simpa using ids
    · intro other
      simp [AList.mem_insert, table, inv.stored, or_comm]
    · intro l mem
      rcases List.mem_append.mp mem with old | new
      · exact inv.packed l old
      · obtain rfl := List.mem_singleton.mp new
        rfl

theorem Invariant.pointer_inj (inv : Invariant s) (first : l ∈ s.live) (snd : m ∈ s.live)
    (same : l.pointer = m.pointer) : l = m := by
  have start : 0 < 2 ^ kOffsetBits := by decide
  exact inv.apart first snd start start (by rw [same])

theorem Invariant.live_nodup (inv : Invariant s) : s.live.Nodup :=
  (List.Nodup.of_append_left inv.nodup).of_map _

theorem Invariant.live_split (inv : Invariant s) (mem : l ∈ s.live) :
    s.live.Perm (l :: s.live.filter (·.pointer ≠ l.pointer)) := by
  have others : s.live.filter (·.pointer ≠ l.pointer) = s.live.erase l := by
    rw [inv.live_nodup.erase_eq_filter]
    apply List.filter_congr
    intro m lt
    have same : m.pointer = l.pointer ↔ m = l := ⟨inv.pointer_inj lt mem, fun eq => by rw [eq]⟩
    simp [bne, same, beq_eq_decide]
  rw [others]
  exact List.perm_cons_erase mem

theorem Invariant.free (inv : Invariant s) (mem : l ∈ s.live) :
    ∃ allocator, free s.allocator l.pointer = some allocator ∧
      Invariant ⟨allocator, s.live.filter (·.pointer ≠ l.pointer)⟩ := by
  have parts := inv.unpack_pointer mem
  have put : l.allocationId ∈ s.allocator.allocationsById :=
    (inv.stored _).mpr (List.mem_map_of_mem mem)
  have nonzero : l.pointer ≠ 0 := by
    rw [inv.packed l mem]
    exact pack_ne_zero l.deviceId (inv.live_id mem).1 (inv.live_id mem).2
  have passes : ¬ (l.pointer = 0 ∨ (TaggedPointer.unpack l.pointer).offset ≠ 0 ∨
      (TaggedPointer.unpack l.pointer).allocationId ∉ s.allocator.allocationsById) := by
    simp [parts, nonzero, put]
  have split := (inv.live_split mem).map Live.allocationId
  have ids := inv.ids
  refine ⟨_, if_neg passes, ?_, inv.bound, ?_, ?_⟩
  · simp only [releaseAllocationId, parts]
    refine List.Perm.trans ?_ ids
    refine List.Perm.trans ?_ (split.symm.append_right _)
    rw [← List.append_assoc]
    exact List.perm_append_singleton _ _
  · intro id
    have nodup := split.nodup_iff.mp (List.Nodup.of_append_left inv.nodup)
    have others : id ∈ s.live.map Live.allocationId ↔ id = l.allocationId ∨
        id ∈ (s.live.filter (·.pointer ≠ l.pointer)).map Live.allocationId := by
      rw [split.mem_iff, List.map_cons, List.mem_cons]
    rw [List.map_cons, List.nodup_cons] at nodup
    simp only [parts, AList.mem_erase, releaseAllocationId, inv.stored, others]
    constructor
    · rintro ⟨ne, same | inside⟩
      · exact absurd same ne
      · exact inside
    · intro inside
      refine ⟨?_, Or.inr inside⟩
      rintro rfl
      exact nodup.1 inside
  · intro m inside
    exact inv.packed m (List.mem_of_mem_filter inside)

theorem step_invariant (kind : Kind) (s : State ρ) (a : Action ρ) (t : State ρ)
    (inv : Invariant s) (taken : step kind s a = some t) : Invariant t := by
  cases a with
  | alloc request =>
    have result : ∃ created, alloc s.allocator request kind =
        allocWith s.allocator (kind.deviceId request) request.size created := by
      cases kind with
      | d3d12Heap => exact ⟨_, rfl⟩
      | d3d12DescriptorHeap => exact ⟨_, rfl⟩
    obtain ⟨created, result⟩ := result
    cases ret : alloc s.allocator request kind with
    | mk ptr allocator =>
      rw [ret] at result
      rcases inv.alloc result.symm with ⟨rfl, rfl⟩ | ⟨ne, next⟩
      · simp only [step, ret, Option.some.injEq] at taken
        exact taken ▸ inv
      · simp only [step, ret, Option.some.injEq] at taken
        exact taken ▸ next
  | free ptr =>
    simp only [step, Option.ite_none_right_eq_some, List.mem_map] at taken
    obtain ⟨⟨l, mem, rfl⟩, freed⟩ := taken
    obtain ⟨allocator, result, next⟩ := inv.free mem
    rw [result, Option.map_some, Option.some.injEq] at freed
    exact freed ▸ next

structure Guarantee (s : State ρ) : Prop where
  distinct : (s.live.map Live.allocationId).Nodup
  range : ∀ l ∈ s.live, 1 ≤ l.allocationId ∧ l.allocationId ≤ 2 ^ 20 - 1
  free_nodup : s.allocator.freeAllocationIds.Nodup
  disjoint : ∀ l ∈ s.live, l.allocationId ∉ s.allocator.freeAllocationIds
  kept : ∀ id, 1 ≤ id → id ≤ s.allocator.currentAllocationId →
    id ∈ s.live.map Live.allocationId ∨ id ∈ s.allocator.freeAllocationIds
  pointers : (s.live.map Live.pointer).Nodup
  nonnull : ∀ l ∈ s.live, l.pointer ≠ 0
  device : ∀ l ∈ s.live, l.deviceId < 2 ^ 4 → (unpack l.pointer).deviceId = l.deviceId
  interior : ∀ l ∈ s.live, ∀ offset < 2 ^ 40, l.pointer + offset < 2 ^ 64 ∧
    unpack (l.pointer + offset) = ⟨(unpack l.pointer).deviceId, l.allocationId, offset⟩
  apart : ∀ l ∈ s.live, ∀ m ∈ s.live, l ≠ m → ∀ o₁ < 2 ^ 40, ∀ o₂ < 2 ^ 40,
    l.pointer + o₁ ≠ m.pointer + o₂
  freeable : ∀ l ∈ s.live, (free s.allocator l.pointer).isSome

theorem Invariant.interior (inv : Invariant s) (mem : l ∈ s.live)
    (lt : offset < 2 ^ kOffsetBits) : l.pointer + offset < 2 ^ 64 := by
  have small := (inv.live_id mem).2
  rw [inv.packed l mem, pack_add l.deviceId small lt, pack_eq l.deviceId small lt]
  simp only [kDeviceIdBits, kAllocationIdBits, kOffsetBits] at small lt ⊢
  omega

/-- In every run of either allocator, ids and pointers are well kept. -/
theorem allocations_distinct (kind : Kind) {actions : List (Action ρ)} {s : State ρ}
    (reached : run (step kind) {} actions = some s) : Guarantee s := by
  have inv : Invariant s := run_invariant (step_invariant kind) invariant_init reached
  obtain ⟨nodup, free_nodup, apart⟩ := List.nodup_append.mp inv.nodup
  constructor
  · exact nodup
  · intro l mem
    have small := inv.live_id mem
    simp only [kAllocationIdBits] at small
    omega
  · exact free_nodup
  · intro l mem inFree
    exact apart _ (List.mem_map_of_mem mem) _ inFree rfl
  · intro id pos upTo
    have given : id ∈ List.range' 1 s.allocator.currentAllocationId := by
      rw [List.mem_range'_1]
      omega
    exact List.mem_append.mp (inv.ids.mem_iff.mpr given)
  · exact inv.live_nodup.map_on fun l first m snd same => inv.pointer_inj first snd same
  · intro l mem
    rw [inv.packed l mem]
    exact pack_ne_zero l.deviceId (inv.live_id mem).1 (inv.live_id mem).2
  · intro l mem small
    rw [inv.unpack_pointer mem]
    exact Nat.mod_eq_of_lt small
  · intro l mem offset lt
    rw [inv.unpack_add mem lt, inv.unpack_pointer mem]
    exact ⟨inv.interior mem lt, rfl⟩
  · intro l first m snd ne o₁ lt₁ o₂ lt₂ same
    exact ne (inv.apart first snd lt₁ lt₂ same)
  · intro l mem
    obtain ⟨allocator, freed, -⟩ := inv.free mem
    rw [freed]
    rfl

/-- The id of the first of three allocations is used again; one creation fails. -/
def reusedId : List (Action Unit) :=
  let request (tiled : Option Unit) : Request Unit := ⟨2, 100, tiled, none, none⟩
  [.alloc (request (some ())), .alloc (request (some ())), .alloc (request none),
    .free (pack 2 1 0), .alloc (request (some ()))]

theorem reusedId_distinct : ∃ s, run (step (.d3d12Heap true)) {} reusedId = some s ∧
      s.live = [⟨pack 2 2 0, 2, 2⟩, ⟨pack 2 1 0, 2, 1⟩] ∧ Guarantee s :=
  ⟨_, rfl, by decide, @allocations_distinct Unit (.d3d12Heap true) reusedId _ rfl⟩

end HeapAllocator

end TfDml
