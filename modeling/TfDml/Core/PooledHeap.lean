import TfDml.Core.Common
import TfDml.Lib.Run
import TfDml.Lib.Ring
import Mathlib.Data.Nat.Bitwise
import Mathlib.Algebra.BigOperators.Group.List.Basic

/-! # The pooled heap

`DmlPooledHeap` is the ring-buffer allocator below the upload and the readback
heap. A call reclaims what the GPU has finished with, reserves a range and
records it with the event after which the range is free again.
-/

namespace TfDml.PooledHeap

open Lib

def kMinChunkSize : Nat := 1024 * 1024

def kAllocationAlignment : Nat := 512

abbrev ResourceId := Nat

structure Allocation where
  sizeInBytes : Nat
  offsetInChunk : Nat
  doneEvent : DmlGpuEvent
  deriving DecidableEq, Repr

def Allocation.endInChunk (a : Allocation) : Nat := a.offsetInChunk + a.sizeInBytes

/-- A contiguous heap; its allocations are listed from least to most recent. -/
structure Chunk where
  capacityInBytes : Nat
  resource : ResourceId
  allocations : List Allocation
  deriving DecidableEq, Repr

structure DmlPooledHeap where
  chunks : List Chunk := []
  totalCapacity : Nat := 0
  deriving DecidableEq, Repr

/-- `(offset + alignment - 1) & ~(alignment - 1)` on `uint64_t`. -/
def align (offset alignment : Nat) : Nat :=
  u64 (offset + alignment - 1) &&& (uint64Max - (alignment - 1))

def findOffsetForAllocation (chunk : Chunk) (sizeInBytes : Nat) : Option Nat :=
  if chunk.capacityInBytes < sizeInBytes then none
  else
    match chunk.allocations.head?, chunk.allocations.getLast? with
    | some first, some last =>
      let newAllocationBegin :=
        align (u64 (last.offsetInChunk + last.sizeInBytes)) kAllocationAlignment
      if u64 (newAllocationBegin + sizeInBytes) < newAllocationBegin then none
      else if first.offsetInChunk ≤ last.offsetInChunk then
        if u64 (newAllocationBegin + sizeInBytes) ≤ chunk.capacityInBytes then
          some newAllocationBegin
        else if u64 (0 + sizeInBytes) ≤ first.offsetInChunk then some 0
        else none
      else if u64 (newAllocationBegin + sizeInBytes) ≤ first.offsetInChunk then
        some newAllocationBegin
      else none
    | _, _ => some 0

/-- `resource` is what `CreateCommittedResource` produced, `none` when it ran out
    of memory. -/
def createChunk (sizeInBytes : Nat) (resource : Option ResourceId) : Except Status Chunk :=
  match resource with
  | none => .error (.resourceExhausted s!"OOM when allocating a buffer of {sizeInBytes} bytes")
  | some r => .ok ⟨sizeInBytes, r, []⟩

/-- The loop of `Reserve` over the chunks: the index of the first chunk with room
    and the offset in it. -/
def findChunk : List Chunk → Nat → Option (Nat × Nat)
  | [], _ => none
  | chunk :: rest, sizeInBytes =>
    match findOffsetForAllocation chunk sizeInBytes with
    | some offset => some (0, offset)
    | none => (findChunk rest sizeInBytes).map fun (i, offset) => (i + 1, offset)

def newChunkSize (heap : DmlPooledHeap) (sizeInBytes : Nat) : Nat :=
  max heap.totalCapacity (max kMinChunkSize sizeInBytes)

/-- Finds or creates a chunk with room, and returns the chunk's index and the
    offset in it, with the heap as the call leaves it. -/
def reserve (heap : DmlPooledHeap) (sizeInBytes : Nat) (resource : Option ResourceId) :
    Except Status (Nat × Nat) × DmlPooledHeap :=
  match findChunk heap.chunks sizeInBytes with
  | some found => (.ok found, heap)
  | none =>
    match createChunk (newChunkSize heap sizeInBytes) resource with
    | .error status => (.error status, heap)
    | .ok chunk =>
      (.ok (heap.chunks.length, 0),
        { chunks := heap.chunks ++ [chunk]
          totalCapacity := u64 (heap.totalCapacity + newChunkSize heap sizeInBytes) })

def Chunk.reclaim (chunk : Chunk) (completedValue : Nat) : Chunk :=
  { chunk with
    allocations := chunk.allocations.dropWhile (·.doneEvent.isSignaled completedValue) }

/-- The fence may advance while the loop runs, so `observed i` is what it reports
    when the loop leaves chunk `i`. -/
def reclaimAllocations (heap : DmlPooledHeap) (observed : Nat → Nat) : DmlPooledHeap :=
  { heap with chunks := heap.chunks.mapIdx fun i chunk => chunk.reclaim (observed i) }

def trim (heap : DmlPooledHeap) (observed : Nat → Nat) : DmlPooledHeap :=
  let kept := (reclaimAllocations heap observed).chunks.filter (!·.allocations.isEmpty)
  { chunks := kept, totalCapacity := u64 (kept.map Chunk.capacityInBytes).sum }

/-- `chunk->allocations.push_back` on the chunk that `Reserve` pointed to. -/
def pushAllocation (heap : DmlPooledHeap) (index : Nat) (a : Allocation) : DmlPooledHeap :=
  { heap with
    chunks := heap.chunks.modify index fun chunk =>
      { chunk with allocations := chunk.allocations ++ [a] } }

/-- What an upload or a readback has to know about its environment: its size, the
    fence values seen while reclaiming, the outcome of creating a resource if
    one is needed, and the event that frees the range. -/
structure Request where
  sizeInBytes : Nat
  observed : Nat → Nat
  resource : Option ResourceId
  doneEvent : DmlGpuEvent

/-- The part that `BeginUploadToGpu` and `ReadbackFromGpu` share: reclaim,
    reserve, and record the allocation. -/
def allocate (heap : DmlPooledHeap) (request : Request) :
    Except Status (Nat × Allocation) × DmlPooledHeap :=
  match reserve (reclaimAllocations heap request.observed) request.sizeInBytes
      request.resource with
  | (.error status, heap') => (.error status, heap')
  | (.ok (index, offset), heap') =>
    let a : Allocation := ⟨request.sizeInBytes, offset, request.doneEvent⟩
    (.ok (index, a), pushAllocation heap' index a)

def beginUploadToGpu (recorderStatus : Status) (heap : DmlPooledHeap) (request : Request) :
    Except Status (Nat × Allocation) × DmlPooledHeap :=
  if recorderStatus.isOk then allocate heap request else (.error recorderStatus, heap)

def readbackFromGpu (heap : DmlPooledHeap) (request : Request) :
    Except Status (Nat × Allocation) × DmlPooledHeap :=
  allocate heap request

end TfDml.PooledHeap
