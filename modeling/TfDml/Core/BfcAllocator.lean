import TfDml.Core.HeapAllocator
import TfDml.Lib.LinkedBlocks
import TfDml.Lib.OrderedSet

/-! # The best-fit allocator of descriptors

`DmlDescriptorAllocator` is a `BFCAllocator` over the descriptor heap allocator. It
grows by regions of at most 65536 descriptors, never gives a region back, and does
not coalesce regions. Nothing sets a timestamp of a chunk, so the queue of
timestamped chunks stays empty. Every call holds the lock of the allocator; a
call that waits and retries is a number of calls of `AllocateRawInternal`.

There is no result where a `CHECK` fails.
-/

namespace TfDml.BfcAllocator

open Function

/-- An index into the vector of chunks; `kInvalidChunkHandle` is `none`. -/
abbrev ChunkHandle := Nat

def kMinAllocationBits : Nat := 8
def kMinAllocationSize : Nat := 1 <<< kMinAllocationBits
def kNumBins : Nat := 21

def kMaxAllocationSizeInDescriptors : Nat := 65536

def kMaxTotalDescriptors : Nat := uint64Max

/-- The default, as the fragmentation fraction is zero. -/
def maxInternalFragmentationBytes : Nat := 128 <<< 20

/-- A piece of a region, free or in use by one allocation. `kInvalidBinNum` is `none`. -/
structure Chunk where
  size : Nat := 0
  requestedSize : Nat := 0
  allocationId : Int := -1
  ptr : Nat := 0
  prev : Option ChunkHandle := none
  next : Option ChunkHandle := none
  binNum : Option Nat := none
  freedAtCount : Nat := 0

def Chunk.inUse (c : Chunk) : Bool := c.allocationId ≠ -1

/-- The memory of one call of `SubAllocator::Alloc`, with the handle of the chunk that
    starts at each multiple of the minimal size. -/
structure AllocationRegion where
  ptr : Nat
  memorySize : Nat
  handles : Nat → Option ChunkHandle := fun _ => none

def AllocationRegion.endPtr (r : AllocationRegion) : Nat := r.ptr + r.memorySize

def AllocationRegion.indexFor (r : AllocationRegion) (p : Nat) : Nat :=
  (p - r.ptr) >>> kMinAllocationBits

def addAllocationRegion (ptr memorySize : Nat) : List AllocationRegion → List AllocationRegion
  | [] => [⟨ptr, memorySize, fun _ => none⟩]
  | r :: rest =>
    if ptr < r.endPtr then ⟨ptr, memorySize, fun _ => none⟩ :: r :: rest
    else r :: addAllocationRegion ptr memorySize rest

/-- `regionFor` finds the first region that ends after the pointer. -/
def getHandle : List AllocationRegion → Nat → Option ChunkHandle
  | [], _ => none
  | r :: rest, p =>
    if p < r.endPtr then
      if r.ptr ≤ p then r.handles (r.indexFor p) else none
    else getHandle rest p

def setHandle (p : Nat) (h : Option ChunkHandle) :
    List AllocationRegion → Option (List AllocationRegion)
  | [] => none
  | r :: rest =>
    if p < r.endPtr then
      if r.ptr ≤ p then
        some ({ r with handles := update r.handles (r.indexFor p) h } :: rest)
      else none
    else (setHandle p h rest).map (r :: ·)

def roundedBytes (bytes : Nat) : Nat :=
  kMinAllocationSize * ((bytes + kMinAllocationSize - 1) / kMinAllocationSize)

/-- 2MiB smallest initial allocation, but not more than the maximum. -/
def initialRegionBytes : Nat :=
  min (roundedBytes (min kMaxTotalDescriptors (2 <<< 20))) kMaxAllocationSizeInDescriptors

/-- The vector of chunks is a function with `chunksSize` entries. The heaps of the
    descriptor heap allocator are given by their numbers of descriptors. -/
structure State where
  heapAllocator : HeapAllocator.Allocator Nat := {}
  currRegionAllocationBytes : Nat := initialRegionBytes
  totalRegionAllocatedBytes : Nat := 0
  startedBackpedal : Bool := false
  regions : List AllocationRegion := []
  chunks : ChunkHandle → Chunk := fun _ => {}
  chunksSize : Nat := 0
  freeChunksList : Option ChunkHandle := none
  bins : Nat → List ChunkHandle := fun _ => []
  nextAllocationId : Int := 1

def binNumForSize (bytes : Nat) : Nat :=
  min (kNumBins - 1) (Nat.log2 (max bytes 256 >>> kMinAllocationBits))

/-- The order of a bin: by size, then by address. -/
def chunkLess (chunks : ChunkHandle → Chunk) (ha hb : ChunkHandle) : Bool :=
  if (chunks ha).size ≠ (chunks hb).size then (chunks ha).size < (chunks hb).size
  else (chunks ha).ptr < (chunks hb).ptr

def State.setChunk (s : State) (h : ChunkHandle) (c : Chunk) : State :=
  { s with chunks := update s.chunks h c }

def allocateChunk (s : State) : ChunkHandle × State :=
  match s.freeChunksList with
  | some h => (h, { s with freeChunksList := (s.chunks h).next })
  | none => (s.chunksSize, { s.setChunk s.chunksSize {} with chunksSize := s.chunksSize + 1 })

def deallocateChunk (s : State) (h : ChunkHandle) : State :=
  { s.setChunk h
      { s.chunks h with allocationId := -1, binNum := none, next := s.freeChunksList } with
    freeChunksList := some h }

def deleteChunk (s : State) (h : ChunkHandle) : Option State :=
  (setHandle (s.chunks h).ptr none s.regions).map fun regions =>
    deallocateChunk { s with regions := regions } h

def insertFreeChunkIntoBin (s : State) (h : ChunkHandle) : Option State :=
  let c := s.chunks h
  if c.inUse || c.binNum.isSome then none
  else
    let b := binNumForSize c.size
    some
      { s.setChunk h { c with binNum := some b } with
        bins := update s.bins b
          (Lib.OrderedSet.insert (chunkLess s.chunks) h (s.bins b)) }

def removeFreeChunkIterFromBin (s : State) (b : Nat) (h : ChunkHandle) : Option State :=
  let c := s.chunks h
  if c.inUse || c.binNum.isNone then none
  else
    some
      { s.setChunk h { c with binNum := none } with
        bins := update s.bins b ((s.bins b).erase h) }

def removeFreeChunkFromBin (s : State) (h : ChunkHandle) : Option State :=
  let c := s.chunks h
  if c.inUse then none
  else
    c.binNum.bind fun b =>
      (Lib.OrderedSet.erase (chunkLess s.chunks) h (s.bins b)).map fun bin =>
        { s.setChunk h { c with binNum := none } with bins := update s.bins b bin }

/-- The chunk behind an edit, if there is one, gets a new neighbour. -/
def setPrev (chunks : ChunkHandle → Chunk) (h : Option ChunkHandle) (prev : ChunkHandle) :
    ChunkHandle → Chunk :=
  match h with
  | some h => update chunks h { chunks h with prev := some prev }
  | none => chunks

def splitChunk (s : State) (h : ChunkHandle) (numBytes : Nat) : Option State :=
  let (hNewChunk, s) := allocateChunk s
  let c := s.chunks h
  if c.inUse || c.binNum.isSome then none
  else
    (setHandle (c.ptr + numBytes) (some hNewChunk) s.regions).bind fun regions =>
      let newChunk : Chunk :=
        { s.chunks hNewChunk with
          ptr := c.ptr + numBytes
          size := c.size - numBytes
          allocationId := -1
          freedAtCount := c.freedAtCount
          prev := some h
          next := c.next }
      let chunks := update (update s.chunks hNewChunk newChunk) h
        { c with size := numBytes, next := some hNewChunk }
      insertFreeChunkIntoBin
        { s with regions := regions, chunks := setPrev chunks c.next hNewChunk } hNewChunk

/-- Merges `h2` into `h1`, which is in front of it. -/
def merge (s : State) (h1 h2 : ChunkHandle) : Option State :=
  let c1 := s.chunks h1
  let c2 := s.chunks h2
  if c1.inUse || c2.inUse || c2.prev ≠ some h1 then none
  else
    let chunks := update s.chunks h1
      { c1 with
        next := c2.next
        size := c1.size + c2.size
        freedAtCount := max c1.freedAtCount c2.freedAtCount }
    deleteChunk { s with chunks := setPrev chunks c2.next h1 } h2

def State.mergeable (s : State) (h : ChunkHandle) : Bool :=
  !(s.chunks h).inUse && (s.chunks h).freedAtCount == 0

def coalesceNext (s : State) (h : ChunkHandle) : Option State :=
  match (s.chunks h).next with
  | some n =>
    if s.mergeable n then (removeFreeChunkFromBin s n).bind fun s => merge s h n else some s
  | none => some s

def coalescePrev (s : State) (h : ChunkHandle) : Option (ChunkHandle × State) :=
  match (s.chunks h).prev with
  | some p =>
    if s.mergeable p then
      (removeFreeChunkFromBin s p).bind fun s => (merge s p h).map fun s => (p, s)
    else some (h, s)
  | none => some (h, s)

/-- Returns the handle of the chunk that `h` has become part of. -/
def tryToCoalesce (s : State) (h : ChunkHandle) : Option (ChunkHandle × State) :=
  if 0 < (s.chunks h).freedAtCount then some (h, s)
  else (coalesceNext s h).bind fun s => coalescePrev s h

def markFree (s : State) (h : ChunkHandle) : Option State :=
  let c := s.chunks h
  if !c.inUse || c.binNum.isSome then none else some (s.setChunk h { c with allocationId := -1 })

/-- The two loops of `FindChunkPtr`: the first chunk that fits, from the bin on. -/
def findFit (s : State) (binNum roundedBytes freedBefore : Nat) : Option (Nat × ChunkHandle) :=
  (List.range' binNum (kNumBins - binNum)).findSome? fun b =>
    ((s.bins b).find? fun h =>
      !(0 < freedBefore && freedBefore < (s.chunks h).freedAtCount) &&
        roundedBytes ≤ (s.chunks h).size).map fun h => (b, h)

def useChunk (s : State) (h : ChunkHandle) (numBytes : Nat) : Nat × State :=
  ((s.chunks h).ptr, { s.setChunk h
        { s.chunks h with requestedSize := numBytes, allocationId := s.nextAllocationId } with
      nextAllocationId := s.nextAllocationId + 1 })

/-- The pointer is 0 when no chunk fits. -/
def findChunkPtr (s : State) (binNum roundedBytes numBytes freedBefore : Nat) :
    Option (Nat × State) :=
  match findFit s binNum roundedBytes freedBefore with
  | none => some (0, s)
  | some (b, h) =>
    (removeFreeChunkIterFromBin s b h).bind fun s =>
      if roundedBytes * 2 ≤ (s.chunks h).size ∨
          maxInternalFragmentationBytes ≤ (s.chunks h).size - roundedBytes then
        (splitChunk s h roundedBytes).map fun s => useChunk s h numBytes
      else some (useChunk s h numBytes)

/-- `bytes * 0.9f` as `size_t`: the factor is `15099494 / 2 ^ 24`, and the product is rounded
    to 24 bits, ties to even, before its fraction is cut off. -/
def timesBackpedalFactor (bytes : Nat) : Nat :=
  let product := bytes * 15099494
  let dropped := Nat.log2 product + 1 - 24
  let quotient := product / 2 ^ dropped
  let twice := 2 * (product % 2 ^ dropped)
  let rounded :=
    if 2 ^ dropped < twice ∨ 2 ^ dropped = twice ∧ quotient % 2 = 1 then quotient + 1
    else quotient
  rounded * 2 ^ dropped / 2 ^ 24

/-- `SubAllocatorWrapper::Alloc`; `created` tells whether the descriptor heap could be
    created. -/
def subAlloc (deviceId : Nat) (heap : HeapAllocator.Allocator Nat) (bytes : Nat) (created : Bool) :
    Nat × HeapAllocator.Allocator Nat :=
  HeapAllocator.allocWith heap deviceId bytes (if created then some bytes else none)

/-- The size of the next attempt of `Extend`. -/
def backpedalBytes (bytes : Nat) : Nat := roundedBytes (timesBackpedalFactor bytes)

/-- The loop that tries to allocate less and less, with the answers of the device. There is no
    result while it still goes on after the last of them. -/
def backpedal (nextBytes : Nat → Nat) (deviceId roundedBytes : Nat) :
    List Bool → Nat → HeapAllocator.Allocator Nat → Option (Nat × Nat × HeapAllocator.Allocator Nat)
  | [], bytes, heap =>
    let bytes := nextBytes bytes
    if bytes < roundedBytes then some (0, bytes, heap) else none
  | created :: rest, bytes, heap =>
    let bytes := nextBytes bytes
    if bytes < roundedBytes then some (0, bytes, heap)
    else
      let (ptr, heap) := subAlloc deviceId heap bytes created
      if ptr = 0 then backpedal nextBytes deviceId roundedBytes rest bytes heap
      else some (ptr, bytes, heap)

def addRegion (s : State) (memAddr bytesReceived : Nat) : Option State :=
  let s := { s with regions := addAllocationRegion memAddr bytesReceived s.regions }
  let (h, s) := allocateChunk s
  let s := s.setChunk h
    { s.chunks h with
      ptr := memAddr
      size := bytesReceived
      allocationId := -1
      prev := none
      next := none
      freedAtCount := 0 }
  (setHandle memAddr (some h) s.regions).bind fun regions =>
    (tryToCoalesce { s with regions := regions } h).bind fun (h, s) => insertFreeChunkIntoBin s h

/-- The first attempt of `Extend`, and the smaller ones unless an earlier call has made them.
    The answers of the device come in the order of the attempts. -/
def allocMemory (deviceId : Nat) (s : State) (bytes roundedBytes : Nat) :
    List Bool → Option (Nat × Nat × State)
  | [] => none
  | created :: rest =>
    let (ptr, heap) := subAlloc deviceId s.heapAllocator bytes created
    if ptr ≠ 0 ∨ s.startedBackpedal then some (ptr, bytes, { s with heapAllocator := heap })
    else
      (backpedal backpedalBytes deviceId roundedBytes rest bytes heap).map
        fun (ptr, bytes, heap) =>
          (ptr, bytes, { s with heapAllocator := heap, startedBackpedal := true })

/-- Doubles the size until it is enough; 64 times is more than `size_t` has bits. -/
def doubleUntil (roundedBytes : Nat) : Nat → Nat → Nat
  | 0, bytes => bytes
  | fuel + 1, bytes =>
    if bytes < roundedBytes then doubleUntil roundedBytes fuel (bytes * 2) else bytes

/-- The size of the next region, when the last one did not have to be increased. -/
def nextRegionBytes (increasedAllocation : Bool) (bytes : Nat) : Nat :=
  if increasedAllocation then bytes else min (bytes * 2) kMaxAllocationSizeInDescriptors

def extend (deviceId : Nat) (s : State) (roundedBytes : Nat) (answers : List Bool) :
    Option (Bool × State) :=
  let availableBytes :=
    (kMaxTotalDescriptors - s.totalRegionAllocatedBytes) / kMinAllocationSize * kMinAllocationSize
  if availableBytes < roundedBytes then some (false, s)
  else
    let increasedAllocation := decide (s.currRegionAllocationBytes < roundedBytes)
    let curr := min (doubleUntil roundedBytes 64 s.currRegionAllocationBytes)
      kMaxAllocationSizeInDescriptors
    (allocMemory deviceId { s with currRegionAllocationBytes := curr } (min curr availableBytes)
      roundedBytes answers).bind fun (memAddr, bytes, s) =>
        if memAddr = 0 then some (false, s)
        else
          (addRegion
            { s with
              currRegionAllocationBytes := nextRegionBytes increasedAllocation curr
              totalRegionAllocatedBytes := s.totalRegionAllocatedBytes + bytes }
            memAddr bytes).map fun s => (true, s)

/-- Extends the allocator if no chunk fits; garbage collection is off. The pointer is 0
    when the allocation fails. -/
def allocateRawInternal (deviceId : Nat) (s : State) (numBytes freedBefore : Nat)
    (answers : List Bool) : Option (Nat × State) :=
  if numBytes = 0 then some (0, s)
  else if kMaxAllocationSizeInDescriptors < numBytes then some (0, s)
  else
    let rounded := roundedBytes numBytes
    let binNum := binNumForSize rounded
    (findChunkPtr s binNum rounded numBytes freedBefore).bind fun (ptr, s) =>
      if ptr ≠ 0 then some (ptr, s)
      else
        (extend deviceId s rounded answers).bind fun (extended, s) =>
          if extended then findChunkPtr s binNum rounded numBytes freedBefore else some (0, s)

def deallocateRawInternal (s : State) (ptr : Nat) : Option State :=
  if ptr = 0 then some s
  else
    (getHandle s.regions ptr).bind fun h =>
      (markFree s h).bind fun s =>
        (tryToCoalesce s h).bind fun (h, s) => insertFreeChunkIntoBin s h

/-- The allocator, and a log of the live allocations: what `AllocateRaw` has returned, with
    the number of descriptors asked for, and `DeallocateRaw` has not been given. -/
structure Run where
  allocator : State := {}
  live : List (Nat × Nat) := []

inductive Action where
  | allocateRaw (numBytes freedBefore : Nat) (answers : List Bool)
  | deallocateRaw (ptr : Nat)

/-- Where the chunk begins that `DeallocateRaw` finds for a pointer. -/
def State.owner (s : State) (ptr : Nat) : Option Nat :=
  (getHandle s.regions ptr).map fun h => (s.chunks h).ptr

def step (deviceId : Nat) (r : Run) : Action → Option Run
  | .allocateRaw numBytes freedBefore answers =>
    (allocateRawInternal deviceId r.allocator numBytes freedBefore answers).map
      fun (ptr, s) => ⟨s, if ptr = 0 then r.live else r.live ++ [(ptr, numBytes)]⟩
  | .deallocateRaw ptr =>
    (deallocateRawInternal r.allocator ptr).map fun s =>
      ⟨s, r.live.filter fun a => some a.1 ≠ r.allocator.owner ptr⟩

end TfDml.BfcAllocator
