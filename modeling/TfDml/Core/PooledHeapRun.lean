import TfDml.Core.PooledHeapChunk
import Mathlib.Data.List.TakeWhile
import Mathlib.Data.List.Nodup
import Mathlib.Algebra.Order.BigOperators.Group.List

/-! # Runs of the pooled heap

Uploads, readbacks, reclaiming, trimming and fence progress in any order. The
heap stays well formed, and a range still in use is never handed out again,
exactly along the runs in which no call rounds an end past `uint64_t`.
-/

namespace TfDml.PooledHeap

open Lib List Option

/-- The heap, what the fence of its done events reports, the latest done event
    handed out, and every range returned so far with the resource it lies in. -/
structure HeapState where
  heap : DmlPooledHeap := {}
  completedValue : Nat := 0
  lastDoneValue : Nat := 0
  nextResource : ResourceId := 0
  issued : List (ResourceId × Allocation) := []

/-- An upload or a readback; `created` tells whether a resource could be created
    if the call needs one. -/
structure Call where
  sizeInBytes : Nat
  observed : Nat → Nat
  created : Bool
  doneEvent : DmlGpuEvent

inductive Action where
  | beginUploadToGpu (recorderStatus : Status) (call : Call)
  | readbackFromGpu (call : Call)
  | reclaimAllocations (observed : Nat → Nat)
  | trim (observed : Nat → Nat)
  | signal (value : Nat)

/-- The call whose `Reserve` the action runs, if it gets that far. -/
def Action.reserves : Action → Option Call
  | .beginUploadToGpu recorderStatus call => if recorderStatus.isOk then some call else none
  | .readbackFromGpu call => some call
  | _ => none

/-- What `Reserve` runs on: the heap without the allocations seen to be signaled. -/
def HeapState.reclaimed (s : HeapState) (call : Call) : DmlPooledHeap :=
  PooledHeap.reclaimAllocations s.heap call.observed

def HeapState.request (s : HeapState) (call : Call) : Request :=
  ⟨call.sizeInBytes, call.observed, if call.created then some s.nextResource else none,
    call.doneEvent⟩

def HeapState.settle (s : HeapState) (result : Except Status (Nat × Allocation) × DmlPooledHeap) :
    HeapState :=
  match result with
  | (.error _, heap) => { s with heap := heap }
  | (.ok (index, a), heap) =>
    { s with
      heap := heap
      lastDoneValue := a.doneEvent.fenceValue
      nextResource := s.nextResource + 1
      issued := s.issued ++ (heap.chunks[index]?.map fun chunk => (chunk.resource, a)).toList }

def perform (s : HeapState) : Action → HeapState
  | .beginUploadToGpu recorderStatus call =>
    s.settle (PooledHeap.beginUploadToGpu recorderStatus s.heap (s.request call))
  | .readbackFromGpu call => s.settle (PooledHeap.readbackFromGpu s.heap (s.request call))
  | .reclaimAllocations observed => { s with heap := PooledHeap.reclaimAllocations s.heap observed }
  | .trim observed => { s with heap := PooledHeap.trim s.heap observed }
  | .signal value => { s with completedValue := value }

def HeapState.Observes (s : HeapState) (observed : Nat → Nat) : Prop :=
  ∀ i < s.heap.chunks.length, observed i ≤ s.completedValue

/-- Sizes are positive, done events do not go back, and the fence only moves forward. -/
def Action.Admissible (s : HeapState) : Action → Prop
  | .beginUploadToGpu _ call | .readbackFromGpu call =>
    0 < call.sizeInBytes ∧ s.lastDoneValue ≤ call.doneEvent.fenceValue ∧ s.Observes call.observed
  | .reclaimAllocations observed | .trim observed => s.Observes observed
  | .signal value => s.completedValue ≤ value

instance (s : HeapState) (observed : Nat → Nat) : Decidable (s.Observes observed) :=
  inferInstanceAs (Decidable (∀ i < _, _))

instance (s : HeapState) (a : Action) : Decidable (a.Admissible s) :=
  match a with
  | .beginUploadToGpu _ _ | .readbackFromGpu _ => inferInstanceAs (Decidable (_ ∧ _ ∧ _))
  | .reclaimAllocations _ | .trim _ => inferInstanceAs (Decidable (HeapState.Observes _ _))
  | .signal _ => inferInstanceAs (Decidable (_ ≤ _))

def DmlPooledHeap.capacities (heap : DmlPooledHeap) : List Nat :=
  heap.chunks.map Chunk.capacityInBytes

/-- An admissible action, as long as the total capacity stays below `2 ^ 64`. -/
def step (s : HeapState) (a : Action) : Option HeapState :=
  if a.Admissible s ∧ (perform s a).heap.capacities.sum < 2 ^ 64 then some (perform s a)
  else none

/-- What `AssertInvariants` checks, with disjointness. -/
structure DmlPooledHeap.WellFormed (heap : DmlPooledHeap) : Prop where
  chunks : ∀ chunk ∈ heap.chunks, chunk.WellFormed
  sorted : heap.capacities.Pairwise (· ≤ ·)
  total : heap.totalCapacity = heap.capacities.sum

/-- The guarantee of one step: the heap is well formed after it, a range it returns
    meets no range of the same resource whose done event is not yet signaled, and
    a failing `Reserve` changes nothing. -/
structure Sound (s : HeapState) (a : Action) (t : HeapState) : Prop where
  wellFormed : t.heap.WellFormed
  separate : ∀ old ∈ s.issued, ∀ new ∈ t.issued.drop s.issued.length,
    old.1 = new.1 → old.2.doneEvent.isSignaled s.completedValue = false → old.2.Separate new.2
  unchanged : ∀ call status after, a.reserves = some call →
    reserve (s.reclaimed call) call.sizeInBytes (s.request call).resource =
      (.error status, after) → t.heap = s.reclaimed call

/-- Every chunk that the call may look at rounds without wrapping. -/
def Fits (s : HeapState) (a : Action) (_ : HeapState) : Prop :=
  ∀ call, a.reserves = some call →
    ∀ chunk ∈ (s.reclaimed call).chunks, chunk.AlignFits call.sizeInBytes

/-- The invariant of the heap alone. `newest` is the latest done event and `next`
    the next unused resource. -/
structure HeapInvariant (heap : DmlPooledHeap) (newest : Nat) (next : ResourceId) : Prop where
  ordered : ∀ chunk ∈ heap.chunks, chunk.Ordered newest
  sorted : heap.capacities.Pairwise (· ≤ ·)
  total : heap.totalCapacity = heap.capacities.sum
  small : heap.capacities.sum < 2 ^ 64
  minimum : ∀ capacity ∈ heap.capacities, kMinChunkSize ≤ capacity
  distinct : (heap.chunks.map Chunk.resource).Nodup
  known : ∀ resource ∈ heap.chunks.map Chunk.resource, resource < next

def Recorded (heap : DmlPooledHeap) (completedValue : Nat)
    (issued : List (ResourceId × Allocation)) : Prop :=
  ∀ range ∈ issued, range.2.doneEvent.isSignaled completedValue = false →
    ∃ chunk ∈ heap.chunks, chunk.resource = range.1 ∧ range.2 ∈ chunk.allocations

structure Invariant (s : HeapState) : Prop where
  heap : HeapInvariant s.heap s.lastDoneValue s.nextResource
  recorded : Recorded s.heap s.completedValue s.issued

variable {heap : DmlPooledHeap} {newest next : Nat}

theorem HeapInvariant.wellFormed (inv : HeapInvariant heap newest next) : heap.WellFormed :=
  ⟨fun chunk mem => (inv.ordered chunk mem).wellFormed, inv.sorted, inv.total⟩

variable {chunk : Chunk}

theorem HeapInvariant.chunk_small (inv : HeapInvariant heap newest next)
    (mem : chunk ∈ heap.chunks) : chunk.capacityInBytes < 2 ^ 64 :=
  (le_sum_of_mem (List.mem_map_of_mem mem)).trans_lt inv.small

variable {β : Type}

private theorem map_reclaim (f : Chunk → β)
    (blind : ∀ chunk allocations, f { chunk with allocations := allocations } = f chunk)
    (heap : DmlPooledHeap) (observed : Nat → Nat) :
    (reclaimAllocations heap observed).chunks.map f = heap.chunks.map f := by
  apply ext_getElem?
  intro i
  simp only [reclaimAllocations, getElem?_map, getElem?_mapIdx, Option.map_map]
  congr 1
  funext chunk
  exact blind chunk _

private theorem map_pushAllocation (f : Chunk → β)
    (blind : ∀ chunk allocations, f { chunk with allocations := allocations } = f chunk)
    (heap : DmlPooledHeap) (index : Nat) (a : Allocation) :
    (pushAllocation heap index a).chunks.map f = heap.chunks.map f := by
  apply ext_getElem?
  intro i
  simp only [pushAllocation, getElem?_map, getElem?_modify]
  cases heap.chunks[i]? with
  | none => rfl
  | some chunk =>
    by_cases here : index = i
    · simp [here, blind]
    · simp [here]

theorem capacities_reclaim (heap : DmlPooledHeap) (observed : Nat → Nat) :
    (reclaimAllocations heap observed).capacities = heap.capacities :=
  map_reclaim _ (fun _ _ => rfl) heap observed

theorem capacities_pushAllocation (heap : DmlPooledHeap) (index : Nat) (a : Allocation) :
    (pushAllocation heap index a).capacities = heap.capacities :=
  map_pushAllocation _ (fun _ _ => rfl) heap index a

variable {observed : Nat → Nat}

private theorem mem_reclaim (mem : chunk ∈ (reclaimAllocations heap observed).chunks) :
    ∃ old ∈ heap.chunks, ∃ i < heap.chunks.length, chunk = old.reclaim (observed i) := by
  obtain ⟨i, lt, rfl⟩ := mem_mapIdx.mp mem
  exact ⟨_, getElem_mem lt, i, lt, rfl⟩

theorem HeapInvariant.reclaimed (inv : HeapInvariant heap newest next) (observed : Nat → Nat) :
    HeapInvariant (reclaimAllocations heap observed) newest next := by
  have sameResources := map_reclaim Chunk.resource (fun _ _ => rfl) heap observed
  constructor
  · intro chunk mem
    obtain ⟨old, lt, i, -, rfl⟩ := mem_reclaim mem
    exact (inv.ordered old lt).reclaim _
  · exact (capacities_reclaim heap observed) ▸ inv.sorted
  · exact (capacities_reclaim heap observed) ▸ inv.total
  · exact (capacities_reclaim heap observed) ▸ inv.small
  · exact (capacities_reclaim heap observed) ▸ inv.minimum
  · exact sameResources ▸ inv.distinct
  · exact sameResources ▸ inv.known

private theorem mem_dropWhile {α : Type} {p : α → Bool} {xs : List α} {x : α} (mem : x ∈ xs)
    (stays : p x = false) : x ∈ xs.dropWhile p := by
  rw [← takeWhile_append_dropWhile (p := p) (l := xs)] at mem
  rcases mem_append.mp mem with dropped | kept
  · have := mem_takeWhile_imp dropped
    simp [stays] at this
  · exact kept

variable {completedValue : Nat} {issued : List (ResourceId × Allocation)}

theorem Recorded.reclaimed (recorded : Recorded heap completedValue issued)
    (run : ∀ i < heap.chunks.length, observed i ≤ completedValue) :
    Recorded (reclaimAllocations heap observed) completedValue issued := by
  intro range mem pending
  obtain ⟨chunk, lt, same, holds⟩ := recorded range mem pending
  obtain ⟨i, bound, rfl⟩ := getElem_of_mem lt
  refine ⟨heap.chunks[i].reclaim (observed i), ?_, same, mem_dropWhile holds ?_⟩
  · exact mem_mapIdx.mpr ⟨i, bound, rfl⟩
  · have := run i bound
    rw [DmlGpuEvent.isSignaled_eq_false] at pending ⊢
    omega

theorem HeapInvariant.trimmed (inv : HeapInvariant heap newest next) (observed : Nat → Nat) :
    HeapInvariant (trim heap observed) newest next := by
  have reclaimed := inv.reclaimed observed
  have sub : (trim heap observed).chunks.Sublist (reclaimAllocations heap observed).chunks :=
    filter_sublist
  have subCapacities : (trim heap observed).capacities.Sublist
      (reclaimAllocations heap observed).capacities := sub.map _
  have lt : (trim heap observed).capacities.sum < 2 ^ 64 :=
    (List.Sublist.sum_le_sum subCapacities fun _ _ => Nat.zero_le _).trans_lt reclaimed.small
  exact
    { ordered := fun chunk mem => reclaimed.ordered chunk (sub.subset mem)
      sorted := reclaimed.sorted.sublist subCapacities
      total := u64_of_lt lt
      small := lt
      minimum := fun capacity mem => reclaimed.minimum capacity (subCapacities.subset mem)
      distinct := reclaimed.distinct.sublist (sub.map _)
      known := fun resource mem => reclaimed.known resource ((sub.map _).subset mem) }

theorem Recorded.trimmed (recorded : Recorded heap completedValue issued)
    (run : ∀ i < heap.chunks.length, observed i ≤ completedValue) :
    Recorded (trim heap observed) completedValue issued := by
  intro range mem pending
  obtain ⟨chunk, lt, same, holds⟩ := recorded.reclaimed run range mem pending
  refine ⟨chunk, mem_filter.mpr ⟨lt, ?_⟩, same, holds⟩
  cases shape : chunk.allocations with
  | nil => simp [shape] at holds
  | cons => rfl

theorem Recorded.forward {value : Nat} (recorded : Recorded heap completedValue issued)
    (forward : completedValue ≤ value) : Recorded heap value issued := by
  intro range mem pending
  have ahead : value < range.2.doneEvent.fenceValue := DmlGpuEvent.isSignaled_eq_false.mp pending
  exact recorded range mem (DmlGpuEvent.isSignaled_eq_false.mpr (forward.trans_lt ahead))

variable {n index offset : Nat}

theorem findChunk_some {chunks : List Chunk} (got : findChunk chunks n = some (index, offset)) :
    ∃ chunk, chunks[index]? = some chunk ∧ findOffsetForAllocation chunk n = some offset := by
  induction chunks generalizing index with
  | nil => cases got
  | cons chunk rest ih =>
    unfold findChunk at got
    cases here : findOffsetForAllocation chunk n with
    | some o =>
      simp only [here, Option.some.injEq, Prod.mk.injEq] at got
      obtain ⟨rfl, rfl⟩ := got
      exact ⟨chunk, rfl, here⟩
    | none =>
      simp only [here, map_eq_some_iff, Prod.mk.injEq] at got
      obtain ⟨⟨i, o⟩, below, rfl, rfl⟩ := got
      exact ih below

theorem reserve_cases (heap : DmlPooledHeap) (n : Nat) (resource : Option ResourceId) :
    (∃ index offset, findChunk heap.chunks n = some (index, offset) ∧
      reserve heap n resource = (.ok (index, offset), heap)) ∨
    (∃ status, resource = none ∧ reserve heap n resource = (.error status, heap)) ∨
    (∃ r, resource = some r ∧ reserve heap n resource = (.ok (heap.chunks.length, 0),
        { chunks := heap.chunks ++ [⟨newChunkSize heap n, r, []⟩]
          totalCapacity := u64 (heap.totalCapacity + newChunkSize heap n) })) := by
  unfold reserve
  cases findChunk heap.chunks n with
  | some got => exact Or.inl ⟨got.1, got.2, rfl, rfl⟩
  | none =>
    cases resource with
    | none => exact Or.inr (Or.inl ⟨_, rfl, rfl⟩)
    | some r => exact Or.inr (Or.inr ⟨r, rfl, rfl⟩)

/-- What a successful `Reserve` promises about the chunk it points to. -/
structure ReservedIn (heap after : DmlPooledHeap) (n index offset : Nat) (chunk : Chunk) :
    Prop where
  located : after.chunks[index]? = some chunk
  found : findOffsetForAllocation chunk n = some offset
  reused : chunk ∈ heap.chunks ∨ chunk.allocations = []
  kept : ∀ c ∈ heap.chunks, c ∈ after.chunks

variable {after : DmlPooledHeap}

theorem HeapInvariant.reserved {next : ResourceId} {resource : Option ResourceId}
    (inv : HeapInvariant heap newest next) (fresh : ∀ r, resource = some r → r = next)
    (result : reserve heap n resource = (.ok (index, offset), after))
    (small : after.capacities.sum < 2 ^ 64) :
    HeapInvariant after newest (next + 1) ∧ ∃ chunk, ReservedIn heap after n index offset chunk := by
  have known : ∀ r ∈ heap.chunks.map Chunk.resource, r < next + 1 :=
    fun r mem => (inv.known r mem).trans (Nat.lt_succ_self _)
  rcases reserve_cases heap n resource with ⟨i, o, got, eq⟩ | ⟨status, -, eq⟩ | ⟨r, given, eq⟩
  · obtain ⟨⟨rfl, rfl⟩, rfl⟩ : (i = index ∧ o = offset) ∧ heap = after := by
      simpa using eq.symm.trans result
    obtain ⟨chunk, located, offsetFound⟩ := findChunk_some got
    exact ⟨{ inv with known := known }, chunk, located, offsetFound,
      Or.inl (mem_of_getElem? located), fun _ mem => mem⟩
  · simp [eq] at result
  · obtain ⟨⟨rfl, rfl⟩, rfl⟩ : (heap.chunks.length = index ∧ 0 = offset) ∧ _ = after := by
      simpa using eq.symm.trans result
    obtain rfl := fresh r given
    have grown : ∀ total, DmlPooledHeap.capacities
        ⟨heap.chunks ++ [⟨newChunkSize heap n, r, []⟩], total⟩ =
          heap.capacities ++ [newChunkSize heap n] := by
      simp [DmlPooledHeap.capacities]
    have sum : heap.capacities.sum + newChunkSize heap n < 2 ^ 64 := by simpa [grown] using small
    have largest : ∀ capacity ∈ heap.capacities, capacity ≤ newChunkSize heap n := by
      intro capacity mem
      calc capacity ≤ heap.capacities.sum := le_sum_of_mem mem
        _ = heap.totalCapacity := inv.total.symm
        _ ≤ newChunkSize heap n := le_max_left _ _
    have minimum : kMinChunkSize ≤ newChunkSize heap n := (le_max_left _ _).trans (le_max_right _ _)
    have enough : n ≤ newChunkSize heap n := (le_max_right _ _).trans (le_max_right _ _)
    refine ⟨⟨?_, ?_, ?_, small, ?_, ?_, ?_⟩, ⟨newChunkSize heap n, r, []⟩, by simp, ?_,
      Or.inr rfl, fun c mem => mem_append_left _ mem⟩
    · refine forall_mem_append.mpr ⟨inv.ordered, ?_⟩
      simpa using Chunk.Ordered.unused _ _ newest
    · simpa [grown, pairwise_append] using ⟨inv.sorted, largest⟩
    · rw [inv.total]
      simpa [grown] using u64_of_lt sum
    · rw [grown]
      exact forall_mem_append.mpr ⟨inv.minimum, by simpa using minimum⟩
    · simp only [map_append, map_cons, map_nil]
      refine nodup_append.mpr ⟨inv.distinct, by simp, ?_⟩
      intro old mem new lt
      obtain rfl := mem_singleton.mp lt
      exact (inv.known old mem).ne
    · simp only [map_append, map_cons, map_nil]
      exact forall_mem_append.mpr ⟨known, by simp⟩
    · simp [findOffsetForAllocation, Nat.not_lt.mpr enough]

theorem mem_pushAllocation (a : Allocation) (located : heap.chunks[index]? = some chunk) {c : Chunk}
    (mem : c ∈ (pushAllocation heap index a).chunks) :
    c ∈ heap.chunks ∨ c = { chunk with allocations := chunk.allocations ++ [a] } := by
  obtain ⟨i, at_⟩ := mem_iff_getElem?.mp mem
  simp only [pushAllocation, getElem?_modify, Option.map_eq_map, map_eq_some_iff] at at_
  obtain ⟨old, got, rfl⟩ := at_
  by_cases here : index = i
  · subst here
    obtain rfl := some.inj (located.symm.trans got)
    simp
  · simpa [here] using Or.inl (mem_of_getElem? got)

theorem pushAllocation_at (a : Allocation) (located : heap.chunks[index]? = some chunk) :
    (pushAllocation heap index a).chunks[index]? =
      some { chunk with allocations := chunk.allocations ++ [a] } := by
  simp [pushAllocation, located]

theorem HeapInvariant.pushed {doneEvent : DmlGpuEvent} (inv : HeapInvariant heap newest next)
    (located : heap.chunks[index]? = some chunk)
    (got : findOffsetForAllocation chunk n = some offset) (fits : chunk.AlignFits n)
    (pos : 0 < n) (after : newest ≤ doneEvent.fenceValue) :
    HeapInvariant (pushAllocation heap index ⟨n, offset, doneEvent⟩) doneEvent.fenceValue
      next := by
  have sameCapacities := capacities_pushAllocation heap index ⟨n, offset, doneEvent⟩
  have sameResources :=
    map_pushAllocation Chunk.resource (fun _ _ => rfl) heap index ⟨n, offset, doneEvent⟩
  have mem := mem_of_getElem? located
  constructor
  · intro c lt
    rcases mem_pushAllocation _ located lt with old | rfl
    · exact (inv.ordered c old).later after
    · exact ordered_push (inv.ordered chunk mem) (inv.chunk_small mem) fits pos
        got after
  · exact sameCapacities ▸ inv.sorted
  · exact sameCapacities ▸ inv.total
  · exact sameCapacities ▸ inv.small
  · exact sameCapacities ▸ inv.minimum
  · exact sameResources ▸ inv.distinct
  · exact sameResources ▸ inv.known

theorem HeapInvariant.separate {a : Allocation} (nodup : (heap.chunks.map Chunk.resource).Nodup)
    (recorded : Recorded heap completedValue issued) (located : heap.chunks[index]? = some chunk)
    (inv : HeapInvariant (pushAllocation heap index a) newest next) {old : ResourceId × Allocation}
    (mem : old ∈ issued) (same : old.1 = chunk.resource)
    (pending : old.2.doneEvent.isSignaled completedValue = false) : old.2.Separate a := by
  obtain ⟨c, lt, resource, holds⟩ := recorded old mem pending
  obtain rfl : c = chunk :=
    inj_on_of_nodup_map nodup lt (mem_of_getElem? located)
      (resource.trans same)
  have ring := (inv.ordered _ (mem_of_getElem? (pushAllocation_at a located))).ring
  exact (pairwise_append.mp ring.separate).2.2 old.2 holds a (by simp)

theorem Recorded.pushed (a : Allocation) (recorded : Recorded heap completedValue issued)
    (located : heap.chunks[index]? = some chunk) :
    Recorded (pushAllocation heap index a) completedValue
      (issued ++ [(chunk.resource, a)]) := by
  have here := mem_of_getElem? (pushAllocation_at a located)
  intro range mem pending
  rcases mem_append.mp mem with old | new
  · obtain ⟨c, lt, same, holds⟩ := recorded range old pending
    obtain ⟨i, got⟩ := mem_iff_getElem?.mp lt
    by_cases sameIndex : index = i
    · subst sameIndex
      obtain rfl := some.inj (located.symm.trans got)
      exact ⟨_, here, same, mem_append_left _ holds⟩
    · refine ⟨c, mem_iff_getElem?.mpr ⟨i, ?_⟩, same, holds⟩
      simpa [pushAllocation, getElem?_modify, sameIndex] using got
  · obtain rfl := mem_singleton.mp new
    exact ⟨_, here, rfl, by simp⟩

def HeapState.serve (s : HeapState) (call : Call) : HeapState :=
  s.settle (allocate s.heap (s.request call))

def Call.allocation (call : Call) (offset : Nat) : Allocation :=
  ⟨call.sizeInBytes, offset, call.doneEvent⟩

inductive Served (s : HeapState) (call : Call) : HeapState → Prop where
  | failed (status : Status)
      (result : reserve (s.reclaimed call) call.sizeInBytes (s.request call).resource =
        (.error status, s.reclaimed call)) : Served s call { s with heap := s.reclaimed call }
  | placed (index offset : Nat) (after : DmlPooledHeap)
      (result : reserve (s.reclaimed call) call.sizeInBytes (s.request call).resource =
        (.ok (index, offset), after)) : Served s call
        { s with
          heap := pushAllocation after index (call.allocation offset)
          lastDoneValue := call.doneEvent.fenceValue
          nextResource := s.nextResource + 1
          issued := s.issued ++
            ((pushAllocation after index (call.allocation offset)).chunks[index]?.map
              fun chunk => (chunk.resource, call.allocation offset)).toList }

variable {s : HeapState} {call : Call} {status : Status}

theorem serve_failed
    (result : reserve (s.reclaimed call) call.sizeInBytes (s.request call).resource =
      (.error status, after)) : s.serve call = s.settle (.error status, after) := by
  change reserve (reclaimAllocations s.heap (s.request call).observed)
    (s.request call).sizeInBytes (s.request call).resource = _ at result
  simp only [HeapState.serve, allocate, result]

theorem serve_placed
    (result : reserve (s.reclaimed call) call.sizeInBytes (s.request call).resource =
      (.ok (index, offset), after)) : s.serve call = s.settle (.ok (index, call.allocation offset),
      pushAllocation after index (call.allocation offset)) := by
  change reserve (reclaimAllocations s.heap (s.request call).observed)
    (s.request call).sizeInBytes (s.request call).resource = _ at result
  simp only [HeapState.serve, allocate, result]
  rfl

theorem served (s : HeapState) (call : Call) : Served s call (s.serve call) := by
  rcases reserve_cases (s.reclaimed call) call.sizeInBytes (s.request call).resource with
    ⟨index, offset, -, result⟩ | ⟨status, -, result⟩ | ⟨r, -, result⟩
  · rw [serve_placed result]
    exact .placed index offset _ result
  · rw [serve_failed result]
    exact .failed status result
  · rw [serve_placed result]
    exact .placed _ _ _ result

variable {t : HeapState}

theorem Served.heap_of_failed (result : Served s call t)
    (failure : reserve (s.reclaimed call) call.sizeInBytes (s.request call).resource =
      (.error status, after)) : t.heap = s.reclaimed call := by
  cases result with
  | failed => rfl
  | placed index offset after' success =>
    rw [success] at failure
    cases failure

theorem Served.heap_of_placed (result : Served s call t)
    (success : reserve (s.reclaimed call) call.sizeInBytes (s.request call).resource =
      (.ok (index, offset), after)) :
    t.heap = pushAllocation after index (call.allocation offset) := by
  cases result with
  | failed status failure =>
    rw [failure] at success
    cases success
  | placed index' offset' after' same =>
    rw [same] at success
    cases success
    rfl

variable {a : Action}

theorem perform_of_reserves (reserves : a.reserves = some call) : perform s a = s.serve call ∧
      (a.Admissible s ↔ 0 < call.sizeInBytes ∧
        s.lastDoneValue ≤ call.doneEvent.fenceValue ∧ s.Observes call.observed) := by
  cases a with
  | beginUploadToGpu recorderStatus c =>
    simp only [Action.reserves, ite_none_right_eq_some, Option.some.injEq] at reserves
    obtain ⟨ready, rfl⟩ := reserves
    exact ⟨by simp [perform, beginUploadToGpu, ready, HeapState.serve], Iff.rfl⟩
  | readbackFromGpu c =>
    obtain rfl : c = call := by simpa [Action.reserves] using reserves
    exact ⟨rfl, Iff.rfl⟩
  | reclaimAllocations | trim | signal => simp [Action.reserves] at reserves

theorem call_sound (inv : Invariant s) (pos : 0 < call.sizeInBytes)
    (later : s.lastDoneValue ≤ call.doneEvent.fenceValue) (observes : s.Observes call.observed)
    (fits : ∀ chunk ∈ (s.reclaimed call).chunks, chunk.AlignFits call.sizeInBytes)
    (result : Served s call t) (small : t.heap.capacities.sum < 2 ^ 64) : Invariant t ∧
      (∀ old ∈ s.issued, ∀ new ∈ t.issued.drop s.issued.length, old.1 = new.1 →
        old.2.doneEvent.isSignaled s.completedValue = false → old.2.Separate new.2) ∧
      t.completedValue = s.completedValue ∧
      (t.issued = s.issued ∧ t.lastDoneValue = s.lastDoneValue ∨
        t.lastDoneValue = call.doneEvent.fenceValue ∧
          ∃ resource offset, t.issued = s.issued ++ [(resource, call.allocation offset)]) := by
  have reclaimed : HeapInvariant (s.reclaimed call) s.lastDoneValue s.nextResource :=
    inv.heap.reclaimed _
  have recorded : Recorded (s.reclaimed call) s.completedValue s.issued :=
    inv.recorded.reclaimed observes
  cases result with
  | failed status result => exact ⟨⟨reclaimed, recorded⟩, by simp, rfl, Or.inl ⟨rfl, rfl⟩⟩
  | placed index offset after result =>
    have fresh : ∀ r, (s.request call).resource = some r → r = s.nextResource := by
      intro r given
      simp only [HeapState.request, ite_none_right_eq_some, Option.some.injEq] at given
      exact given.2.symm
    rw [capacities_pushAllocation] at small
    obtain ⟨grown, chunk, located, got, reused, kept⟩ := reclaimed.reserved fresh result small
    have chunkFits : chunk.AlignFits call.sizeInBytes := by
      rcases reused with old | unused
      · exact fits chunk old
      · intro first _ oldest
        simp [unused] at oldest
    have pushed : HeapInvariant (pushAllocation after index (call.allocation offset))
        call.doneEvent.fenceValue (s.nextResource + 1) :=
      grown.pushed located got chunkFits pos later
    have recordedAfter : Recorded after s.completedValue s.issued := by
      intro range mem pending
      obtain ⟨c, lt, holds⟩ := recorded range mem pending
      exact ⟨c, kept c lt, holds⟩
    have placed := pushAllocation_at (call.allocation offset) located
    refine ⟨⟨pushed, ?_⟩, ?_, rfl, Or.inr ⟨rfl, chunk.resource, offset, by simp [placed]⟩⟩
    · simpa only [placed, map_some, toList_some] using
        recordedAfter.pushed (call.allocation offset) located
    · intro old mem new lt same pending
      simp only [placed, map_some, toList_some, drop_left, mem_singleton] at lt
      subst lt
      exact HeapInvariant.separate grown.distinct recordedAfter located pushed mem same
        pending

theorem step_some (taken : step s a = some t) :
    a.Admissible s ∧ (perform s a).heap.capacities.sum < 2 ^ 64 ∧ perform s a = t := by
  unfold step at taken
  split at taken
  · rename_i allowed
    exact ⟨allowed.1, allowed.2, some.inj taken⟩
  · cases taken

theorem step_sound (inv : Invariant s) (taken : step s a = some t) (fits : Fits s a t) :
    Invariant t ∧ Sound s a t := by
  obtain ⟨admissible, lt, rfl⟩ := step_some taken
  -- without a call to `Reserve` nothing is issued, so only the invariant is left
  have quiet (noCall : a.reserves = none) (same : (perform s a).issued = s.issued)
      (next : Invariant (perform s a)) : Invariant (perform s a) ∧ Sound s a (perform s a) :=
    ⟨next, next.heap.wellFormed, by simp [same], by simp [noCall]⟩
  cases call : a.reserves with
  | some c =>
    obtain ⟨performed, ready⟩ := perform_of_reserves (s := s) call
    obtain ⟨pos, later, observes⟩ := ready.mp admissible
    rw [performed] at lt ⊢
    obtain ⟨next, separate, -⟩ := call_sound inv pos later observes (fits c call) (served s c) lt
    refine ⟨next, next.heap.wellFormed, separate, ?_⟩
    intro c' status after reserves failure
    obtain rfl := some.inj (call.symm.trans reserves)
    exact (served s c).heap_of_failed failure
  | none =>
    cases a with
    | readbackFromGpu c => simp [Action.reserves] at call
    | beginUploadToGpu recorderStatus c =>
      have err : recorderStatus.isOk = false := by simpa [Action.reserves] using call
      have same : perform s (.beginUploadToGpu recorderStatus c) = s := by
        simp [perform, beginUploadToGpu, err, HeapState.settle]
      exact quiet call (by rw [same]) (by rwa [same])
    | reclaimAllocations observed =>
      exact quiet call rfl
        ⟨inv.heap.reclaimed observed, inv.recorded.reclaimed admissible⟩
    | trim observed =>
      exact quiet call rfl ⟨inv.heap.trimmed observed, inv.recorded.trimmed admissible⟩
    | signal value => exact quiet call rfl ⟨inv.heap, inv.recorded.forward admissible⟩

theorem HeapInvariant.sole_chunk (inv : HeapInvariant heap newest next)
    (mem : chunk ∈ heap.chunks) (huge : 2 ^ 64 < chunk.capacityInBytes + 512) :
    heap.chunks = [chunk] := by
  have lt := inv.small
  have minimum := inv.minimum
  unfold DmlPooledHeap.capacities at lt minimum
  obtain ⟨front, back, split⟩ := append_of_mem mem
  rw [split] at lt minimum ⊢
  have others : ∀ c, c ∈ front ∨ c ∈ back → 1048576 ≤ c.capacityInBytes := by
    intro c inside
    apply minimum
    rcases inside with inside | inside
    · exact List.mem_map_of_mem (mem_append_left _ inside)
    · exact List.mem_map_of_mem (mem_append_right _ (mem_cons_of_mem _ inside))
  cases front with
  | cons c rest =>
    have := others c (Or.inl mem_cons_self)
    simp at lt
    omega
  | nil =>
    cases back with
    | cons c rest =>
      have := others c (Or.inr mem_cons_self)
      simp at lt
      omega
    | nil => rfl

theorem step_unsound (inv : Invariant s) (taken : step s a = some t) (wraps : ¬ Fits s a t) :
    ¬ Sound s a t := by
  intro sound
  unfold Fits at wraps
  push Not at wraps
  obtain ⟨call, reserves, chunk, mem, unfit⟩ := wraps
  have reclaimed : HeapInvariant (s.reclaimed call) s.lastDoneValue s.nextResource :=
    inv.heap.reclaimed _
  have lt := reclaimed.ordered chunk mem
  obtain ⟨got, first, oldest, covers, huge⟩ :=
    findOffset_of_wraps lt (reclaimed.chunk_small mem) unfit
  have alone := reclaimed.sole_chunk mem huge
  have result : reserve (s.reclaimed call) call.sizeInBytes (s.request call).resource =
      (.ok (0, 0), s.reclaimed call) := by
    simp [reserve, alone, findChunk, got]
  have after : t.heap = pushAllocation (s.reclaimed call) 0 (call.allocation 0) := by
    obtain ⟨-, -, rfl⟩ := step_some taken
    rw [(perform_of_reserves reserves).1]
    exact (served s call).heap_of_placed result
  have disjoint := (sound.wellFormed.chunks
    { chunk with allocations := chunk.allocations ++ [call.allocation 0] }
    (by simp [after, pushAllocation, alone])).disjoint
  have apart := (pairwise_append.mp disjoint).2.2 first (mem_of_head? oldest)
    (call.allocation 0) (by simp)
  have some_ := lt.proper first (mem_of_head? oldest)
  simp only [Allocation.Separate, Lib.Separate, Allocation.endInChunk, Call.allocation]
    at apart some_
  omega

theorem invariant_init : Invariant {} :=
  ⟨⟨by simp, .nil, rfl, by decide, by simp [DmlPooledHeap.capacities], by simp, by simp⟩,
    by simp [Recorded]⟩

/-- Along a run, each step keeps the heap well formed and hands out only free
    ranges exactly when no step rounds an end past `2 ^ 64`. -/
theorem runs_sound_iff_fits (actions : List Action) :
    EveryStep step Sound {} actions ↔ EveryStep step Fits {} actions :=
  everyStep_iff (fun _ _ _ => step_sound) (fun _ _ _ => step_unsound) invariant_init actions

/-- An upload of `2 ^ 64 - 200` bytes, and one of 100 bytes while it is pending. -/
def wrappingUploads : List Action :=
  [.beginUploadToGpu .ok ⟨2 ^ 64 - 200, fun _ => 0, true, ⟨1, 0⟩⟩,
    .beginUploadToGpu .ok ⟨100, fun _ => 0, true, ⟨2, 0⟩⟩]

theorem wrappingUploads_overlap : ¬ ∀ actions, EveryStep step Sound {} actions := by
  intro every
  obtain ⟨-, later⟩ := every wrappingUploads _ rfl
  obtain ⟨sound, -⟩ := later _ rfl
  have overlapping := sound.wellFormed.chunks
    ⟨2 ^ 64 - 200, 0, [⟨2 ^ 64 - 200, 0, ⟨1, 0⟩⟩, ⟨100, 0, ⟨2, 0⟩⟩]⟩ (by decide +kernel)
  exact absurd overlapping.disjoint (by decide)

end TfDml.PooledHeap
