import TfDml.Core.Common
import TfDml.Lib.Run
import Mathlib.Algebra.Order.BigOperators.Group.List
import Mathlib.Data.List.Pairwise

/-! # The descriptor pool of a command list

Filling a buffer takes one descriptor from a heap of each kind. A heap hands out
descriptors from its end, and starts again when the completion event of its last
allocation is signaled. The command list passes an event that it never sets.
-/

namespace TfDml.DescriptorPool

open Lib List

inductive HeapFlags where
  | none
  | shaderVisible
  deriving DecidableEq

/-- `completionEvent` is absent where the event of the source has no fence. -/
structure DmlDescriptorHeap where
  capacity : Nat
  heapFlags : HeapFlags
  size : Nat := 0
  completionEvent : Option DmlGpuEvent := Option.none
  deriving DecidableEq

namespace DmlDescriptorHeap

/-- The heap after its descriptors are found to be no longer in use, if they are. -/
def recycled (heap : DmlDescriptorHeap) (completedValue : Nat) : DmlDescriptorHeap :=
  match heap.completionEvent with
  | some event => if event.isSignaled completedValue then { heap with size := 0 } else heap
  | Option.none => heap

/-- `TryAllocDescriptors`: the offset of the range that it reserves, if there is space. -/
def tryAllocDescriptors (heap : DmlDescriptorHeap) (completedValue numDescriptors : Nat)
    (completionEvent : Option DmlGpuEvent) (heapFlags : HeapFlags) :
    Option Nat × DmlDescriptorHeap :=
  if heap.heapFlags ≠ heapFlags then (Option.none, heap)
  else
    let heap := heap.recycled completedValue
    if heap.capacity - heap.size < numDescriptors then (Option.none, heap)
    else
      (some heap.size,
        { heap with size := heap.size + numDescriptors, completionEvent := completionEvent })

end DmlDescriptorHeap

/-- A contiguous range of the descriptors of a heap, which is named by its place in the pool. -/
structure DmlDescriptorRange where
  heap : Nat
  offset : Nat
  count : Nat
  deriving DecidableEq

def DmlDescriptorRange.Overlaps (x y : DmlDescriptorRange) : Prop :=
  x.heap = y.heap ∧ x.offset < y.offset + y.count ∧ y.offset < x.offset + x.count

structure DmlDescriptorPool where
  heaps : List DmlDescriptorHeap
  initialHeapCapacity : Nat

namespace DmlDescriptorPool

def create (initialCapacity : Nat) : DmlDescriptorPool where
  heaps := [{ capacity := initialCapacity, heapFlags := .shaderVisible }]
  initialHeapCapacity := initialCapacity

def allocFromHeaps (completedValue numDescriptors : Nat) (completionEvent : Option DmlGpuEvent)
    (heapFlags : HeapFlags) : List DmlDescriptorHeap → Option (Nat × Nat) × List DmlDescriptorHeap
  | [] => (Option.none, [])
  | heap :: rest =>
    match heap.tryAllocDescriptors completedValue numDescriptors completionEvent heapFlags with
    | (some offset, heap) => (some (0, offset), heap :: rest)
    | (Option.none, heap) =>
      let (found, rest) :=
        allocFromHeaps completedValue numDescriptors completionEvent heapFlags rest
      (found.map fun (index, offset) => (index + 1, offset), heap :: rest)

/-- Without space in any heap, a new one is created and allocated from. -/
def allocDescriptors (pool : DmlDescriptorPool) (completedValue numDescriptors : Nat)
    (completionEvent : Option DmlGpuEvent) (heapFlags : HeapFlags) :
    DmlDescriptorRange × DmlDescriptorPool :=
  match allocFromHeaps completedValue numDescriptors completionEvent heapFlags pool.heaps with
  | (some (index, offset), heaps) => (⟨index, offset, numDescriptors⟩, { pool with heaps := heaps })
  | (Option.none, heaps) =>
    let created : DmlDescriptorHeap :=
      { capacity := max numDescriptors pool.initialHeapCapacity, heapFlags := heapFlags }
    let (offset, created) :=
      created.tryAllocDescriptors completedValue numDescriptors completionEvent heapFlags
    (⟨heaps.length, offset.getD 0, numDescriptors⟩, { pool with heaps := heaps ++ [created] })

/-- `GetTotalCapacity`, before it wraps around to 32 bits. -/
def totalCapacity (pool : DmlDescriptorPool) : Nat := (pool.heaps.map (·.capacity)).sum

end DmlDescriptorPool

inductive Phase where
  | executed
  | opened
  | closed
  | failed
  deriving DecidableEq

/-- A range that was handed out: the value that is signaled when its command list has
    completed, and the value the fence had reached at the time. -/
structure Use where
  range : DmlDescriptorRange
  fenceValue : Nat
  completedValue : Nat

/-- The command list with its queue. `uses` is the log of the ranges, the newest first, and
    `batchDescriptors` counts those of the current batch. -/
structure State where
  descriptorPool : DmlDescriptorPool
  currentCompletionEvent : Option DmlGpuEvent := Option.none
  phase : Phase := .executed
  lastFenceValue : Nat := 0
  completedValue : Nat := 0
  uses : List Use := []
  batchDescriptors : Nat := 0

namespace State

def initial (initialCapacity : Nat) : State where
  descriptorPool := .create initialCapacity

/-- `AllocDescriptors`, as the command list calls it. -/
def allocDescriptors (s : State) (numDescriptors : Nat) (heapFlags : HeapFlags) : State :=
  let (range, pool) := s.descriptorPool.allocDescriptors s.completedValue numDescriptors
    s.currentCompletionEvent heapFlags
  { s with
    descriptorPool := pool
    uses := ⟨range, s.lastFenceValue + 1, s.completedValue⟩ :: s.uses
    batchDescriptors := s.batchDescriptors + numDescriptors }

def fillBufferWithPattern (s : State) : State :=
  let neededDescriptorCount := 1
  (s.allocDescriptors neededDescriptorCount .none).allocDescriptors neededDescriptorCount
    .shaderVisible

end State

inductive Action where
  | openList
  | fillBufferWithPattern
  | close (succeeds : Bool)
  | executeCommandLists
  /-- The fence reaches a value that was signaled, or the device is removed. -/
  | progress (completedValue : Nat)

def step (s : State) : Action → Option State
  | .openList =>
    match s.phase with
    | .executed => some { s with phase := .opened, batchDescriptors := 0 }
    | _ => Option.none
  | .fillBufferWithPattern =>
    match s.phase with
    | .opened => some s.fillBufferWithPattern
    | _ => Option.none
  | .close succeeds =>
    match s.phase with
    | .opened => some { s with phase := if succeeds then .closed else .failed }
    | _ => Option.none
  | .executeCommandLists =>
    match s.phase with
    | .closed => some { s with phase := .executed, lastFenceValue := s.lastFenceValue + 1 }
    | _ => Option.none
  | .progress completedValue =>
    if s.completedValue ≤ completedValue ∧
        (completedValue ≤ s.lastFenceValue ∨ completedValue = uint64Max) then
      some { s with completedValue := completedValue }
    else Option.none

/-- A range is handed out again only when the command list that used it has completed. -/
def NotReused (s : State) : Prop :=
  s.uses.Pairwise fun newer older =>
    newer.range.Overlaps older.range → older.fenceValue ≤ newer.completedValue

/-- Every batch has at most `B` descriptors, and completes before the next is opened. -/
def Paced (B : Nat) (s : State) (a : Action) (t : State) : Prop :=
  (a = .openList → s.lastFenceValue ≤ s.completedValue) ∧ t.batchDescriptors ≤ B

/-- Descriptors are never in use twice, and with batches of at most `B` descriptors that do not
    overlap in time, the pool stays bounded however long it is used. -/
def Recycles (initialCapacity B : Nat) : Prop :=
  (∀ actions, EveryStep step (fun _ _ t => NotReused t) (.initial initialCapacity) actions) ∧
    ∃ bound, ∀ actions s, run step (.initial initialCapacity) actions = some s →
      EveryStep step (Paced B) (.initial initialCapacity) actions →
      s.descriptorPool.totalCapacity ≤ bound

/-- A heap whose descriptors were all handed out without an event. -/
structure Unrecycled (heap : DmlDescriptorHeap) : Prop where
  noEvent : heap.completionEvent = none
  filled : heap.size ≤ heap.capacity

/-- `after` is `before` with one heap extended by the range. -/
structure Extended (before : List DmlDescriptorHeap) (range : DmlDescriptorRange)
    (after : List DmlDescriptorHeap) (heap : DmlDescriptorHeap) : Prop where
  found : before[range.heap]? = some heap
  atEnd : range.offset = heap.size
  fits : heap.size + range.count ≤ heap.capacity
  set : after = before.set range.heap { heap with size := heap.size + range.count }

section Allocation

variable {completedValue num : Nat} {flags : HeapFlags}

theorem Unrecycled.tryAlloc_some {heap after : DmlDescriptorHeap} {offset : Nat}
    (unrecycled : Unrecycled heap)
    (live : heap.tryAllocDescriptors completedValue num none flags = (some offset, after)) :
    offset = heap.size ∧ heap.size + num ≤ heap.capacity ∧
      after = { heap with size := heap.size + num } := by
  obtain ⟨noEvent, filled⟩ := unrecycled
  unfold DmlDescriptorHeap.tryAllocDescriptors at live
  simp only [DmlDescriptorHeap.recycled, noEvent] at live
  split at live
  next => simp at live
  next =>
      split at live
      next => simp at live
      next enough =>
          simp only [Prod.mk.injEq, Option.some.injEq] at live
          obtain ⟨rfl, rfl⟩ := live
          refine ⟨rfl, by omega, ?_⟩
          cases heap
          cases noEvent
          rfl

theorem Unrecycled.tryAlloc_none {heap after : DmlDescriptorHeap} (unrecycled : Unrecycled heap)
    (full : heap.tryAllocDescriptors completedValue num none flags = (none, after)) :
    after = heap := by
  unfold DmlDescriptorHeap.tryAllocDescriptors at full
  simp only [DmlDescriptorHeap.recycled, unrecycled.noEvent] at full
  split at full
  next => exact (Prod.mk.inj full).2.symm
  next =>
      split at full
      next => exact (Prod.mk.inj full).2.symm
      next => simp at full

theorem allocFromHeaps_spec {heaps after : List DmlDescriptorHeap} {got : Option (Nat × Nat)}
    (unrecycled : ∀ heap ∈ heaps, Unrecycled heap)
    (live : DmlDescriptorPool.allocFromHeaps completedValue num none flags heaps =
      (got, after)) : match got with
    | some (index, offset) => ∃ heap, Extended heaps ⟨index, offset, num⟩ after heap
    | none => after = heaps := by
  induction heaps generalizing got after with
  | nil =>
    simp only [DmlDescriptorPool.allocFromHeaps, Prod.mk.injEq] at live
    obtain ⟨rfl, rfl⟩ := live
    rfl
  | cons heap rest ih =>
    have first := unrecycled heap mem_cons_self
    unfold DmlDescriptorPool.allocFromHeaps at live
    cases tried : heap.tryAllocDescriptors completedValue num none flags with
    | mk offset heap' =>
      cases offset with
      | some offset =>
        simp only [tried, Prod.mk.injEq] at live
        obtain ⟨rfl, rfl⟩ := live
        obtain ⟨rfl, fits, rfl⟩ := first.tryAlloc_some tried
        exact ⟨heap, rfl, rfl, fits, rfl⟩
      | none =>
        obtain rfl := first.tryAlloc_none tried
        cases later : DmlDescriptorPool.allocFromHeaps completedValue num none flags rest with
        | mk got' rest' =>
          simp only [tried, later, Prod.mk.injEq] at live
          obtain ⟨rfl, rfl⟩ := live
          have spec := ih (fun heap mem =>
            unrecycled heap (mem_cons_of_mem _ mem)) later
          cases got' with
          | none => exact congrArg _ spec
          | some pair =>
            obtain ⟨heap, extended⟩ := spec
            exact ⟨heap, extended.found, extended.atEnd, extended.fits, congrArg _ extended.set⟩

theorem allocDescriptors_spec {pool after : DmlDescriptorPool} {range : DmlDescriptorRange}
    (unrecycled : ∀ heap ∈ pool.heaps, Unrecycled heap)
    (live : pool.allocDescriptors completedValue num none flags = (range, after)) :
    range.count = num ∧ ∃ heaps heap, Extended heaps range after.heaps heap ∧
      (∀ heap ∈ heaps, Unrecycled heap) ∧
      (heaps = pool.heaps ∨ ∃ created, heaps = pool.heaps ++ [created] ∧ created.size = 0) := by
  unfold DmlDescriptorPool.allocDescriptors at live
  cases tried : DmlDescriptorPool.allocFromHeaps completedValue num none flags pool.heaps with
  | mk got heaps =>
    have spec := allocFromHeaps_spec unrecycled tried
    cases got with
    | some pair =>
      simp only [tried, Prod.mk.injEq] at live
      obtain ⟨rfl, rfl⟩ := live
      obtain ⟨heap, extended⟩ := spec
      exact ⟨rfl, pool.heaps, heap, extended, unrecycled, Or.inl rfl⟩
    | none =>
      simp only [tried, DmlDescriptorHeap.tryAllocDescriptors, DmlDescriptorHeap.recycled,
        ne_eq, not_true_eq_false, if_false, Nat.sub_zero, Nat.not_lt.mpr (le_max_left ..),
        Option.getD_some, Prod.mk.injEq, zero_add] at live
      obtain ⟨rfl, rfl⟩ := live
      simp only at spec
      subst spec
      refine ⟨rfl, pool.heaps ++ [⟨max num pool.initialHeapCapacity, flags, 0, none⟩],
        ⟨max num pool.initialHeapCapacity, flags, 0, none⟩, ?_, ?_, Or.inr ⟨_, rfl, rfl⟩⟩
      · constructor
        · simp
        · rfl
        · simp
        · simp
      · intro heap mem
        rcases mem_append.mp mem with old | new
        · exact unrecycled heap old
        · obtain rfl := mem_singleton.mp new
          exact ⟨rfl, Nat.zero_le _⟩

end Allocation

theorem Extended.sum_size {pre after : List DmlDescriptorHeap} {range : DmlDescriptorRange}
    {heap : DmlDescriptorHeap} (extended : Extended pre range after heap) :
    (after.map (·.size)).sum = (pre.map (·.size)).sum + range.count := by
  obtain ⟨got, -, -, rfl⟩ := extended
  generalize range.heap = index at got
  induction pre generalizing index with
  | nil => simp at got
  | cons first rest ih =>
    cases index with
    | zero =>
      obtain rfl := Option.some.inj got
      simp only [set_cons_zero, map_cons, sum_cons]
      omega
    | succ index =>
      have later := ih index got
      simp only [set_cons_succ, map_cons, sum_cons]
      omega

/-- What was handed out lies in the used part of its heap, each range apart from the others. -/
structure Invariant (s : State) : Prop where
  eventUnset : s.currentCompletionEvent = none
  unrecycled : ∀ heap ∈ s.descriptorPool.heaps, Unrecycled heap
  inUse : ∀ use ∈ s.uses, ∃ heap, s.descriptorPool.heaps[use.range.heap]? = some heap ∧
    use.range.offset + use.range.count ≤ heap.size
  apart : s.uses.Pairwise fun newer older => ¬ newer.range.Overlaps older.range
  handedOut : s.uses.length ≤ (s.descriptorPool.heaps.map (·.size)).sum

theorem Invariant.initial (initialCapacity : Nat) : Invariant (.initial initialCapacity) where
  eventUnset := rfl
  unrecycled := by
    intro heap mem
    obtain rfl := mem_singleton.mp mem
    exact ⟨rfl, Nat.zero_le _⟩
  inUse := by simp [State.initial]
  apart := .nil
  handedOut := Nat.zero_le _

theorem Invariant.allocDescriptors {s : State} (invariant : Invariant s) {num : Nat}
    (pos : 0 < num) (flags : HeapFlags) : Invariant (s.allocDescriptors num flags) := by
  cases live : s.descriptorPool.allocDescriptors s.completedValue num none flags with
  | mk range pool =>
    obtain ⟨count, heaps, heap, extended, unrecycled, grown⟩ :=
      allocDescriptors_spec invariant.unrecycled live
    have inUse : ∀ use ∈ s.uses, ∃ heap, heaps[use.range.heap]? = some heap ∧
        use.range.offset + use.range.count ≤ heap.size := by
      intro use mem
      obtain ⟨heap, got, within⟩ := invariant.inUse use mem
      rcases grown with rfl | ⟨new, rfl, -⟩
      · exact ⟨heap, got, within⟩
      · have lt := (List.getElem?_eq_some_iff.mp got).1
        exact ⟨heap, by rwa [getElem?_append_left lt], within⟩
    have sizes : s.uses.length ≤ (heaps.map (·.size)).sum := by
      rcases grown with rfl | ⟨new, rfl, empty⟩
      · exact invariant.handedOut
      · simpa [empty] using invariant.handedOut
    have sum := extended.sum_size
    obtain ⟨got, atEnd, fits, set⟩ := extended
    simp only [State.allocDescriptors, invariant.eventUnset, live]
    have here := (List.getElem?_eq_some_iff.mp got).1
    constructor
    · rfl
    · intro heap' mem
      simp only [set] at mem
      rcases mem_or_eq_of_mem_set mem with old | rfl
      · exact unrecycled heap' old
      · exact ⟨(unrecycled heap (mem_of_getElem? got)).noEvent, fits⟩
    · intro use mem
      simp only [set]
      rcases mem_cons.mp mem with rfl | old
      · exact ⟨_, getElem?_set_self here, by simp only [atEnd]; omega⟩
      · obtain ⟨heap', got', within⟩ := inUse use old
        by_cases same : range.heap = use.range.heap
        · rw [← same] at got' ⊢
          obtain rfl := Option.some.inj (got.symm.trans got')
          exact ⟨_, getElem?_set_self here, by simp only; omega⟩
        · exact ⟨heap', by rwa [getElem?_set_ne same], within⟩
    · refine pairwise_cons.mpr ⟨?_, invariant.apart⟩
      intro use old overlaps
      obtain ⟨same, pre, -⟩ := overlaps
      simp only at same pre
      obtain ⟨heap', got', within⟩ := inUse use old
      rw [← same] at got'
      obtain rfl := Option.some.inj (got.symm.trans got')
      omega
    · simp only [length_cons, sum]
      omega

theorem step_fill_or_same {s t : State} {a : Action} (taken : step s a = some t) :
    a = .fillBufferWithPattern ∧ t = s.fillBufferWithPattern ∨
      t.descriptorPool = s.descriptorPool ∧ t.uses = s.uses ∧
        t.currentCompletionEvent = s.currentCompletionEvent := by
  cases a with
  | fillBufferWithPattern =>
    cases phase : s.phase with
    | opened =>
      simp only [step, phase, Option.some.injEq] at taken
      exact Or.inl ⟨rfl, taken.symm⟩
    | executed | closed | failed => simp [step, phase] at taken
  | progress completedValue =>
    simp only [step, Option.ite_none_right_eq_some, Option.some.injEq] at taken
    obtain ⟨-, rfl⟩ := taken
    exact Or.inr ⟨rfl, rfl, rfl⟩
  | openList | close succeeds | executeCommandLists =>
    cases phase : s.phase <;> simp only [step, phase, Option.some.injEq, reduceCtorEq] at taken
    subst taken
    exact Or.inr ⟨rfl, rfl, rfl⟩

theorem Invariant.step {s t : State} {a : Action} (invariant : Invariant s)
    (taken : step s a = some t) : Invariant t := by
  rcases step_fill_or_same taken with ⟨-, rfl⟩ | ⟨pool, uses, event⟩
  · exact (invariant.allocDescriptors one_pos .none).allocDescriptors one_pos .shaderVisible
  · obtain ⟨eventUnset, unrecycled, inUse, apart, handedOut⟩ := invariant
    exact ⟨event ▸ eventUnset, pool ▸ unrecycled, pool ▸ uses ▸ inUse, uses ▸ apart,
      pool ▸ uses ▸ handedOut⟩

theorem Invariant.uses_le_totalCapacity {s : State} (invariant : Invariant s) :
    s.uses.length ≤ s.descriptorPool.totalCapacity := by
  apply le_trans invariant.handedOut
  apply sum_le_sum
  intro heap mem
  exact (invariant.unrecycled heap mem).filled

theorem notReused (initialCapacity : Nat) (actions : List Action) :
    EveryStep step (fun _ _ t => NotReused t) (.initial initialCapacity) actions := by
  apply everyStep_invariant (I := Invariant) _ (Invariant.initial initialCapacity)
  intro s a t invariant taken
  have later := invariant.step taken
  refine ⟨later, later.apart.imp ?_⟩
  intro newer older apart overlaps
  exact absurd overlaps apart

/-- `n` batches that fill one buffer each and complete, after the fence has reached a value. -/
def fillBatches : Nat → Nat → List Action
  | _, 0 => []
  | fenceValue, n + 1 =>
    .openList :: .fillBufferWithPattern :: .close true :: .executeCommandLists ::
      .progress (fenceValue + 1) :: fillBatches (fenceValue + 1) n

theorem fillBatches_run {B : Nat} (room : 2 ≤ B) (n : Nat) {s : State}
    (executed : s.phase = .executed) (completed : s.completedValue = s.lastFenceValue) :
    ∃ t, run step s (fillBatches s.lastFenceValue n) = some t ∧
      EveryStep step (Paced B) s (fillBatches s.lastFenceValue n) ∧
      t.uses.length = s.uses.length + 2 * n := by
  induction n generalizing s with
  | zero => exact ⟨s, rfl, trivial, rfl⟩
  | succ n ih =>
    -- The states of the first batch, one after each of its actions.
    let opened : State := { s with phase := .opened, batchDescriptors := 0 }
    let filled := opened.fillBufferWithPattern
    let closed : State := { filled with phase := .closed }
    let done : State := { closed with phase := .executed, lastFenceValue := s.lastFenceValue + 1 }
    let idle : State := { done with completedValue := s.lastFenceValue + 1 }
    have opens : step s .openList = some opened := by simp only [step, executed, opened]
    have fills : step opened .fillBufferWithPattern = some filled := rfl
    have closes : step filled (.close true) = some closed := rfl
    have executes : step closed .executeCommandLists = some done := rfl
    have progresses : step done (.progress (s.lastFenceValue + 1)) = some idle := by
      have reached : s.completedValue ≤ s.lastFenceValue + 1 := by omega
      simp only [step, done, idle, closed, filled, opened, State.fillBufferWithPattern,
        State.allocDescriptors, reached, le_refl, true_or, and_self, if_true]
    obtain ⟨t, runs, paced, grown⟩ := ih (s := idle) rfl rfl
    refine ⟨t, ?_, ?_, ?_⟩
    · exact run_cons_iff.mpr ⟨opened, opens, run_cons_iff.mpr ⟨filled, fills,
        run_cons_iff.mpr ⟨closed, closes, run_cons_iff.mpr ⟨done, executes,
          run_cons_iff.mpr ⟨idle, progresses, runs⟩⟩⟩⟩⟩
    · refine .cons opens ⟨fun _ => completed.ge, Nat.zero_le _⟩ (.cons fills ⟨nofun, room⟩
        (.cons closes ⟨nofun, room⟩ (.cons executes ⟨nofun, room⟩
          (.cons progresses ⟨nofun, room⟩ paced))))
    · rw [grown]
      simp only [idle, done, closed, filled, opened, State.fillBufferWithPattern,
        State.allocDescriptors, length_cons]
      omega

theorem not_recycles {initialCapacity B : Nat} (room : 2 ≤ B) : ¬ Recycles initialCapacity B := by
  rintro ⟨-, bound, bounded⟩
  obtain ⟨t, runs, paced, grown⟩ :=
    fillBatches_run room (bound + 1) (s := .initial initialCapacity) rfl rfl
  have invariant := run_invariant (fun s a t => Invariant.step (s := s) (a := a) (t := t))
    (Invariant.initial initialCapacity) runs
  have capacity := invariant.uses_le_totalCapacity
  have limit := bounded _ t runs paced
  omega

/-- The pool recycles exactly if no batch has room for the two descriptors of a fill. -/
theorem recycles_iff (initialCapacity B : Nat) : Recycles initialCapacity B ↔ B < 2 := by
  constructor
  · intro recycles
    by_contra room
    exact not_recycles (Nat.le_of_not_lt room) recycles
  · intro lt
    refine ⟨notReused initialCapacity, initialCapacity, ?_⟩
    intro actions s run paced
    have same : s.descriptorPool = .create initialCapacity := by
      refine run_everyStep (I := fun s => s.descriptorPool = .create initialCapacity)
        ?_ paced rfl run
      intro s a t same taken paced
      rcases step_fill_or_same taken with ⟨-, rfl⟩ | ⟨pool, -, -⟩
      · have filled : s.batchDescriptors + 1 + 1 ≤ B := paced.2
        omega
      · exact pool.trans same
    simp [same, DmlDescriptorPool.create, DmlDescriptorPool.totalCapacity]

/-- One fill in each batch is enough for the pool of the command list to grow. -/
theorem oneFill_grows : ¬ Recycles 2048 2 := not_recycles (le_refl 2)

end TfDml.DescriptorPool
