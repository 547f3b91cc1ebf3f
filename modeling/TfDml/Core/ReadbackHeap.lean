import TfDml.Core.PooledHeapRun
import TfDml.Core.ExecutionContext
import TfDml.Core.EventQueue

/-! # The readback heap

`ReadbackFromGpu` reserves a range of the pooled heap, lets the execution context
copy into it, and enqueues a callback on the event queue that copies the range
to the destination and signals the completion fence. The three components run
side by side; each call goes through its stages under the mutex of the heap.
-/

namespace TfDml.ReadbackHeap

open Lib PooledHeap ExecutionContext List Option
open EventQueue

/-- The fence of `current_completion_event_`. -/
def completionFence : FenceId := 1

def stateCopyDest : Nat := 0x400
def stateCopySource : Nat := 0x800

/-- A call that has got its range: the CPU memory to fill and the range with its
    done event. -/
structure Readback where
  dst : Nat
  resource : ResourceId
  allocation : Allocation
  deriving DecidableEq, Repr

def Readback.doneEvent (r : Readback) : DmlGpuEvent := r.allocation.doneEvent

def Readback.Apart (a b : Readback) : Prop :=
  a.resource = b.resource → a.allocation.Separate b.allocation

structure Source where
  buffer : Nat
  offset : Nat

inductive Phase where
  | idle
  | reserved (readback : Readback) (src : Source)
  | copying (readback : Readback) (gpuDoneEvent : DmlGpuEvent)
  | enqueued (readback : Readback)

/-- The call in progress, if its callback is not yet enqueued. -/
def Phase.unqueued : Phase → List Readback
  | .reserved readback _ | .copying readback _ => [readback]
  | .idle | .enqueued _ => []

/-- The call in progress, whose event is not yet returned. -/
def Phase.pending : Phase → List Readback
  | .reserved readback _ | .copying readback _ | .enqueued readback => [readback]
  | .idle => []

/-- A callback between its copy and its signal, in the thread or inside `Enqueue`. -/
structure Signaling where
  readback : Readback
  inEnqueue : Bool

/-- `heap` also has the counter of `current_completion_event_` (the latest done event)
    and what the completion fence reports. The lists are logs: the calls that got
    a range, the copies to the destinations, the signals on the completion fence,
    and the events returned to the callers. The callbacks of other clients of the
    event queue are `none`. -/
structure State where
  context : ExecutionContext.State Command := {}
  events : EventQueue.State (Option Readback) := init queueFence 0
  heap : HeapState := {}
  phase : Phase := .idle
  signaling : Option Signaling := none
  calls : List Readback := []
  copied : List Readback := []
  signals : List Nat := []
  returned : List DmlGpuEvent := []

inductive Action where
  /-- A call takes the mutex, reclaims and reserves. -/
  | reserve (dst sizeInBytes : Nat) (src : Source) (observed : Nat → Nat) (created : Bool)
  /-- It appends the copy into its range. -/
  | copyBufferRegion
  /-- It enqueues its callback. -/
  | enqueue
  /-- It returns its event and releases the mutex. -/
  | finishCall
  /-- The second half of a callback. -/
  | signalCompletion
  | context (action : ExecutionContext.Action Command)
  /-- The queue's fence reaches a value that was submitted. -/
  | queueSignal (value : Nat)
  | eventQueue (action : EventQueue.Action (Option Readback))

def copyCommand (r : Readback) (src : Source) : Command :=
  .copyBufferRegion r.resource r.allocation.offsetInChunk stateCopyDest src.buffer src.offset
    stateCopySource r.allocation.sizeInBytes

/-- The first half of `done_callback`, if the step of the event queue ran one: unless
    the recorder has failed, copy the range to the destination. -/
def runCallback (s : State) (events : EventQueue.State (Option Readback)) (inEnqueue : Bool) :
    State :=
  match (events.executed.drop s.events.executed.length).filterMap (·.1.doneCallback) with
  | [readback] =>
    if s.context.batchState.getCommandRecorderStatus.isOk then
      { s with
        events := events
        copied := s.copied ++ [readback]
        signaling := some ⟨readback, inEnqueue⟩ }
    else { s with events := events }
  | _ => { s with events := events }

/-- The steps that other clients and the thread of the event queue take by themselves. -/
def independent : EventQueue.Action (Option Readback) → Bool
  | .enqueue _ doneCallback => doneCallback.isNone
  | .signal _ => false
  | _ => true

/-- The call that `ReadbackFromGpu` makes on the heap; its event is the next one of the
    completion fence. -/
def State.call (s : State) (sizeInBytes : Nat) (observed : Nat → Nat) (created : Bool) : Call :=
  ⟨sizeInBytes, observed, created, ⟨s.heap.lastDoneValue + 1, completionFence⟩⟩

/-- The heap and the counter are only used under the mutex, so the allocation is
    recorded together with the reservation. `CreateCommittedResource` succeeds only
    while the chunks fit into the address space of the device. -/
def reserve (addressSpace : Nat) (s : State) (dst : Nat) (src : Source) (call : Call) :
    Option State :=
  let heap := s.heap.serve call
  if 0 < call.sizeInBytes ∧ s.heap.Observes call.observed ∧
      heap.heap.capacities.sum ≤ addressSpace then
    match heap.issued.drop s.heap.issued.length with
    | [(resource, a)] =>
      some
        { s with
          heap := heap
          phase := .reserved ⟨dst, resource, a⟩ src
          calls := s.calls ++ [⟨dst, resource, a⟩] }
    | _ => some { s with heap := heap }
  else none

/-- While a callback is between its halves the mutex of the event queue is held. -/
def step (batchFlushSize addressSpace : Nat) (s : State) : Action → Option State
  | .reserve dst sizeInBytes src observed created =>
    match s.phase with
    | .idle => reserve addressSpace s dst src (s.call sizeInBytes observed created)
    | _ => none
  | .copyBufferRegion =>
    match s.phase with
    | .reserved readback src =>
      (ExecutionContext.step batchFlushSize s.context
        (.append (copyCommand readback src))).map fun context =>
          { s with
            context := context
            phase := .copying readback
              (s.context.batchState.append (copyCommand readback src)).1 }
    | _ => none
  | .enqueue =>
    match s.phase with
    | .copying readback gpuDoneEvent =>
      if s.signaling.isNone then
        (EventQueue.step s.events (.enqueue gpuDoneEvent (some readback))).map fun events =>
          { runCallback s events true with phase := .enqueued readback }
      else none
    | _ => none
  | .finishCall =>
    match s.phase with
    | .enqueued readback =>
      if s.signaling.any Signaling.inEnqueue then none
      else some { s with phase := .idle, returned := s.returned ++ [readback.doneEvent] }
    | _ => none
  | .signalCompletion =>
    match s.signaling with
    | some current =>
      some
        { s with
          heap := { s.heap with completedValue := current.readback.doneEvent.fenceValue }
          signals := s.signals ++ [current.readback.doneEvent.fenceValue]
          signaling := none }
    | none => none
  | .context action =>
    (ExecutionContext.step batchFlushSize s.context action).map fun context =>
      { s with context := context }
  | .queueSignal value =>
    if value ≤ s.context.lastFenceValue ∧ value < uint64Max then
      (EventQueue.step s.events (.signal value)).map fun events => { s with events := events }
    else none
  | .eventQueue action =>
    if independent action ∧ s.signaling.isNone then
      (EventQueue.step s.events action).map fun events => runCallback s events false
    else none

/-- The calls whose callbacks are enqueued, in that order. -/
def State.enqueuedCalls (s : State) : List Readback :=
  s.events.enqueued.filterMap EventQueue.Event.doneCallback

def State.callEvents (s : State) : List (EventQueue.Event (Option Readback)) :=
  s.events.enqueued.filter (·.doneCallback.isSome)

/-- The relation between the three components. The callbacks are enqueued in the order
    of the calls with values that do not go down; the event queue therefore runs
    them in this order, and a range stays apart from later ones until its event is
    signaled. -/
structure Invariant (addressSpace : Nat) (s : State) : Prop where
  context : ExecutionContext.Invariant s.context
  recorder : s.context.batchState.status.isOk = true
  events : EventQueue.Invariant s.events
  heap : PooledHeap.Invariant s.heap
  capacity : s.heap.heap.capacities.sum ≤ addressSpace
  ranges : s.calls.map (fun r => (r.resource, r.allocation)) = s.heap.issued
  numbered : s.calls.map (·.doneEvent.fenceValue) = range' 1 s.heap.lastDoneValue
  queued : s.calls = s.enqueuedCalls ++ s.phase.unqueued
  rising : s.callEvents.Pairwise fun a b => a.fenceValue ≤ b.fenceValue
  ceiling : ∀ e ∈ s.callEvents, e.fenceValue ≤ s.context.batchState.nextFlushEvent.fenceValue
  copying : ∀ readback gpuDoneEvent, s.phase = .copying readback gpuDoneEvent →
    (∀ e ∈ s.callEvents, e.fenceValue ≤ gpuDoneEvent.fenceValue) ∧
      gpuDoneEvent.fenceValue ≤ s.context.batchState.nextFlushEvent.fenceValue
  copies : s.copied = s.events.ran.filterMap EventQueue.Event.doneCallback
  signaled : s.signals ++ (s.signaling.map (·.readback.doneEvent.fenceValue)).toList =
    s.copied.map (·.doneEvent.fenceValue)
  completed : s.heap.completedValue = s.signals.length
  apart : s.calls.Pairwise fun a b =>
    a.doneEvent.fenceValue ≤ s.heap.completedValue ∨ a.Apart b
  returned : s.returned ++ s.phase.pending.map Readback.doneEvent = s.calls.map Readback.doneEvent

theorem invariant_init (addressSpace : Nat) : Invariant addressSpace {} where
  context := ExecutionContext.invariant_init
  recorder := rfl
  events := EventQueue.invariant_init _ _
  heap := PooledHeap.invariant_init
  capacity := Nat.zero_le _
  ranges := rfl
  numbered := rfl
  queued := rfl
  rising := .nil
  ceiling := by simp [State.callEvents, init]
  copying := by simp
  copies := rfl
  signaled := rfl
  completed := rfl
  apart := .nil
  returned := rfl

private theorem filterMap_filter_isSome {α β : Type} (f : α → Option β) (l : List α) :
    (l.filter fun a => (f a).isSome).filterMap f = l.filterMap f := by
  rw [filterMap_filter]
  congr 1
  funext a
  cases f a <;> simp

private theorem eq_range'_of_prefix {l : List Nat} {n : Nat} (initial : l <+: range' 1 n) :
    l = range' 1 l.length := by
  apply ext_getElem
  · simp
  · intro i lt _
    rw [initial.getElem lt]
    simp

namespace Invariant

variable {addressSpace : Nat} {s : State} (inv : Invariant addressSpace s)
include inv

theorem copied_prefix : s.copied <+: s.calls := by
  have served := inv.events.filter_service (·.doneCallback.isSome) inv.rising
  have front : s.events.ran.filter (·.doneCallback.isSome) <+: s.callEvents := by
    unfold State.callEvents
    rw [← served]
    unfold EventQueue.State.service
    rw [append_assoc, filter_append]
    exact prefix_append _ _
  have enqueued := front.filterMap EventQueue.Event.doneCallback
  unfold State.callEvents at enqueued
  rw [filterMap_filter_isSome, filterMap_filter_isSome, ← inv.copies] at enqueued
  rw [inv.queued]
  exact enqueued.trans (prefix_append _ _)

theorem copied_numbered : s.copied.map (·.doneEvent.fenceValue) = range' 1 s.copied.length := by
  have initial := inv.copied_prefix.map (·.doneEvent.fenceValue)
  rw [inv.numbered] at initial
  simpa using eq_range'_of_prefix initial

theorem signals_numbered : s.signals = range' 1 s.signals.length := by
  have initial : s.signals <+: range' 1 s.copied.length := by
    rw [← inv.copied_numbered, ← inv.signaled]
    exact prefix_append _ _
  exact eq_range'_of_prefix initial

theorem calls_length : s.calls.length = s.heap.lastDoneValue := by
  simpa using congrArg length inv.numbered

theorem call_value {i : Nat} {r : Readback} (at_ : s.calls[i]? = some r) :
    r.doneEvent.fenceValue = i + 1 := by
  have value : (s.calls.map (·.doneEvent.fenceValue))[i]? = some r.doneEvent.fenceValue := by
    simp [at_]
  rw [inv.numbered] at value
  obtain ⟨lt, same⟩ := List.getElem?_eq_some_iff.mp value
  simp at same
  omega

end Invariant

variable {batchFlushSize : Nat} {context : ExecutionContext.State Command}

theorem Invariant.context_step {addressSpace : Nat} {s : State}
    {action : ExecutionContext.Action Command} (inv : Invariant addressSpace s)
    (closes : action.Closes)
    (taken : ExecutionContext.step batchFlushSize s.context action = some context) :
    Invariant addressSpace { s with context := context } := by
  obtain ⟨forward, same⟩ := ExecutionContext.step_forward batchFlushSize taken
  exact
    { inv with
      context := ExecutionContext.step_invariant _ _ _ _ inv.context taken
      recorder := by rw [same closes]; exact inv.recorder
      ceiling := fun e mem => (inv.ceiling e mem).trans forward
      copying := fun r event phase =>
        ⟨(inv.copying r event phase).1, (inv.copying r event phase).2.trans forward⟩ }

variable {events : EventQueue.State (Option Readback)}

theorem runCallback_eq {s : State} {new : List (EventQueue.Event (Option Readback) × Nat)}
    (inEnqueue : Bool) (ok : s.context.batchState.status.isOk = true) (free : s.signaling = none)
    (logged : events.executed = s.events.executed ++ new) (single : new.length ≤ 1) :
    runCallback s events inEnqueue = { s with
        events := events
        copied := s.copied ++ new.filterMap (·.1.doneCallback)
        signaling := (new.filterMap (·.1.doneCallback)).head?.map (⟨·, inEnqueue⟩) } := by
  have status : s.context.batchState.getCommandRecorderStatus.isOk = true := ok
  have few : (new.filterMap (·.1.doneCallback)).length ≤ 1 := (length_filterMap_le _ _).trans single
  unfold runCallback
  rw [logged, drop_left]
  cases callbacks : new.filterMap (·.1.doneCallback) with
  | nil => simp [free]
  | cons readback rest =>
    have alone : rest = [] := by
      rw [callbacks] at few
      simpa using few
    simp [alone, status]

variable {action : EventQueue.Action (Option Readback)}

theorem Invariant.events_step {addressSpace : Nat} {s : State} (inv : Invariant addressSpace s)
    (free : s.signaling = none) (taken : EventQueue.step s.events action = some events)
    (inEnqueue : Bool) : ∃ copied signaling, runCallback s events inEnqueue =
        { s with events := events, copied := copied, signaling := signaling } ∧
      EventQueue.Invariant events ∧ copied = events.ran.filterMap EventQueue.Event.doneCallback ∧
      s.signals ++ (signaling.map (·.readback.doneEvent.fenceValue)).toList =
        copied.map (·.doneEvent.fenceValue) ∧
      events.enqueued = s.events.enqueued ++ action.adds s.events := by
  obtain ⟨-, enqueued, new, single, logged⟩ := step_logs taken
  have next := EventQueue.step_invariant _ _ _ inv.events taken
  have pre := inv.signaled
  rw [free] at pre
  refine ⟨_, _, runCallback_eq inEnqueue inv.recorder free logged single, next, ?_, ?_, enqueued⟩
  · rw [inv.copies]
    simp [EventQueue.State.ran, logged, filterMap_map]
  · have few : (new.filterMap (·.1.doneCallback)).length ≤ 1 :=
      (length_filterMap_le _ _).trans single
    have unsignaled : s.signals = s.copied.map (·.doneEvent.fenceValue) := by simpa using pre
    cases callbacks : new.filterMap (·.1.doneCallback) with
    | nil => simp [unsignaled]
    | cons readback rest =>
      have alone : rest = [] := by
        rw [callbacks] at few
        simpa using few
      simp [alone, unsignaled]

theorem Invariant.alignFits {addressSpace : Nat} {s : State} (inv : Invariant addressSpace s)
    (limited : addressSpace + 2 ^ 16 ≤ 2 ^ 64) (call : Call) :
    ∀ chunk ∈ (s.heap.reclaimed call).chunks, chunk.AlignFits call.sizeInBytes := by
  intro chunk mem first last oldest latest _
  have reclaimed := inv.heap.heap.reclaimed call.observed
  have lt := (reclaimed.ordered chunk mem).inside last (mem_of_getLast? latest)
  have below : chunk.capacityInBytes ≤ (s.heap.reclaimed call).capacities.sum :=
    le_sum_of_mem (List.mem_map_of_mem mem)
  have same : (s.heap.reclaimed call).capacities = s.heap.heap.capacities := capacities_reclaim _ _
  have capacity := inv.capacity
  rw [same] at below
  apply Or.inl
  unfold kAllocationAlignment
  omega

variable {src : Source}

theorem Invariant.reserve {addressSpace : Nat} {s t : State} {dst : Nat} {call : Call}
    (inv : Invariant addressSpace s) (limited : addressSpace + 2 ^ 16 ≤ 2 ^ 64)
    (idle : s.phase = .idle) (next : call.doneEvent = ⟨s.heap.lastDoneValue + 1, completionFence⟩)
    (taken : reserve addressSpace s dst src call = some t) : Invariant addressSpace t := by
  unfold ReadbackHeap.reserve at taken
  dsimp only at taken
  split at taken
  case isFalse => cases taken
  case isTrue allowed =>
    obtain ⟨pos, observes, capacity⟩ := allowed
    obtain ⟨heap, separate, completed, outcome⟩ := call_sound inv.heap pos
      (by rw [next]; exact Nat.le_succ _) observes (inv.alignFits limited call)
      (served s.heap call) (by omega)
    rcases outcome with ⟨issued, last⟩ | ⟨last, resource, offset, issued⟩
    · -- `Reserve` failed
      rw [issued, drop_length] at taken
      obtain rfl := some.inj taken
      exact
        { inv with
          heap := heap
          capacity := capacity
          ranges := inv.ranges.trans issued.symm
          numbered := by simpa only [last] using inv.numbered
          completed := completed.trans inv.completed
          apart := by simpa only [completed] using inv.apart }
    · rw [issued, drop_left] at taken
      obtain rfl := some.inj taken
      have value : (⟨dst, resource, call.allocation offset⟩ : Readback).doneEvent.fenceValue =
          s.heap.lastDoneValue + 1 := by
        simp [Readback.doneEvent, Call.allocation, next]
      have queued := inv.queued
      have returned := inv.returned
      rw [idle] at queued returned
      exact
        { inv with
          heap := heap
          capacity := capacity
          ranges := by simp [issued, inv.ranges]
          numbered := by simp [last, next, inv.numbered, value, range'_concat, add_comm]
          queued := by simpa [State.enqueuedCalls, Phase.unqueued] using queued
          copying := by simp
          completed := completed.trans inv.completed
          apart := by
            refine pairwise_append.mpr ⟨by simpa only [completed] using inv.apart, by simp, ?_⟩
            intro a old b new
            obtain rfl := mem_singleton.mp new
            have range : (a.resource, a.allocation) ∈ s.heap.issued := by
              rw [← inv.ranges]
              exact List.mem_map_of_mem (f := fun r => (r.resource, r.allocation)) old
            by_cases pending : a.allocation.doneEvent.isSignaled s.heap.completedValue = false
            · exact Or.inr fun same => separate _ range (resource, call.allocation offset)
                (by simp [issued]) same pending
            · rw [DmlGpuEvent.isSignaled_eq_false] at pending
              exact Or.inl (by rw [completed]; exact Nat.le_of_not_lt pending)
          returned := by simpa [Phase.pending] using returned }

variable {readback : Readback}

theorem Invariant.copyBufferRegion {addressSpace : Nat} {s : State} (inv : Invariant addressSpace s)
    (reserved : s.phase = .reserved readback src)
    (taken : ExecutionContext.step batchFlushSize s.context
      (.append (copyCommand readback src)) = some context) : Invariant addressSpace
      { s with
        context := context
        phase := .copying readback
          (s.context.batchState.append (copyCommand readback src)).1 } := by
  have closes : (ExecutionContext.Action.append (copyCommand readback src)).Closes := trivial
  have next := inv.context_step closes taken
  have forward := (ExecutionContext.step_forward batchFlushSize taken).1
  have queued := inv.queued
  have returned := inv.returned
  rw [reserved] at queued returned
  exact
    { next with
      queued := queued
      copying := by
        rintro r event phase
        obtain ⟨-, rfl⟩ := Phase.copying.inj phase
        exact ⟨inv.ceiling, forward⟩
      returned := returned }

theorem Invariant.enqueue {addressSpace : Nat} {s : State} {gpuDoneEvent : DmlGpuEvent}
    (inv : Invariant addressSpace s) (copying : s.phase = .copying readback gpuDoneEvent)
    (free : s.signaling = none)
    (taken : EventQueue.step s.events (.enqueue gpuDoneEvent (some readback)) = some events) :
    Invariant addressSpace
      { runCallback s events true with phase := .enqueued readback } := by
  obtain ⟨copied, signaling, result, next, copies, signaled, added⟩ :=
    inv.events_step free taken true
  obtain ⟨above, below⟩ := inv.copying readback gpuDoneEvent copying
  have calls : events.enqueued.filterMap EventQueue.Event.doneCallback =
      s.enqueuedCalls ++ [readback] := by
    simp [added, EventQueue.Action.adds, State.enqueuedCalls]
  have callEvents : events.enqueued.filter (·.doneCallback.isSome) =
      s.callEvents ++ [⟨s.events.enqueued.length, gpuDoneEvent.fenceValue, some readback⟩] := by
    simp [added, EventQueue.Action.adds, State.callEvents]
  have queued := inv.queued
  have returned := inv.returned
  rw [copying] at queued returned
  rw [result]
  exact
    { inv with
      events := next
      queued := by simpa [State.enqueuedCalls, calls, Phase.unqueued] using queued
      rising := by
        simp only [State.callEvents, callEvents]
        refine pairwise_append.mpr ⟨inv.rising, by simp, ?_⟩
        intro a old b new
        obtain rfl := mem_singleton.mp new
        exact above a old
      ceiling := by
        simp only [State.callEvents, callEvents]
        exact forall_mem_append.mpr ⟨inv.ceiling, by simpa using below⟩
      copying := by simp
      copies := copies
      signaled := signaled
      returned := returned }

theorem Invariant.finishCall {addressSpace : Nat} {s : State} (inv : Invariant addressSpace s)
    (enqueued : s.phase = .enqueued readback) : Invariant addressSpace
      { s with phase := .idle, returned := s.returned ++ [readback.doneEvent] } := by
  have queued := inv.queued
  have returned := inv.returned
  rw [enqueued] at queued returned
  exact
    { inv with
      queued := queued
      copying := by simp
      returned := by simpa [Phase.pending] using returned }

theorem Invariant.independent_step {addressSpace : Nat} {s : State} (inv : Invariant addressSpace s)
    (other : independent action = true) (free : s.signaling = none)
    (taken : EventQueue.step s.events action = some events) :
    Invariant addressSpace (runCallback s events false) := by
  obtain ⟨copied, signaling, result, next, copies, signaled, added⟩ :=
    inv.events_step free taken false
  have foreign : ∀ e ∈ action.adds s.events, e.doneCallback = none := by
    cases action with
    | enqueue gpuEvent doneCallback => simpa [EventQueue.Action.adds, independent] using other
    | _ => simp [EventQueue.Action.adds]
  have calls : events.enqueued.filterMap EventQueue.Event.doneCallback = s.enqueuedCalls := by
    simp [added, State.enqueuedCalls, filterMap_eq_nil_iff.mpr foreign]
  have callEvents : events.enqueued.filter (·.doneCallback.isSome) = s.callEvents := by
    have none_kept : (action.adds s.events).filter (·.doneCallback.isSome) = [] := by
      rw [filter_eq_nil_iff]
      intro e mem
      simp [foreign e mem]
    simp [added, State.callEvents, none_kept]
  rw [result]
  exact
    { inv with
      events := next
      queued := by simpa [State.enqueuedCalls, calls] using inv.queued
      rising := by simpa only [State.callEvents, callEvents] using inv.rising
      ceiling := by simpa only [State.callEvents, callEvents] using inv.ceiling
      copying := by simpa only [State.callEvents, callEvents] using inv.copying
      copies := copies
      signaled := signaled }

theorem Invariant.signalCompletion {addressSpace : Nat} {s : State} {cur : Signaling}
    (inv : Invariant addressSpace s) (busy : s.signaling = some cur) : Invariant addressSpace
      { s with
        heap := { s.heap with completedValue := cur.readback.doneEvent.fenceValue }
        signals := s.signals ++ [cur.readback.doneEvent.fenceValue]
        signaling := none } := by
  have signaled := inv.signaled
  rw [busy] at signaled
  have lens := congrArg length signaled
  have value : cur.readback.doneEvent.fenceValue = s.signals.length + 1 := by
    have numbered := inv.copied_numbered
    rw [← signaled] at numbered
    have last := congrArg getLast? numbered
    simp [getLast?_range'] at last lens
    omega
  have forward : s.heap.completedValue ≤ cur.readback.doneEvent.fenceValue := by
    rw [inv.completed, value]
    exact Nat.le_succ _
  exact
    { inv with
      heap := ⟨inv.heap.heap, inv.heap.recorded.forward forward⟩
      signaled := by simpa using signaled
      completed := by simp [value]
      apart := inv.apart.imp fun holds => holds.imp (fun le => le.trans forward) id }

def Action.Records : Action → Prop
  | .context action => action.Closes
  | _ => True

theorem step_invariant {addressSpace : Nat} (limited : addressSpace + 2 ^ 16 ≤ 2 ^ 64) (s : State)
    (a : Action) (t : State) (records : a.Records) (inv : Invariant addressSpace s)
    (taken : step batchFlushSize addressSpace s a = some t) : Invariant addressSpace t := by
  cases a with
  | reserve dst sizeInBytes src seen new =>
    cases phase : s.phase with
    | idle =>
      simp only [step, phase] at taken
      exact inv.reserve limited phase rfl taken
    | reserved | copying | enqueued => simp [step, phase] at taken
  | copyBufferRegion =>
    cases phase : s.phase with
    | reserved readback src =>
      simp only [step, phase, map_eq_some_iff] at taken
      obtain ⟨context, appended, rfl⟩ := taken
      exact inv.copyBufferRegion phase appended
    | idle | copying | enqueued => simp [step, phase] at taken
  | enqueue =>
    cases phase : s.phase with
    | copying readback gpuDoneEvent =>
      simp only [step, phase, ite_none_right_eq_some, map_eq_some_iff, isNone_iff_eq_none] at taken
      obtain ⟨free, events, enqueued, rfl⟩ := taken
      exact inv.enqueue phase free enqueued
    | idle | reserved | enqueued => simp [step, phase] at taken
  | finishCall =>
    cases phase : s.phase with
    | enqueued readback =>
      simp only [step, phase, ite_none_left_eq_some, Option.some.injEq] at taken
      obtain ⟨-, rfl⟩ := taken
      exact inv.finishCall phase
    | idle | reserved | copying => simp [step, phase] at taken
  | signalCompletion =>
    cases busy : s.signaling with
    | some cur =>
      simp only [step, busy, Option.some.injEq] at taken
      exact taken ▸ inv.signalCompletion busy
    | none => simp [step, busy] at taken
  | context action =>
    simp only [step, map_eq_some_iff] at taken
    obtain ⟨context, stepped, rfl⟩ := taken
    exact inv.context_step records stepped
  | queueSignal value =>
    simp only [step, ite_none_right_eq_some, map_eq_some_iff] at taken
    obtain ⟨-, events, signaled, rfl⟩ := taken
    have next := EventQueue.step_invariant _ _ _ inv.events signaled
    obtain ⟨-, -, rfl⟩ := step_signal signaled
    exact { inv with events := next }
  | eventQueue action =>
    simp only [step, ite_none_right_eq_some, map_eq_some_iff, isNone_iff_eq_none] at taken
    obtain ⟨⟨other, free⟩, events, stepped, rfl⟩ := taken
    exact inv.independent_step other free stepped

/-- What the callers can rely on in a state: the signals on the completion fence are 1, 2,
    3, …; the events are returned in call order with these values; once the event of
    a call is signaled, its copy and those of all earlier calls are done; and the
    range of a call that is not yet copied is apart from those of all later calls. -/
structure Guarantee (s : State) : Prop where
  signals : s.signals = range' 1 s.signals.length ∧ s.heap.completedValue = s.signals.length
  values : s.calls.map (·.doneEvent.fenceValue) = range' 1 s.calls.length
  returned : s.returned <+: s.calls.map Readback.doneEvent
  copied : ∀ (k : Nat) (r : Readback), s.calls[k]? = some r →
    r.doneEvent.isSignaled s.heap.completedValue →
      ∀ j ≤ k, ∀ q : Readback, s.calls[j]? = some q → q ∈ s.copied
  apart : ∀ (i j : Nat) (a b : Readback), s.calls[i]? = some a → s.calls[j]? = some b →
    i < j → a ∉ s.copied → a.Apart b

theorem Invariant.mem_copied {addressSpace : Nat} {s : State} (inv : Invariant addressSpace s)
    {j : Nat} {q : Readback} (call : s.calls[j]? = some q) (early : j < s.copied.length) :
    q ∈ s.copied := by
  obtain ⟨rest, split⟩ := inv.copied_prefix
  rw [← split, getElem?_append_left early] at call
  exact mem_of_getElem? call

theorem Invariant.guarantee {addressSpace : Nat} {s : State} (inv : Invariant addressSpace s) :
    Guarantee s := by
  have bound : s.heap.completedValue ≤ s.copied.length := by
    have lens := congrArg length inv.signaled
    simp only [length_append, length_map] at lens
    rw [inv.completed]
    omega
  refine ⟨⟨inv.signals_numbered, inv.completed⟩, ?_, ?_, ?_, ?_⟩
  · rw [inv.calls_length]
    exact inv.numbered
  · rw [← inv.returned]
    exact prefix_append _ _
  · intro k r call signaled j le q earlier
    have value := inv.call_value call
    have run : r.doneEvent.fenceValue ≤ s.heap.completedValue := by
      simpa [DmlGpuEvent.isSignaled] using signaled
    exact inv.mem_copied earlier (by omega)
  · intro i j a b first snd lt uncopied
    have value := inv.call_value first
    have late : s.copied.length ≤ i := by
      by_contra early
      exact uncopied (inv.mem_copied first (Nat.lt_of_not_le early))
    obtain ⟨hi, rfl⟩ := List.getElem?_eq_some_iff.mp first
    obtain ⟨hj, rfl⟩ := List.getElem?_eq_some_iff.mp snd
    apply (pairwise_iff_getElem.mp inv.apart i j hi hj lt).resolve_left
    omega

/-- Readbacks complete in call order, over every interleaving in which the recorder does
    not fail. -/
theorem readbacks_in_order {batchFlushSize addressSpace : Nat}
    (limited : addressSpace + 2 ^ 16 ≤ 2 ^ 64) {actions : List Action} {s : State}
    (records : ∀ a ∈ actions, a.Records)
    (reached : run (step batchFlushSize addressSpace) {} actions = some s) : Guarantee s :=
  (run_invariant_of (step_invariant limited) records (invariant_init addressSpace)
    reached).guarantee

/-- Two readbacks: the second one is reserved while the copy of the first is pending, and
    both callbacks run in one iteration of the event thread. -/
def twoReadbacks : List Action :=
  [.reserve 10 100 ⟨7, 0⟩ (fun _ => 0) true, .copyBufferRegion, .enqueue, .finishCall,
    .context .flush, .context (.iterate false),
    .reserve 11 50 ⟨7, 512⟩ (fun _ => 0) true, .copyBufferRegion, .enqueue,
    .context (.execute .ok), .finishCall, .context (.iterate true), .context (.execute .ok),
    .queueSignal 2, .eventQueue .collect, .eventQueue .runCallback, .signalCompletion,
    .eventQueue .runCallback, .signalCompletion, .eventQueue .finish]

theorem twoReadbacks_in_order :
    ∃ s, run (step 100 (2 ^ 40)) {} twoReadbacks = some s ∧ s.signals = [1, 2] ∧
      s.copied.map Readback.dst = [10, 11] ∧ Guarantee s := by
  have reached : ∃ s, run (step 100 (2 ^ 40)) {} twoReadbacks = some s ∧ s.signals = [1, 2] ∧
      s.copied.map Readback.dst = [10, 11] := ⟨_, rfl, rfl, rfl⟩
  have records : ∀ a ∈ twoReadbacks, a.Records := by
    simp [twoReadbacks, Action.Records, ExecutionContext.Action.Closes, Status.isOk]
  obtain ⟨s, reached, signals, copied⟩ := reached
  exact ⟨s, reached, signals, copied, readbacks_in_order (by decide) records reached⟩

end TfDml.ReadbackHeap
