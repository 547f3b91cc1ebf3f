import TfDml.Core.ReadbackHeap
import TfDml.Core.RecorderFailure

/-! # Blocking readbacks

`CopyDeviceTensorToCPU`, `CopyDeviceTensorsToCPU` and `plugin_memcpy_dtoh` start
their readbacks, synchronize with the queue and wait for the last done event.
Each callback writes to memory of the caller, so it must not run once the
function has returned. The call runs among the steps of all other clients, the
two background threads and the GPU, and the device may be removed at any time.
-/

namespace TfDml.BlockingReadback

open Lib List Option
open ReadbackHeap (Readback Source)
open ReadbackHeap EventQueue

/-- What is read back for a tensor or a memory region: the CPU memory to fill, its
    size and the region to copy. -/
structure Transfer where
  dst : Nat
  totalBytes : Nat
  src : Source

inductive Function where
  | copyDeviceTensorToCPU (tensor : Transfer)
  | copyDeviceTensorsToCPU (tensors : List Transfer)
  | pluginMemcpyDtoh (memory : Transfer)

/-- All three skip what is empty, stop at the first readback that fails, and then
    synchronize and wait if anything was read back. -/
def Function.transfers : Function → List Transfer
  | .copyDeviceTensorToCPU tensor => [tensor]
  | .copyDeviceTensorsToCPU tensors => tensors
  | .pluginMemcpyDtoh memory => [memory]

inductive Stage where
  | idle
  | loop (remaining : List Transfer)
  /-- Inside of `ReadbackFromGpu`, with its mutex. -/
  | reading (remaining : List Transfer)
  /-- Inside of `Sync`, at the wait for the event of the flush. -/
  | syncing (event : DmlGpuEvent)
  /-- At the wait for the last done event. -/
  | waiting
  | returned (status : Status)

/-- `copyEvent` is the local variable of the call; `enqueued` is a log of the
    readbacks whose callbacks it has enqueued. -/
structure State where
  readbacks : ReadbackHeap.State := {}
  deviceRemoved : Bool := false
  stage : Stage := .idle
  copyEvent : Option DmlGpuEvent := none
  enqueued : List Readback := []

inductive Action where
  | call (function : Function)
  /-- The loop skips an empty element, or ends and the call flushes. -/
  | next
  /-- The call enters `ReadbackFromGpu`, which reclaims and reserves. -/
  | readback (observed : Nat → Nat) (created : Bool)
  /-- The next part of `ReadbackFromGpu`. -/
  | proceed
  /-- The wait in `Sync` returns. -/
  | synced
  /-- The wait for the last done event returns. -/
  | waited
  | removeDevice
  /-- Any step of another client, a background thread or the GPU. -/
  | other (action : ReadbackHeap.Action)

/-- Every fence of a removed device reports `UINT64_MAX`. -/
def report (deviceRemoved : Bool) (r : ReadbackHeap.State) : ReadbackHeap.State :=
  if deviceRemoved then { r with heap := { r.heap with completedValue := uint64Max } } else r

def needsMutex : ReadbackHeap.Action → Bool
  | .copyBufferRegion | .enqueue | .finishCall => true
  | _ => false

def Stage.reads : Stage → Bool
  | .reading _ => true
  | _ => false

section

variable (batchFlushSize addressSpace : Nat)

def State.inner (s : State) (action : ReadbackHeap.Action) : Option ReadbackHeap.State :=
  (ReadbackHeap.step batchFlushSize addressSpace s.readbacks action).map (report s.deviceRemoved)

/-- What `Reserve` makes `ReadbackFromGpu` return, if it fails. -/
def State.reserveFailure (s : State) (totalBytes : Nat) (observed : Nat → Nat) (created : Bool) :
    Option Status :=
  match (PooledHeap.readbackFromGpu s.readbacks.heap.heap
    (s.readbacks.heap.request (s.readbacks.call totalBytes observed created))).1 with
  | .error status => some status
  | .ok _ => none

def readback (s : State) (observed : Nat → Nat) (created : Bool) : Option State :=
  match s.stage with
  | .loop (transfer :: rest) =>
    (s.inner batchFlushSize addressSpace
      (.reserve transfer.dst transfer.totalBytes transfer.src observed created)).map
        fun readbacks =>
          match s.reserveFailure transfer.totalBytes observed created with
          | some status => { s with readbacks := readbacks, stage := .returned status }
          | none => { s with readbacks := readbacks, stage := .reading rest }
  | _ => none

/-- `ReadbackFromGpu` after the reservation, up to `ConsumeValueOrDie`. -/
def proceed (s : State) : Option State :=
  match s.stage, s.readbacks.phase with
  | .reading _, .reserved _ _ =>
    (s.inner batchFlushSize addressSpace .copyBufferRegion).map ({ s with readbacks := · })
  | .reading _, .copying _ _ =>
    (s.inner batchFlushSize addressSpace .enqueue).map ({ s with readbacks := · })
  | .reading rest, .enqueued readback =>
    (s.inner batchFlushSize addressSpace .finishCall).map fun readbacks =>
      { s with
        readbacks := readbacks
        stage := .loop rest
        copyEvent := some readback.doneEvent
        enqueued := s.enqueued ++ [readback] }
  | _, _ => none

/-- After the loop: `Sync` flushes and returns the error of the flush, if any. -/
def next (s : State) : Option State :=
  match s.stage with
  | .loop (transfer :: rest) =>
    if transfer.totalBytes = 0 then some { s with stage := .loop rest } else none
  | .loop [] =>
    if s.copyEvent.isSome then
      (s.inner batchFlushSize addressSpace (.context .flush)).map fun readbacks =>
        match s.readbacks.context.batchState.sync.1 with
        | .error status => { s with readbacks := readbacks, stage := .returned status }
        | .ok event => { s with readbacks := readbacks, stage := .syncing event }
    else some { s with stage := .returned .ok }
  | _ => none

def step (s : State) : Action → Option State
  | .call function =>
    match s.stage with
    | .idle => some { s with stage := .loop function.transfers }
    | _ => none
  | .next => next batchFlushSize addressSpace s
  | .readback observed created => readback batchFlushSize addressSpace s observed created
  | .proceed => proceed batchFlushSize addressSpace s
  | .synced =>
    match s.stage with
    | .syncing event =>
      if event.isSignaled s.readbacks.events.completedValue then
        some { s with stage := .waiting }
      else none
    | _ => none
  | .waited =>
    match s.stage with
    | .waiting =>
      if s.copyEvent.any (·.isSignaled s.readbacks.heap.completedValue) then
        some { s with stage := .returned .ok }
      else none
    | _ => none
  | .removeDevice =>
    (EventQueue.step s.readbacks.events (.signal uint64Max)).map fun events =>
      { s with
        deviceRemoved := true
        readbacks := report true { s.readbacks with events := events } }
  | .other action =>
    if s.stage.reads && needsMutex action then none
    else (s.inner batchFlushSize addressSpace action).map ({ s with readbacks := · })

end

/-- What the readback heap keeps even after the recorder has failed or the device is
    removed: the calls have different done values, each callback is enqueued
    once, and what is copied is among the callbacks that ran. -/
structure Distinct (r : ReadbackHeap.State) : Prop where
  events : EventQueue.Invariant r.events
  queued : r.calls = r.enqueuedCalls ++ r.phase.unqueued
  ascending : r.calls.Pairwise fun a b => a.doneEvent.fenceValue < b.doneEvent.fenceValue
  latest : ∀ a ∈ r.calls, a.doneEvent.fenceValue ≤ r.heap.lastDoneValue
  pending : ∀ a ∈ r.phase.pending, a ∈ r.calls ∧ a.doneEvent.fenceValue = r.heap.lastDoneValue
  copies : r.copied.Sublist (r.events.ran.filterMap EventQueue.Event.doneCallback)

theorem distinct_init : Distinct {} where
  events := EventQueue.invariant_init _ _
  queued := rfl
  ascending := .nil
  latest := by simp
  pending := by simp [ReadbackHeap.Phase.pending]
  copies := .refl _

variable {r : ReadbackHeap.State}

theorem Distinct.nodup (nodup : Distinct r) : r.copied.Nodup := by
  have calls : r.calls.Nodup := by
    refine nodup.ascending.imp ?_
    rintro a b less rfl
    exact absurd less (Nat.lt_irrefl _)
  have enqueued : r.enqueuedCalls.Nodup := by
    rw [nodup.queued] at calls
    exact calls.of_append_left
  have service : (r.events.service.filterMap EventQueue.Event.doneCallback).Nodup :=
    (nodup.events.complete.filterMap _).nodup_iff.mpr enqueued
  have ran : (r.events.ran.filterMap EventQueue.Event.doneCallback).Nodup := by
    unfold EventQueue.State.service at service
    rw [append_assoc, filterMap_append] at service
    exact service.of_append_left
  exact ran.sublist nodup.copies

/-- The recorder has failed, so no callback copies any more. -/
def Failed (r : ReadbackHeap.State) : Prop := r.context.batchState.status.isOk = false

structure Grows (r t : ReadbackHeap.State) : Prop where
  calls : r.calls <+: t.calls
  failed : Failed r → Failed t
  copied : ∃ new, t.copied = r.copied ++ new ∧ (Failed r → new = [])

theorem Grows.refl (r : ReadbackHeap.State) : Grows r r where
  calls := prefix_rfl
  failed := id
  copied := ⟨[], by simp, fun _ => rfl⟩

theorem Grows.trans {t u : ReadbackHeap.State} (first : Grows r t) (snd : Grows t u) :
    Grows r u := by
  obtain ⟨new, copied, none⟩ := first.copied
  obtain ⟨new', copied', none'⟩ := snd.copied
  refine ⟨first.calls.trans snd.calls, snd.failed ∘ first.failed, new ++ new', ?_, ?_⟩
  · rw [copied', copied, append_assoc]
  · intro err
    rw [none err, none' (first.failed err), append_nil]

theorem context_status {batchFlushSize : Nat}
    {s t : ExecutionContext.State ExecutionContext.Command}
    {action : ExecutionContext.Action ExecutionContext.Command}
    (taken : ExecutionContext.step batchFlushSize s action = some t) :
    action.Closes ∧ t.batchState.status = s.batchState.status ∨
      t.batchState.status.isOk = false := by
  by_cases closes : action.Closes
  · exact Or.inl ⟨closes, (ExecutionContext.step_forward batchFlushSize taken).2 closes⟩
  · cases action with
    | execute close =>
      obtain ⟨batch, -, rfl⟩ := ExecutionContext.step_execute taken
      have failure : close.isOk = false := by simpa [ExecutionContext.Action.Closes] using closes
      exact Or.inr (by simp [ExecutionContext.execute, failure])
    | append | flush | getCurrentCompletionEvent | iterate | requestExit =>
      exact absurd trivial closes

theorem serve_values (heap : PooledHeap.HeapState) (call : PooledHeap.Call)
    (next : call.doneEvent.fenceValue = heap.lastDoneValue + 1) :
    ((heap.serve call).issued = heap.issued ∧
        heap.lastDoneValue ≤ (heap.serve call).lastDoneValue) ∨ ∃ resource offset,
        (heap.serve call).issued = heap.issued ++ [(resource, call.allocation offset)] ∧
        (heap.serve call).lastDoneValue = heap.lastDoneValue + 1 := by
  have result := PooledHeap.served heap call
  generalize heap.serve call = settled at result ⊢
  cases result with
  | failed status result => exact Or.inl ⟨rfl, le_refl _⟩
  | placed index offset after result =>
    cases got : (PooledHeap.pushAllocation after index
        (call.allocation offset)).chunks[index]? with
    | none =>
      refine Or.inl ⟨by simp, ?_⟩
      dsimp only
      omega
    | some chunk => exact Or.inr ⟨chunk.resource, offset, by simp, next⟩

variable {dst : Nat} {src : Source} {call : PooledHeap.Call}

theorem reserve_outcome {addressSpace : Nat} {t : ReadbackHeap.State}
    (next : call.doneEvent.fenceValue = r.heap.lastDoneValue + 1)
    (taken : ReadbackHeap.reserve addressSpace r dst src call = some t) :
    ∃ heap, (t = { r with heap := heap } ∧ r.heap.lastDoneValue ≤ heap.lastDoneValue) ∨
      ∃ readback : Readback, readback.doneEvent.fenceValue = r.heap.lastDoneValue + 1 ∧
        heap.lastDoneValue = r.heap.lastDoneValue + 1 ∧ t = { r with
          heap := heap
          phase := .reserved readback src
          calls := r.calls ++ [readback] } := by
  unfold ReadbackHeap.reserve at taken
  simp only [ite_none_right_eq_some] at taken
  obtain ⟨-, taken⟩ := taken
  refine ⟨r.heap.serve call, ?_⟩
  rcases serve_values r.heap call next with ⟨issued, later⟩ | ⟨resource, offset, issued, last⟩
  · rw [issued, drop_length] at taken
    exact Or.inl ⟨(some.inj taken).symm, later⟩
  · rw [issued, drop_left] at taken
    refine Or.inr ⟨⟨dst, resource, call.allocation offset⟩, next, last, ?_⟩
    exact (some.inj taken).symm

theorem runCallback_grows (r : ReadbackHeap.State)
    (events : EventQueue.State (Option Readback)) (inEnqueue : Bool) :
    Grows r (runCallback r events inEnqueue) := by
  unfold runCallback
  split
  · rename_i readback single
    split
    · rename_i ok
      refine ⟨prefix_rfl, id, [readback], rfl, ?_⟩
      intro err
      exact absurd (err.symm.trans ok) Bool.false_ne_true
    · exact ⟨prefix_rfl, id, [], by simp, fun _ => rfl⟩
  · exact ⟨prefix_rfl, id, [], by simp, fun _ => rfl⟩

theorem runCallback_eq (r : ReadbackHeap.State) (events : EventQueue.State (Option Readback))
    (inEnqueue : Bool) : ∃ copied signaling, runCallback r events inEnqueue =
        { r with events := events, copied := copied, signaling := signaling } ∧
      copied.Sublist (r.copied ++
        (events.executed.drop r.events.executed.length).filterMap (·.1.doneCallback)) := by
  unfold runCallback
  split
  · rename_i readback single
    rw [single]
    split
    · exact ⟨_, _, rfl, .refl _⟩
    · exact ⟨_, _, rfl, sublist_append_left _ _⟩
  · exact ⟨_, _, rfl, sublist_append_left _ _⟩

variable {action : EventQueue.Action (Option Readback)}
  {events : EventQueue.State (Option Readback)}

theorem Distinct.events_step (nodup : Distinct r)
    (taken : EventQueue.step r.events action = some events) (inEnqueue : Bool) :
    ∃ copied signaling, runCallback r events inEnqueue =
        { r with events := events, copied := copied, signaling := signaling } ∧
      copied.Sublist (events.ran.filterMap EventQueue.Event.doneCallback) := by
  obtain ⟨copied, signaling, result, among⟩ := runCallback_eq r events inEnqueue
  obtain ⟨-, -, new, -, logged⟩ := step_logs taken
  refine ⟨copied, signaling, result, among.trans ?_⟩
  rw [logged, drop_left]
  have ran : events.ran.filterMap EventQueue.Event.doneCallback =
      r.events.ran.filterMap EventQueue.Event.doneCallback ++ new.filterMap (·.1.doneCallback) := by
    simp [EventQueue.State.ran, logged, filterMap_map]
  rw [ran]
  exact nodup.copies.append_right _

theorem Distinct.reserve {addressSpace : Nat} {t : ReadbackHeap.State} (nodup : Distinct r)
    (idle : r.phase = .idle) (next : call.doneEvent.fenceValue = r.heap.lastDoneValue + 1)
    (taken : ReadbackHeap.reserve addressSpace r dst src call = some t) :
    Distinct t ∧ Grows r t := by
  have queued := nodup.queued
  rw [idle] at queued
  obtain ⟨heap, ⟨rfl, later⟩ | ⟨readback, value, last, rfl⟩⟩ := reserve_outcome next taken
  · refine ⟨?_, prefix_rfl, id, [], by simp, fun _ => rfl⟩
    exact
      { nodup with
        latest := fun a mem => (nodup.latest a mem).trans later
        pending := by simp [idle, ReadbackHeap.Phase.pending] }
  · refine ⟨?_, prefix_append _ _, id, [], by simp, fun _ => rfl⟩
    have below : ∀ a ∈ r.calls, a.doneEvent.fenceValue < readback.doneEvent.fenceValue := by
      intro a mem
      have := nodup.latest a mem
      omega
    exact
      { nodup with
        queued := by
          simpa [ReadbackHeap.State.enqueuedCalls, ReadbackHeap.Phase.unqueued] using queued
        ascending := by
          refine pairwise_append.mpr ⟨nodup.ascending, by simp, ?_⟩
          simpa using below
        latest := by
          refine forall_mem_append.mpr ⟨?_, by simp [value, last]⟩
          intro a mem
          exact (nodup.latest a mem).trans (last ▸ Nat.le_succ _)
        pending := by simp [ReadbackHeap.Phase.pending, value, last] }

theorem Distinct.enqueue {readback : Readback} {gpuDoneEvent : DmlGpuEvent} (nodup : Distinct r)
    (copying : r.phase = .copying readback gpuDoneEvent)
    (taken : EventQueue.step r.events (.enqueue gpuDoneEvent (some readback)) = some events) :
    Distinct { runCallback r events true with phase := .enqueued readback } := by
  obtain ⟨copied, signaling, result, copies⟩ := nodup.events_step taken true
  obtain ⟨-, added, -⟩ := step_logs taken
  have queued := nodup.queued
  have pending := nodup.pending
  rw [copying] at queued pending
  rw [result]
  exact
    { nodup with
      events := EventQueue.step_invariant _ _ _ nodup.events taken
      queued := by
        simpa [ReadbackHeap.State.enqueuedCalls, added, EventQueue.Action.adds,
          ReadbackHeap.Phase.unqueued] using queued
      pending := pending
      copies := copies }

theorem Distinct.independent_step (nodup : Distinct r)
    (other : independent action = true)
    (taken : EventQueue.step r.events action = some events) :
    Distinct (runCallback r events false) := by
  obtain ⟨copied, signaling, result, copies⟩ := nodup.events_step taken false
  obtain ⟨-, added, -⟩ := step_logs taken
  have foreign : (action.adds r.events).filterMap EventQueue.Event.doneCallback = [] := by
    cases action with
    | enqueue gpuEvent doneCallback => simpa [EventQueue.Action.adds, independent] using other
    | _ => simp [EventQueue.Action.adds]
  rw [result]
  exact
    { nodup with
      events := EventQueue.step_invariant _ _ _ nodup.events taken
      queued := by simpa [ReadbackHeap.State.enqueuedCalls, added, foreign] using nodup.queued
      copies := copies }

theorem Distinct.signal {value : Nat} (nodup : Distinct r)
    (taken : EventQueue.step r.events (.signal value) = some events) :
    Distinct { r with events := events } ∧ Grows r { r with events := events } := by
  have next := EventQueue.step_invariant _ _ _ nodup.events taken
  obtain ⟨-, -, rfl⟩ := step_signal taken
  exact ⟨{ nodup with events := next }, prefix_rfl, id, [], by simp, fun _ => rfl⟩

theorem Distinct.step {batchFlushSize addressSpace : Nat} {t : ReadbackHeap.State}
    {action : ReadbackHeap.Action} (nodup : Distinct r)
    (taken : ReadbackHeap.step batchFlushSize addressSpace r action = some t) :
    Distinct t ∧ Grows r t := by
  cases action with
  | reserve dst sizeInBytes src seen new =>
    cases phase : r.phase with
    | idle =>
      simp only [ReadbackHeap.step, phase] at taken
      exact nodup.reserve phase rfl taken
    | reserved | copying | enqueued => simp [ReadbackHeap.step, phase] at taken
  | copyBufferRegion =>
    cases phase : r.phase with
    | reserved readback src =>
      simp only [ReadbackHeap.step, phase, map_eq_some_iff] at taken
      obtain ⟨context, appended, rfl⟩ := taken
      obtain rfl := some.inj appended
      have queued := nodup.queued
      have pending := nodup.pending
      rw [phase] at queued pending
      refine ⟨?_, prefix_rfl, id, [], by simp, fun _ => rfl⟩
      exact { nodup with queued := queued, pending := pending }
    | idle | copying | enqueued => simp [ReadbackHeap.step, phase] at taken
  | enqueue =>
    cases phase : r.phase with
    | copying readback gpuDoneEvent =>
      simp only [ReadbackHeap.step, phase, ite_none_right_eq_some, map_eq_some_iff] at taken
      obtain ⟨-, events, enqueued, rfl⟩ := taken
      have grows := runCallback_grows r events true
      exact ⟨nodup.enqueue phase enqueued, grows.calls, grows.failed, grows.copied⟩
    | idle | reserved | enqueued => simp [ReadbackHeap.step, phase] at taken
  | finishCall =>
    cases phase : r.phase with
    | enqueued readback =>
      simp only [ReadbackHeap.step, phase, ite_none_left_eq_some, Option.some.injEq] at taken
      obtain ⟨-, rfl⟩ := taken
      have queued := nodup.queued
      rw [phase] at queued
      refine ⟨?_, prefix_rfl, id, [], by simp, fun _ => rfl⟩
      exact
        { nodup with
          queued := queued
          pending := by simp [ReadbackHeap.Phase.pending] }
    | idle | reserved | copying => simp [ReadbackHeap.step, phase] at taken
  | signalCompletion =>
    cases busy : r.signaling with
    | some cur =>
      simp only [ReadbackHeap.step, busy, Option.some.injEq] at taken
      subst taken
      exact ⟨{ nodup with }, prefix_rfl, id, [], by simp, fun _ => rfl⟩
    | none => simp [ReadbackHeap.step, busy] at taken
  | context action =>
    simp only [ReadbackHeap.step, map_eq_some_iff] at taken
    obtain ⟨context, stepped, rfl⟩ := taken
    refine ⟨{ nodup with }, prefix_rfl, ?_, [], by simp, fun _ => rfl⟩
    intro err
    rcases context_status stepped with ⟨-, same⟩ | fails
    · exact (congrArg Status.isOk same).trans err
    · exact fails
  | queueSignal value =>
    simp only [ReadbackHeap.step, ite_none_right_eq_some, map_eq_some_iff] at taken
    obtain ⟨-, events, signaled, rfl⟩ := taken
    exact nodup.signal signaled
  | eventQueue action =>
    simp only [ReadbackHeap.step, ite_none_right_eq_some, map_eq_some_iff] at taken
    obtain ⟨⟨other, -⟩, events, stepped, rfl⟩ := taken
    exact ⟨nodup.independent_step other stepped, runCallback_grows r events false⟩

def Stage.running : Stage → Bool
  | .returned _ => false
  | _ => true

/-- The kinds of steps, by what they do to the call. -/
inductive Moved (batchFlushSize addressSpace : Nat) (s : State) : Action → State → Prop where
  /-- The call only gets to another stage. -/
  | stage {a : Action} (stage : Stage) (running : stage.running = true) :
      Moved batchFlushSize addressSpace s a { s with stage := stage }
  /-- A step of the components, of the call or of another client. -/
  | inner {a : Action} {readbacks : ReadbackHeap.State} (action : ReadbackHeap.Action)
      (taken : s.inner batchFlushSize addressSpace action = some readbacks) :
      Moved batchFlushSize addressSpace s a { s with readbacks := readbacks }
  /-- Such a step that takes the call to another stage. -/
  | advanced {a : Action} {readbacks : ReadbackHeap.State} (action : ReadbackHeap.Action)
      (stage : Stage) (running : stage.running = true)
      (taken : s.inner batchFlushSize addressSpace action = some readbacks) :
      Moved batchFlushSize addressSpace s a { s with readbacks := readbacks, stage := stage }
  /-- It returns because nothing was read back. -/
  | empty (unset : s.copyEvent = none) :
      Moved batchFlushSize addressSpace s .next { s with stage := .returned .ok }
  /-- It returns because a readback failed. -/
  | failed {readbacks : ReadbackHeap.State} (observed : Nat → Nat) (created : Bool)
      (transfer : Transfer) (rest : List Transfer) (status : Status)
      (loop : s.stage = .loop (transfer :: rest))
      (failure : s.reserveFailure transfer.totalBytes observed created = some status)
      (taken : s.inner batchFlushSize addressSpace
        (.reserve transfer.dst transfer.totalBytes transfer.src observed created) =
          some readbacks) : Moved batchFlushSize addressSpace s (.readback observed created)
        { s with readbacks := readbacks, stage := .returned status }
  /-- `ReadbackFromGpu` returns the done event. -/
  | finished {readbacks : ReadbackHeap.State} (rest : List Transfer) (readback : Readback)
      (phase : s.readbacks.phase = .enqueued readback)
      (taken : s.inner batchFlushSize addressSpace .finishCall = some readbacks) :
      Moved batchFlushSize addressSpace s .proceed
        { s with
          readbacks := readbacks
          stage := .loop rest
          copyEvent := some readback.doneEvent
          enqueued := s.enqueued ++ [readback] }
  /-- It returns after the wait for the last event. -/
  | waited (event : DmlGpuEvent) (last : s.copyEvent = some event)
      (signaled : event.isSignaled s.readbacks.heap.completedValue = true) :
      Moved batchFlushSize addressSpace s .waited { s with stage := .returned .ok }
  | removed (events : EventQueue.State (Option Readback))
      (taken : EventQueue.step s.readbacks.events (.signal uint64Max) = some events) :
      Moved batchFlushSize addressSpace s .removeDevice
        { s with
          deviceRemoved := true
          readbacks := report true { s.readbacks with events := events } }

section

variable {batchFlushSize addressSpace : Nat} {s t : State}

theorem next_moved (taken : next batchFlushSize addressSpace s = some t) :
    Moved batchFlushSize addressSpace s .next t := by
  unfold next at taken
  split at taken
  · rw [ite_none_right_eq_some] at taken
    obtain ⟨-, same⟩ := taken
    obtain rfl := some.inj same
    exact .stage _ rfl
  · split at taken
    · simp only [map_eq_some_iff] at taken
      obtain ⟨readbacks, flushed, rfl⟩ := taken
      -- the flush cannot fail
      exact .advanced _ (.syncing s.readbacks.context.batchState.currentEvent) rfl flushed
    · rename_i unset
      obtain rfl := some.inj taken
      exact .empty (by simpa using unset)
  · cases taken

theorem readback_moved {seen : Nat → Nat} {new : Bool}
    (taken : readback batchFlushSize addressSpace s seen new = some t) :
    Moved batchFlushSize addressSpace s (.readback seen new) t := by
  unfold readback at taken
  split at taken
  · rename_i transfer rest loop
    simp only [map_eq_some_iff] at taken
    obtain ⟨readbacks, reserved, rfl⟩ := taken
    cases failure : s.reserveFailure transfer.totalBytes seen new with
    | some status => exact .failed seen new transfer rest status loop failure reserved
    | none => exact .advanced _ (.reading rest) rfl reserved
  · cases taken

theorem proceed_moved (taken : proceed batchFlushSize addressSpace s = some t) :
    Moved batchFlushSize addressSpace s .proceed t := by
  unfold proceed at taken
  split at taken
  · obtain ⟨readbacks, copied, rfl⟩ := map_eq_some_iff.mp taken
    exact .inner _ copied
  · obtain ⟨readbacks, enqueued, rfl⟩ := map_eq_some_iff.mp taken
    exact .inner _ enqueued
  · rename_i rest readback reading phase
    obtain ⟨readbacks, finished, rfl⟩ := map_eq_some_iff.mp taken
    exact .finished rest readback phase finished
  · cases taken

variable {a : Action}

theorem step_moved (taken : step batchFlushSize addressSpace s a = some t) :
    Moved batchFlushSize addressSpace s a t := by
  cases a with
  | call function =>
    simp only [step] at taken
    split at taken
    · obtain rfl := some.inj taken
      exact .stage _ rfl
    · cases taken
  | next => exact next_moved taken
  | readback seen new => exact readback_moved taken
  | proceed => exact proceed_moved taken
  | synced =>
    simp only [step] at taken
    split at taken
    · rw [ite_none_right_eq_some] at taken
      obtain ⟨-, same⟩ := taken
      obtain rfl := some.inj same
      exact .stage _ rfl
    · cases taken
  | waited =>
    simp only [step] at taken
    split at taken
    · rw [ite_none_right_eq_some] at taken
      obtain ⟨signaled, same⟩ := taken
      obtain rfl := some.inj same
      obtain ⟨event, last, signaled⟩ := (Option.any_eq_true _ _).mp signaled
      exact .waited event last signaled
    · cases taken
  | removeDevice =>
    obtain ⟨events, signaled, rfl⟩ := map_eq_some_iff.mp taken
    exact .removed events signaled
  | other action =>
    simp only [step, ite_none_left_eq_some] at taken
    obtain ⟨-, taken⟩ := taken
    obtain ⟨readbacks, stepped, rfl⟩ := map_eq_some_iff.mp taken
    exact .inner action stepped

variable {r : ReadbackHeap.State}

theorem Distinct.report (nodup : Distinct r) (deviceRemoved : Bool) :
    Distinct (report deviceRemoved r) := by
  unfold BlockingReadback.report
  split
  · exact { nodup with }
  · exact nodup

theorem grows_report (r : ReadbackHeap.State) (deviceRemoved : Bool) :
    Grows r (report deviceRemoved r) := by
  unfold report
  split
  · exact ⟨prefix_rfl, id, [], by simp, fun _ => rfl⟩
  · exact .refl r

variable {action : ReadbackHeap.Action} {readbacks : ReadbackHeap.State}

theorem Distinct.inner (nodup : Distinct s.readbacks)
    (taken : s.inner batchFlushSize addressSpace action = some readbacks) :
    Distinct readbacks ∧ Grows s.readbacks readbacks := by
  obtain ⟨r, stepped, rfl⟩ := map_eq_some_iff.mp taken
  obtain ⟨next, grows⟩ := nodup.step stepped
  exact ⟨next.report _, grows.trans (grows_report r _)⟩

theorem Distinct.removed {events : EventQueue.State (Option Readback)}
    (nodup : Distinct s.readbacks)
    (taken : EventQueue.step s.readbacks.events (.signal uint64Max) = some events) :
    Distinct (BlockingReadback.report true { s.readbacks with events := events }) ∧
      Grows s.readbacks (BlockingReadback.report true { s.readbacks with events := events }) := by
  obtain ⟨next, grows⟩ := nodup.signal taken
  exact ⟨next.report true, grows.trans (grows_report _ true)⟩

theorem Moved.grows (moved : Moved batchFlushSize addressSpace s a t)
    (nodup : Distinct s.readbacks) : Distinct t.readbacks ∧ Grows s.readbacks t.readbacks := by
  cases moved with
  | stage | empty | waited => exact ⟨nodup, .refl _⟩
  | inner _ taken => exact nodup.inner taken
  | advanced _ _ _ taken => exact nodup.inner taken
  | failed _ _ _ _ _ _ _ taken => exact nodup.inner taken
  | finished _ _ _ taken => exact nodup.inner taken
  | removed _ taken => exact nodup.removed taken

theorem run_grows {actions : List Action} (nodup : Distinct s.readbacks)
    (reached : run (step batchFlushSize addressSpace) s actions = some t) :
    Distinct t.readbacks ∧ Grows s.readbacks t.readbacks := by
  have keep : ∀ (u : State) (a : Action) (v : State),
      Distinct u.readbacks ∧ Grows s.readbacks u.readbacks →
        step batchFlushSize addressSpace u a = some v →
          Distinct v.readbacks ∧ Grows s.readbacks v.readbacks := by
    intro u a v holds taken
    obtain ⟨next, grows⟩ := (step_moved taken).grows holds.1
    exact ⟨next, holds.2.trans grows⟩
  exact run_invariant keep ⟨nodup, .refl _⟩ reached

/-- The callback of `readback` has copied, or it finds the recorder failed. -/
def Settled (r : ReadbackHeap.State) (readback : Readback) : Prop := readback ∈ r.copied ∨ Failed r

variable {r' : ReadbackHeap.State}

theorem Settled.grows {readback : Readback} (settled : Settled r readback) (grows : Grows r r') :
    Settled r' readback := by
  obtain ⟨new, copied, -⟩ := grows.copied
  rcases settled with done | failed
  · exact Or.inl (copied ▸ mem_append_left _ done)
  · exact Or.inr (grows.failed failed)

theorem Settled.not_later {readback : Readback} (settled : Settled r readback) (grows : Grows r r')
    (distinct : Distinct r') : readback ∉ r'.copied.drop r.copied.length := by
  obtain ⟨new, copied, none⟩ := grows.copied
  have nodup := distinct.nodup
  rw [copied] at nodup ⊢
  rw [drop_left]
  rcases settled with done | failed
  · intro later
    exact (nodup_append.mp nodup).2.2 readback done readback later rfl
  · simp [none failed]

/-- While the call runs, `copyEvent` is the latest done event of its readbacks; once it has
    returned, all of them are settled. As long as the recorder works and the
    device is there, the readback heap keeps its own invariant. -/
structure Invariant (addressSpace : Nat) (s : State) : Prop where
  distinct : Distinct s.readbacks
  healthy : s.deviceRemoved = false → ¬ Failed s.readbacks →
    ReadbackHeap.Invariant addressSpace s.readbacks
  known : ∀ r ∈ s.enqueued, r ∈ s.readbacks.calls
  event : ∀ r ∈ s.enqueued, ∃ e, s.copyEvent = some e ∧ r.doneEvent.fenceValue ≤ e.fenceValue
  settled : s.stage.running = false → ∀ r ∈ s.enqueued, Settled s.readbacks r

theorem invariant_init (addressSpace : Nat) : Invariant addressSpace {} where
  distinct := distinct_init
  healthy := fun _ _ => ReadbackHeap.invariant_init addressSpace
  known := by simp
  event := by simp
  settled := by simp

theorem Invariant.inner (limited : addressSpace + 2 ^ 16 ≤ 2 ^ 64) (inv : Invariant addressSpace s)
    (taken : s.inner batchFlushSize addressSpace action = some readbacks) :
    Invariant addressSpace { s with readbacks := readbacks } := by
  obtain ⟨nodup, grows⟩ := inv.distinct.inner taken
  refine ⟨nodup, ?_, ?_, inv.event, ?_⟩
  · intro present works
    have pre := inv.healthy present (mt grows.failed works)
    obtain ⟨r, stepped, rfl⟩ := map_eq_some_iff.mp taken
    have same : report s.deviceRemoved r = r := by
      unfold report
      exact if_neg (Bool.eq_false_iff.mp present)
    simp only [same] at works ⊢
    have records : action.Records := by
      cases action with
      | context action =>
        simp only [ReadbackHeap.step, map_eq_some_iff] at stepped
        obtain ⟨context, stepped, rfl⟩ := stepped
        exact ((context_status stepped).resolve_right works).1
      | _ => exact trivial
    exact ReadbackHeap.step_invariant limited _ _ _ records pre stepped
  · intro r mem
    exact grows.calls.subset (inv.known r mem)
  · intro ended r mem
    exact (inv.settled ended r mem).grows grows

theorem Invariant.finished {readback : Readback} (limited : addressSpace + 2 ^ 16 ≤ 2 ^ 64)
    (inv : Invariant addressSpace s) (phase : s.readbacks.phase = .enqueued readback)
    (taken : s.inner batchFlushSize addressSpace .finishCall = some readbacks)
    (rest : List Transfer) : Invariant addressSpace
      { s with
        readbacks := readbacks
        stage := .loop rest
        copyEvent := some readback.doneEvent
        enqueued := s.enqueued ++ [readback] } := by
  have next := inv.inner limited taken
  have grows := (inv.distinct.inner taken).2
  obtain ⟨call, latest⟩ := inv.distinct.pending readback
    (by simp [phase, ReadbackHeap.Phase.pending])
  refine ⟨next.distinct, next.healthy, ?_, ?_, by simp [Stage.running]⟩
  · refine forall_mem_append.mpr ⟨next.known, ?_⟩
    simpa using grows.calls.subset call
  · intro r mem
    refine ⟨_, rfl, ?_⟩
    rcases mem_append.mp mem with earlier | new
    · exact latest ▸ inv.distinct.latest r (inv.known r earlier)
    · rw [mem_singleton.mp new]

theorem Invariant.settled_of_signaled (inv : Invariant addressSpace s)
    (present : s.deviceRemoved = false) {event : DmlGpuEvent} (last : s.copyEvent = some event)
    (signaled : event.isSignaled s.readbacks.heap.completedValue = true) :
    ∀ r ∈ s.enqueued, Settled s.readbacks r := by
  intro r mem
  by_cases err : Failed s.readbacks
  · exact Or.inr err
  · obtain ⟨e, same, le⟩ := inv.event r mem
    obtain rfl := some.inj (last.symm.trans same)
    have run : r.doneEvent.isSignaled s.readbacks.heap.completedValue = true := by
      simp only [DmlGpuEvent.isSignaled, decide_eq_true_eq] at signaled ⊢
      exact le.trans signaled
    obtain ⟨k, call⟩ := mem_iff_getElem?.mp (inv.known r mem)
    exact Or.inl ((inv.healthy present err).guarantee.copied k r call run k (le_refl k) r
      call)

/-- A readback does not fail once the call has enqueued another one, and the device is not
    removed before the last wait returns. -/
def Undisturbed (s : State) (a : Action) (_ : State) : Prop :=
  match a, s.stage with
  | .readback observed created, .loop (transfer :: _) =>
    (s.reserveFailure transfer.totalBytes observed created).isSome → s.enqueued = []
  | .waited, _ => s.deviceRemoved = false
  | _, _ => True

theorem step_invariant (limited : addressSpace + 2 ^ 16 ≤ 2 ^ 64) (a : Action)
    (inv : Invariant addressSpace s) (taken : step batchFlushSize addressSpace s a = some t)
    (undisturbed : Undisturbed s a t) : Invariant addressSpace t := by
  cases step_moved taken with
  | stage stage running => exact { inv with settled := by simp [running] }
  | inner action stepped => exact inv.inner limited stepped
  | advanced action stage running stepped =>
    exact { inv.inner limited stepped with settled := by simp [running] }
  | empty unset =>
    have nothing : ∀ r, r ∉ s.enqueued := by
      intro r mem
      obtain ⟨e, some, -⟩ := inv.event r mem
      cases unset.symm.trans some
    exact { inv with settled := fun _ r mem => absurd mem (nothing r) }
  | failed seen new transfer rest status loop failure stepped =>
    have first : s.enqueued = [] := by
      simp only [Undisturbed, loop, failure, isSome_some, forall_const] at undisturbed
      exact undisturbed
    exact { inv.inner limited stepped with settled := by simp [first] }
  | finished rest readback phase stepped => exact inv.finished limited phase stepped rest
  | waited event last signaled =>
    exact { inv with settled := fun _ => inv.settled_of_signaled undisturbed last signaled }
  | removed events signaled =>
    obtain ⟨distinct, grows⟩ := inv.distinct.removed signaled
    exact
      { inv with
        distinct := distinct
        healthy := by simp
        known := fun r mem => grows.calls.subset (inv.known r mem)
        settled := fun ended r mem => (inv.settled ended r mem).grows grows }

/-- Once the function has returned, no callback that it has enqueued copies, whatever
    happens afterwards. -/
def NoPendingWrite (batchFlushSize addressSpace : Nat) (s : State) : Prop :=
  ∀ status, s.stage = .returned status → ∀ r ∈ s.enqueued, ∀ rest t,
    run (step batchFlushSize addressSpace) s rest = some t →
      r ∉ t.readbacks.copied.drop s.readbacks.copied.length

theorem Invariant.noPendingWrite (inv : Invariant addressSpace s) :
    NoPendingWrite batchFlushSize addressSpace s := by
  intro status ret r mem rest t later
  have ended : s.stage.running = false := by rw [ret]; rfl
  obtain ⟨nodup, grows⟩ := run_grows inv.distinct later
  exact (inv.settled ended r mem).not_later grows nodup

/-- Over every interleaving, a call that is not disturbed leaves no write behind. -/
theorem undisturbed_noPendingWrite (limited : addressSpace + 2 ^ 16 ≤ 2 ^ 64)
    {actions : List Action}
    (undisturbed : EveryStep (step batchFlushSize addressSpace) Undisturbed {} actions)
    (reached : run (step batchFlushSize addressSpace) {} actions = some s) :
    NoPendingWrite batchFlushSize addressSpace s := by
  have inv : Invariant addressSpace s :=
    run_everyStep (fun s a t => step_invariant limited a) undisturbed
      (invariant_init addressSpace) reached
  exact inv.noPendingWrite

end

/-- A tensor that fits into the first chunk and one that needs a chunk of its own. -/
def smallAndLarge : Function := .copyDeviceTensorsToCPU [⟨10, 100, ⟨7, 0⟩⟩, ⟨11, 2 ^ 21, ⟨7, 512⟩⟩]

def firstReadback : List Action :=
  [.call smallAndLarge, .readback (fun _ => 0) true, .proceed, .proceed, .proceed]

/-- Both are read back, the second one while the copy of the first is pending. -/
def bothReadbacks : List Action :=
  firstReadback ++ [.readback (fun _ => 0) true, .proceed, .proceed, .proceed, .next,
      .other (.context (.iterate false)), .other (.context (.execute .ok)), .other (.queueSignal 1),
      .synced, .other (.eventQueue .collect), .other (.eventQueue .runCallback),
      .other .signalCompletion, .other (.eventQueue .runCallback), .other .signalCompletion,
      .waited]

theorem bothReadbacks_noPendingWrite :
    ∃ s, run (step 100 (2 ^ 40)) {} bothReadbacks = some s ∧ s.stage = .returned .ok ∧
      s.enqueued.map Readback.dst = [10, 11] ∧ NoPendingWrite 100 (2 ^ 40) s := by
  have reached : ∃ s, run (step 100 (2 ^ 40)) {} bothReadbacks = some s ∧
      s.stage = .returned .ok ∧ s.enqueued.map Readback.dst = [10, 11] := ⟨_, rfl, rfl, rfl⟩
  have undisturbed : EveryStep (step 100 (2 ^ 40)) Undisturbed {} bothReadbacks := by
    refine .cons rfl trivial (.cons rfl (fun _ => rfl) ?_)
    refine .cons rfl trivial (.cons rfl trivial (.cons rfl trivial ?_))
    refine .cons rfl (fun err => by cases err) ?_
    refine .cons rfl trivial (.cons rfl trivial (.cons rfl trivial (.cons rfl trivial ?_)))
    refine .cons rfl trivial (.cons rfl trivial (.cons rfl trivial (.cons rfl trivial ?_)))
    refine .cons rfl trivial (.cons rfl trivial (.cons rfl trivial (.cons rfl trivial ?_)))
    exact .cons rfl trivial (.cons rfl rfl trivial)
  obtain ⟨s, reached, ret, enqueued⟩ := reached
  exact ⟨s, reached, ret, enqueued, undisturbed_noPendingWrite (by decide) undisturbed reached⟩

def secondFails : List Action := firstReadback ++ [.readback (fun _ => 0) false]

/-- After the function has returned, the callback of the first readback runs. -/
def firstCopiesLate : List Action :=
  [.other (.context (.iterate true)), .other (.context (.execute .ok)), .other (.queueSignal 1),
    .other (.eventQueue .collect), .other (.eventQueue .runCallback)]

theorem secondFails_leaves_write :
    ¬ ∀ (actions : List Action) (s : State), run (step 100 (2 ^ 40)) {} actions = some s →
      NoPendingWrite 100 (2 ^ 40) s := by
  intro holds
  have reached : ∃ s t, run (step 100 (2 ^ 40)) {} secondFails = some s ∧
      s.stage = .returned (.resourceExhausted "OOM when allocating a buffer of 2097152 bytes") ∧
      run (step 100 (2 ^ 40)) s firstCopiesLate = some t ∧
      ∃ r, s.enqueued = [r] ∧ t.readbacks.copied.drop s.readbacks.copied.length = [r] :=
    ⟨_, _, rfl, rfl, rfl, _, rfl, rfl⟩
  obtain ⟨s, t, reached, ret, later, r, enqueued, copied⟩ := reached
  exact holds secondFails s reached _ ret r (by simp [enqueued]) firstCopiesLate t later
    (by simp [copied])

end TfDml.BlockingReadback
