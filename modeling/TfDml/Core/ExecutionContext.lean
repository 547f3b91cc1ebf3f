import TfDml.Core.Common
import TfDml.Lib.Run
import Mathlib.Data.List.Range
import Mathlib.Data.Fintype.Basic

/-! # The execution context

Clients append commands to the write batch; a background thread swaps the two
batches under the lock and records and executes the other one outside of it.
The two halves of an iteration of that thread are separate steps, so clients
may run in between.
-/

namespace TfDml.ExecutionContext

open Lib List Option
open Function

variable {γ : Type}

def queueFence : FenceId := 0

/-- State shared by the clients and the execution thread, over any type `γ` of commands. -/
structure BatchState (γ : Type) where
  nextFlushEvent : DmlGpuEvent
  batches : Fin 2 → List γ
  writeBatchIndex : Fin 2
  exitRequested : Bool
  flushRequested : Bool
  status : Status

namespace BatchState

def writeBatch (b : BatchState γ) : List γ := b.batches b.writeBatchIndex

def executeBatch (b : BatchState γ) : List γ := b.batches (b.writeBatchIndex + 1)

/-- The queue's fence starts at zero, so the first flush signals one. -/
def init : BatchState γ where
  nextFlushEvent := ⟨1, queueFence⟩
  batches := fun _ => []
  writeBatchIndex := 0
  exitRequested := false
  flushRequested := false
  status := .ok

def append (b : BatchState γ) (command : γ) : DmlGpuEvent × BatchState γ :=
  (b.nextFlushEvent, { b with
      batches := update b.batches b.writeBatchIndex (b.writeBatch ++ [command]) })

def currentEvent (b : BatchState γ) : DmlGpuEvent :=
  if b.writeBatch.isEmpty then
    { b.nextFlushEvent with fenceValue := b.nextFlushEvent.fenceValue - 1 }
  else b.nextFlushEvent

def flush (b : BatchState γ) : Except Status DmlGpuEvent × BatchState γ :=
  (.ok b.currentEvent, { b with flushRequested := true })

def getCommandRecorderStatus (b : BatchState γ) : Status := b.status

def getCurrentCompletionEvent (b : BatchState γ) : DmlGpuEvent := b.currentEvent

end BatchState

/-- What `DmlCommandList` is asked to record, with the arguments that the closures
    capture; resources, operators, binding tables and heaps are named by numbers. -/
inductive Command where
  | copyBufferRegion (dstBuffer dstOffset dstState srcBuffer srcOffset srcState byteCount : Nat)
  | fillBufferWithPattern (dst dstOffset dstSizeInBytes : Nat) (value : List UInt8)
  | initializeOperator (initializer bindingTable descriptorHeap : Nat)
  | executeOperator (op bindingTable descriptorHeap : Nat)
  | resourceBarrier (barriers : List Nat)
  | uavBarrier
  deriving DecidableEq, Repr

namespace BatchState

def copyBufferRegionRaw (b : BatchState Command)
    (dstBuffer dstOffset dstState srcBuffer srcOffset srcState byteCount : Nat) :
    DmlGpuEvent × BatchState Command :=
  b.append (.copyBufferRegion dstBuffer dstOffset dstState srcBuffer srcOffset srcState byteCount)

def fillBufferWithPatternRaw (b : BatchState Command) (dst dstOffset dstSizeInBytes : Nat)
    (value : List UInt8) : DmlGpuEvent × BatchState Command :=
  b.append (.fillBufferWithPattern dst dstOffset dstSizeInBytes value)

def initializeOperator (b : BatchState Command)
    (initializer bindingTable descriptorHeap : Nat) : DmlGpuEvent × BatchState Command :=
  b.append (.initializeOperator initializer bindingTable descriptorHeap)

def executeOperator (b : BatchState Command) (op bindingTable descriptorHeap : Nat) :
    DmlGpuEvent × BatchState Command :=
  b.append (.executeOperator op bindingTable descriptorHeap)

def resourceBarrier (b : BatchState Command) (barriers : List Nat) :
    DmlGpuEvent × BatchState Command :=
  b.append (.resourceBarrier barriers)

def uavBarrier (b : BatchState Command) : DmlGpuEvent × BatchState Command := b.append .uavBarrier

end BatchState

/-- Where the execution thread is: at the top of its loop, recording a batch
    outside of the lock, or done, by request or because `Close` failed. -/
inductive Thread where
  | top
  | recording (batch : Fin 2)
  | exited
  | failed (batch : Fin 2)
  deriving DecidableEq, Repr

/-- The batch taken out by the last swap, while it is not executed. -/
def Thread.taken : Thread → Option (Fin 2)
  | .recording batch | .failed batch => some batch
  | .top | .exited => none

/-- The whole component. `lastFenceValue` belongs to the command queue; `appended`
    and `executed` are logs: each command with the event its caller got, and each
    batch given to the queue with the value signaled after it. -/
structure State (γ : Type) where
  batchState : BatchState γ := .init
  lastFenceValue : Nat := 0
  thread : Thread := .top
  appended : List (γ × DmlGpuEvent) := []
  executed : List (List γ × Nat) := []

inductive Action (γ : Type) where
  | append (command : γ)
  | flush
  | getCurrentCompletionEvent
  /-- The locked half; `elapsed` tells whether `batch_flush_time_us` has passed. -/
  | iterate (elapsed : Bool)
  /-- The unlocked half; `close` is what closing the command list returns. -/
  | execute (close : Status)
  | requestExit

def BatchState.swapBatches (b : BatchState γ) : BatchState γ :=
  { b with
    writeBatchIndex := b.writeBatchIndex + 1
    nextFlushEvent := { b.nextFlushEvent with fenceValue := b.nextFlushEvent.fenceValue + 1 } }

/-- The locked half of an iteration of `ExecutionThreadProc`. Waiting for new work
    and a spurious wakeup both lead back to the top of the loop. -/
def iterate (batchFlushSize : Nat) (elapsed : Bool) (s : State γ) : State γ :=
  let b := s.batchState
  if b.exitRequested then { s with thread := .exited }
  else if b.writeBatch.isEmpty then s
  else if b.flushRequested || batchFlushSize ≤ b.writeBatch.length || elapsed then
    { s with
      batchState := { b.swapBatches with flushRequested := false }
      thread := .recording b.writeBatchIndex }
  else { s with batchState := { b with flushRequested := false } }

/-- The unlocked half: record the batch, close the list, and unless that fails give
    it to the queue, which signals the next value, and clear the batch. -/
def execute (batch : Fin 2) (close : Status) (s : State γ) : State γ :=
  let b := s.batchState
  if close.isOk then
    { s with
      batchState := { b with batches := update b.batches batch [] }
      lastFenceValue := s.lastFenceValue + 1
      thread := .top
      executed := s.executed ++ [(b.batches batch, s.lastFenceValue + 1)] }
  else
    { s with
      batchState := { b with status := close }
      thread := .failed batch }

def step (batchFlushSize : Nat) (s : State γ) : Action γ → Option (State γ)
  | .append command =>
    let (event, b) := s.batchState.append command
    some { s with batchState := b, appended := s.appended ++ [(command, event)] }
  | .flush => some { s with batchState := s.batchState.flush.2 }
  | .getCurrentCompletionEvent => some s
  | .iterate elapsed =>
    match s.thread with
    | .top => some (iterate batchFlushSize elapsed s)
    | _ => none
  | .execute close =>
    match s.thread with
    | .recording batch => some (execute batch close s)
    | _ => none
  | .requestExit => some { s with batchState := { s.batchState with exitRequested := true } }

variable {batchFlushSize : Nat} {s t : State γ} {elapsed : Bool}

theorem step_iterate (taken : step batchFlushSize s (.iterate elapsed) = some t) :
    s.thread = .top ∧ t = iterate batchFlushSize elapsed s := by
  cases phase : s.thread with
  | top =>
    simp only [step, phase, Option.some.injEq] at taken
    exact ⟨rfl, taken.symm⟩
  | recording | exited | failed => simp [step, phase] at taken

theorem step_execute {close : Status} (taken : step batchFlushSize s (.execute close) = some t) :
    ∃ batch, s.thread = .recording batch ∧ t = execute batch close s := by
  cases phase : s.thread with
  | recording batch =>
    simp only [step, phase, Option.some.injEq] at taken
    exact ⟨batch, rfl, taken.symm⟩
  | top | exited | failed => simp [step, phase] at taken

private theorem other_ne (i : Fin 2) : i + 1 ≠ i := by
  revert i
  decide

private theorem other_other (i : Fin 2) : i + 1 + 1 = i := by
  revert i
  decide

namespace BatchState

variable (b : BatchState γ)

@[simp] theorem writeBatch_append (command : γ) :
    (b.append command).2.writeBatch = b.writeBatch ++ [command] := by
  simp [append, writeBatch]

@[simp] theorem executeBatch_append (command : γ) :
    (b.append command).2.executeBatch = b.executeBatch := by
  simp [append, executeBatch, update_of_ne (other_ne _)]

@[simp] theorem writeBatch_swapBatches : b.swapBatches.writeBatch = b.executeBatch := rfl

@[simp] theorem executeBatch_swapBatches : b.swapBatches.executeBatch = b.writeBatch := by
  simp [swapBatches, executeBatch, writeBatch, other_other]

end BatchState

/-- What the queue signals, or has signaled, for the batch swapped out last. -/
def State.lastSwappedValue (s : State γ) : Nat :=
  if s.thread.taken.isSome then s.lastFenceValue + 1 else s.lastFenceValue

def withValue (batch : List γ) (value : Nat) : List (γ × DmlGpuEvent) :=
  batch.map (·, ⟨value, queueFence⟩)

/-- The hidden relation between the fence values, the two batches and the thread:
    the commands are, in the order of appending, the executed ones, those of the
    batch taken out, and those of the write batch, each with the value of its batch. -/
structure Invariant (s : State γ) : Prop where
  index : ∀ batch, s.thread.taken = some batch → batch = s.batchState.writeBatchIndex + 1
  idle : s.thread.taken = none → s.batchState.executeBatch = []
  next : s.batchState.nextFlushEvent = ⟨s.lastSwappedValue + 1, queueFence⟩
  values : s.executed.map Prod.snd = List.range' 1 s.lastFenceValue
  ledger : s.appended = s.executed.flatMap (fun entry => withValue entry.1 entry.2) ++
      withValue s.batchState.executeBatch (s.lastFenceValue + 1) ++
      withValue s.batchState.writeBatch (s.lastSwappedValue + 1)

theorem invariant_init : Invariant ({} : State γ) where
  index := by simp [Thread.taken]
  idle := fun _ => rfl
  next := rfl
  values := rfl
  ledger := rfl

theorem Invariant.append (inv : Invariant s) (command : γ) : Invariant { s with
      batchState := (s.batchState.append command).2
      appended := s.appended ++ [(command, (s.batchState.append command).1)] } where
  index := inv.index
  idle := fun free => by simpa using inv.idle free
  next := inv.next
  values := inv.values
  ledger := by
    have event : (s.batchState.append command).1 = ⟨s.lastSwappedValue + 1, queueFence⟩ := inv.next
    simp only [event, inv.ledger, BatchState.writeBatch_append, BatchState.executeBatch_append,
      State.lastSwappedValue, withValue, map_append, map_cons, map_nil, append_assoc]

theorem Invariant.iterate (inv : Invariant s) (top : s.thread = .top) (batchFlushSize : Nat)
    (elapsed : Bool) : Invariant (iterate batchFlushSize elapsed s) := by
  have free : s.thread.taken = none := by rw [top, Thread.taken]
  have empty := inv.idle free
  have value : s.lastSwappedValue = s.lastFenceValue := by simp [State.lastSwappedValue, free]
  have next := inv.next
  have ledger := inv.ledger
  rw [value] at next ledger
  unfold ExecutionContext.iterate
  dsimp only
  split
  · exact ⟨by simp [Thread.taken], fun _ => empty, by simpa [State.lastSwappedValue, Thread.taken],
      inv.values, by simpa [State.lastSwappedValue, Thread.taken] using ledger⟩
  · split
    · exact inv
    · split
      · -- the swap: the value of the write batch becomes that of the batch taken out
        refine ⟨?_, by simp [Thread.taken], ?_, inv.values, ?_⟩
        · intro batch taken
          obtain rfl := some.inj taken
          exact (other_other _).symm
        · simp [State.lastSwappedValue, Thread.taken, BatchState.swapBatches, next]
        · change s.appended = _ ++ withValue s.batchState.swapBatches.executeBatch _ ++
            withValue s.batchState.swapBatches.writeBatch _
          simp [ledger, empty, withValue]
      · exact ⟨inv.index, inv.idle, inv.next, inv.values, inv.ledger⟩

theorem Invariant.execute (inv : Invariant s) {batch : Fin 2}
    (recording : s.thread = .recording batch) (close : Status) :
    Invariant (execute batch close s) := by
  have taken : s.thread.taken = some batch := by rw [recording, Thread.taken]
  have value : s.lastSwappedValue = s.lastFenceValue + 1 := by simp [State.lastSwappedValue, taken]
  obtain rfl := inv.index batch taken
  have next := inv.next
  have ledger := inv.ledger
  rw [value] at next ledger
  unfold ExecutionContext.execute
  dsimp only
  split
  · refine ⟨by simp [Thread.taken], fun _ => ?_, by simpa [State.lastSwappedValue, Thread.taken],
      ?_, ?_⟩
    · simp [BatchState.executeBatch]
    · simp [inv.values, range'_concat, add_comm]
    · have write : (update s.batchState.batches (s.batchState.writeBatchIndex + 1) [])
          s.batchState.writeBatchIndex = s.batchState.writeBatch :=
        update_of_ne (other_ne _).symm _ _
      simp [State.lastSwappedValue, Thread.taken, BatchState.executeBatch,
        BatchState.writeBatch, ledger, withValue, write]
  · exact ⟨fun b same => inv.index b (by simpa [Thread.taken, recording] using same),
      by simp [Thread.taken], by simpa [State.lastSwappedValue, Thread.taken], inv.values, ledger⟩

theorem step_invariant (batchFlushSize : Nat) (s : State γ) (a : Action γ) (t : State γ)
    (inv : Invariant s) (taken : step batchFlushSize s a = some t) : Invariant t := by
  cases a with
  | append command =>
    obtain rfl := some.inj taken
    exact inv.append command
  | flush =>
    obtain rfl := some.inj taken
    exact ⟨inv.index, inv.idle, inv.next, inv.values, inv.ledger⟩
  | getCurrentCompletionEvent =>
    obtain rfl := some.inj taken
    exact inv
  | iterate elapsed =>
    obtain ⟨top, rfl⟩ := step_iterate taken
    exact inv.iterate top batchFlushSize elapsed
  | execute close =>
    obtain ⟨batch, recording, rfl⟩ := step_execute taken
    exact inv.execute recording close
  | requestExit =>
    obtain rfl := some.inj taken
    exact ⟨inv.index, inv.idle, inv.next, inv.values, inv.ledger⟩

theorem run_invariant_holds (batchFlushSize : Nat) {actions : List (Action γ)}
    (reached : run (step batchFlushSize) {} actions = some s) : Invariant s :=
  run_invariant (step_invariant batchFlushSize) invariant_init reached

/-- The executed commands, each with the value signaled after its batch. -/
def State.executedLog (s : State γ) : List (γ × DmlGpuEvent) :=
  s.executed.flatMap fun entry => withValue entry.1 entry.2

def Action.Closes : Action γ → Prop
  | .execute close => close.isOk = true
  | _ => True

def Action.OfThread : Action γ → Prop
  | .iterate _ | .execute _ => True
  | _ => False

def Healthy (s : State γ) : Prop :=
  match s.thread with
  | .top | .recording _ => True
  | .exited => s.batchState.exitRequested = true
  | .failed _ => False

theorem step_healthy (batchFlushSize : Nat) (s : State γ) (a : Action γ) (t : State γ)
    (closes : a.Closes) (healthy : Healthy s) (taken : step batchFlushSize s a = some t) :
    Healthy t := by
  cases a with
  | append | flush | getCurrentCompletionEvent =>
    obtain rfl := some.inj taken
    exact healthy
  | iterate elapsed =>
    obtain ⟨top, rfl⟩ := step_iterate taken
    unfold iterate Healthy
    dsimp only
    grind
  | execute close =>
    obtain ⟨batch, -, rfl⟩ := step_execute taken
    have ok : close.isOk = true := closes
    simp [execute, ok, Healthy]
  | requestExit =>
    obtain rfl := some.inj taken
    unfold Healthy at healthy ⊢
    cases phase : s.thread <;> simp_all

variable {a : Action γ}

theorem step_forward (batchFlushSize : Nat) (taken : step batchFlushSize s a = some t) :
    s.batchState.nextFlushEvent.fenceValue ≤ t.batchState.nextFlushEvent.fenceValue ∧
      (a.Closes → t.batchState.status = s.batchState.status) := by
  cases a with
  | append | flush | getCurrentCompletionEvent | requestExit =>
    obtain rfl := some.inj taken
    exact ⟨le_refl _, fun _ => rfl⟩
  | iterate elapsed =>
    obtain ⟨-, rfl⟩ := step_iterate taken
    unfold iterate
    dsimp only
    split_ifs
    · exact ⟨le_refl _, fun _ => rfl⟩
    · exact ⟨le_refl _, fun _ => rfl⟩
    · exact ⟨Nat.le_succ _, fun _ => rfl⟩
    · exact ⟨le_refl _, fun _ => rfl⟩
  | execute close =>
    obtain ⟨batch, -, rfl⟩ := step_execute taken
    unfold execute
    dsimp only
    split
    · exact ⟨le_refl _, fun _ => rfl⟩
    · rename_i failure
      exact ⟨le_refl _, fun closes => absurd closes failure⟩

def Action.adds (s : State γ) : Action γ → List (γ × DmlGpuEvent)
  | .append command => [(command, s.batchState.nextFlushEvent)]
  | _ => []

theorem step_appended (batchFlushSize : Nat) (taken : step batchFlushSize s a = some t) :
    t.appended = s.appended ++ a.adds s := by
  cases a with
  | append command =>
    obtain rfl := some.inj taken
    rfl
  | flush | getCurrentCompletionEvent | requestExit =>
    obtain rfl := some.inj taken
    exact (append_nil _).symm
  | iterate elapsed =>
    obtain ⟨-, rfl⟩ := step_iterate taken
    unfold iterate
    dsimp only
    split_ifs <;> exact (append_nil _).symm
  | execute close =>
    obtain ⟨batch, -, rfl⟩ := step_execute taken
    unfold execute
    dsimp only
    split <;> exact (append_nil _).symm

theorem Invariant.executedLog_eq (inv : Invariant s) (executed : s.batchState.executeBatch = [])
    (put : s.batchState.writeBatch = []) : s.executedLog = s.appended := by
  rw [inv.ledger, executed, put]
  simp [State.executedLog, withValue]

theorem iterate_elapsed (batchFlushSize : Nat) (running : s.batchState.exitRequested = false)
    (put : s.batchState.writeBatch ≠ []) : iterate batchFlushSize true s = { s with
        batchState := { s.batchState.swapBatches with flushRequested := false }
        thread := .recording s.batchState.writeBatchIndex } := by
  simp [iterate, running, put]

theorem drain_top (batchFlushSize : Nat) (inv : Invariant s) (top : s.thread = .top)
    (running : s.batchState.exitRequested = false) :
    ∃ rest t, (∀ a ∈ rest, a.OfThread) ∧ run (step batchFlushSize) s rest = some t ∧
      t.appended = s.appended ∧ t.executedLog = s.appended := by
  have empty := inv.idle (by rw [top, Thread.taken])
  by_cases put : s.batchState.writeBatch = []
  · exact ⟨[], s, by simp, rfl, rfl, inv.executedLog_eq empty put⟩
  · have swaps : step batchFlushSize s (.iterate true) = some (iterate batchFlushSize true s) := by
      simp [step, top]
    have next := inv.iterate top batchFlushSize true
    rw [iterate_elapsed batchFlushSize running put] at swaps next
    refine ⟨[.iterate true, .execute .ok], _, by simp [Action.OfThread],
      run_cons_iff.mpr ⟨_, swaps, rfl⟩, rfl, ?_⟩
    have last := next.execute rfl .ok
    apply last.executedLog_eq (last.idle rfl)
    have other : s.batchState.batches (s.batchState.writeBatchIndex + 1) = [] := empty
    simp [execute, Status.isOk, BatchState.swapBatches, BatchState.writeBatch,
      update_of_ne (other_ne _), other]

theorem drain (batchFlushSize : Nat) (inv : Invariant s) (healthy : Healthy s)
    (running : s.batchState.exitRequested = false) :
    ∃ rest t, (∀ a ∈ rest, a.OfThread) ∧ run (step batchFlushSize) s rest = some t ∧
      t.appended = s.appended ∧ t.executedLog = s.appended := by
  cases phase : s.thread with
  | top => exact drain_top batchFlushSize inv phase running
  | recording batch =>
    have submits : step batchFlushSize s (.execute .ok) = some (execute batch .ok s) := by
      simp [step, phase]
    obtain ⟨rest, t, ofThread, reached, same, all⟩ :=
      drain_top batchFlushSize (inv.execute phase .ok) (by simp [execute, Status.isOk])
        (by simpa [execute, Status.isOk] using running)
    refine ⟨.execute .ok :: rest, t, ?_, run_cons_iff.mpr ⟨_, submits, reached⟩, ?_, ?_⟩
    · exact forall_mem_cons.mpr ⟨trivial, ofThread⟩
    · simpa [execute, Status.isOk] using same
    · simpa [execute, Status.isOk] using all
  | exited => simp [Healthy, phase, running] at healthy
  | failed => simp [Healthy, phase] at healthy

/-- What the clients can rely on in a state: the ledger gives every command the
    value signaled for its batch, in the order of appending; the batch that a swap
    makes the write batch is empty; the event of `Flush` and
    `GetCurrentCompletionEvent` covers every command appended before; and the
    thread can still execute all of them. -/
structure Guarantee (batchFlushSize : Nat) (s : State γ) : Prop where
  ledger : s.appended =
    s.executedLog ++ withValue s.batchState.executeBatch (s.lastFenceValue + 1) ++
      withValue s.batchState.writeBatch (s.lastSwappedValue + 1)
  values : s.executed.map Prod.snd = List.range' 1 s.lastFenceValue
  order : s.executed.flatMap Prod.fst <+: s.appended.map Prod.fst
  swap : ∀ elapsed t, step batchFlushSize s (.iterate elapsed) = some t →
    t.batchState.writeBatchIndex ≠ s.batchState.writeBatchIndex → t.batchState.writeBatch = []
  event : ∃ e, s.batchState.flush.1 = .ok e ∧ s.batchState.getCurrentCompletionEvent = e ∧
    (∀ entry ∈ s.appended, entry.2.fenceValue ≤ e.fenceValue) ∧
    (s.batchState.writeBatch = [] → e = ⟨s.lastSwappedValue, queueFence⟩)
  drains : s.batchState.exitRequested = false →
    ∃ rest t, (∀ a ∈ rest, a.OfThread) ∧ run (step batchFlushSize) s rest = some t ∧
      t.appended = s.appended ∧ t.executedLog = s.appended

theorem Invariant.order (inv : Invariant s) :
    s.executed.flatMap Prod.fst <+: s.appended.map Prod.fst := by
  have executed : s.executedLog.map Prod.fst = s.executed.flatMap Prod.fst := by
    simp [State.executedLog, withValue, map_flatMap, comp_def]
  rw [inv.ledger, map_append, map_append, append_assoc, ← executed]
  exact prefix_append _ _

theorem Invariant.swap (inv : Invariant s)
    (taken : step batchFlushSize s (.iterate elapsed) = some t)
    (swapped : t.batchState.writeBatchIndex ≠ s.batchState.writeBatchIndex) :
    t.batchState.writeBatch = [] := by
  obtain ⟨top, rfl⟩ := step_iterate taken
  have empty := inv.idle (by rw [top, Thread.taken])
  unfold ExecutionContext.iterate at swapped ⊢
  dsimp only at swapped ⊢
  split_ifs at swapped ⊢
  · exact absurd rfl swapped
  · exact absurd rfl swapped
  · exact empty
  · exact absurd rfl swapped

variable {entry : γ × DmlGpuEvent}

theorem Invariant.appended_le (inv : Invariant s) (mem : entry ∈ s.appended) :
    entry.2.fenceValue ≤ s.lastSwappedValue ∨
      s.batchState.writeBatch ≠ [] ∧ entry.2.fenceValue = s.lastSwappedValue + 1 := by
  rw [inv.ledger] at mem
  simp only [mem_append, mem_flatMap, withValue, List.mem_map] at mem
  have upTo : s.lastFenceValue ≤ s.lastSwappedValue := by
    unfold State.lastSwappedValue
    split <;> omega
  rcases mem with (⟨batch, lt, command, -, rfl⟩ | ⟨command, lt, rfl⟩) |
    ⟨command, lt, rfl⟩
  · have value : batch.2 ∈ s.executed.map Prod.snd := List.mem_map_of_mem lt
    rw [inv.values, mem_range'_1] at value
    exact Or.inl (by dsimp only; omega)
  · have busy : s.thread.taken.isSome = true := by
      cases free : s.thread.taken with
      | some => rfl
      | none => simp [inv.idle free] at lt
    exact Or.inl (by simp [State.lastSwappedValue, busy])
  · exact Or.inr ⟨ne_nil_of_mem lt, rfl⟩

theorem Invariant.appended_le_next (inv : Invariant s) (mem : entry ∈ s.appended) :
    entry.2.fenceValue ≤ s.batchState.nextFlushEvent.fenceValue := by
  rw [inv.next]
  rcases inv.appended_le mem with covered | ⟨-, newest⟩
  · exact covered.trans (Nat.le_succ _)
  · exact newest.le

theorem Invariant.event (inv : Invariant s) :
    (∀ entry ∈ s.appended, entry.2.fenceValue ≤ s.batchState.currentEvent.fenceValue) ∧
      (s.batchState.writeBatch = [] →
        s.batchState.currentEvent = ⟨s.lastSwappedValue, queueFence⟩) := by
  constructor
  · intro entry mem
    unfold BatchState.currentEvent
    rcases inv.appended_le mem with covered | ⟨put, newest⟩
    · split <;> simp only [inv.next] <;> omega
    · simp [put, inv.next, newest]
  · intro put
    simp [BatchState.currentEvent, put, inv.next]

/-- Commands are executed in the order of appending, and the events returned for
    them are exact, over every interleaving in which `Close` does not fail. -/
theorem commands_in_order (batchFlushSize : Nat) {actions : List (Action Command)}
    {s : State Command} (closes : ∀ a ∈ actions, a.Closes)
    (reached : run (step batchFlushSize) {} actions = some s) : Guarantee batchFlushSize s := by
  have inv := run_invariant_holds batchFlushSize reached
  have start : Healthy ({} : State Command) := trivial
  have healthy : Healthy s := run_invariant_of (step_healthy batchFlushSize) closes start reached
  exact
    { ledger := inv.ledger
      values := inv.values
      order := inv.order
      swap := fun _ _ => inv.swap
      event := ⟨_, rfl, rfl, inv.event⟩
      drains := drain batchFlushSize inv healthy }

/-- Two commands in the first batch, a third one appended while it is recorded. -/
def appendWhileRecording : List (Action Command) :=
  [.append .uavBarrier, .append (.executeOperator 1 2 3), .flush, .iterate false,
    .append (.initializeOperator 4 5 6), .execute .ok]

theorem appendWhileRecording_in_order :
    ∃ s, run (step 100) {} appendWhileRecording = some s ∧ Guarantee 100 s := by
  have closes : ∀ a ∈ appendWhileRecording, a.Closes := by
    simp [appendWhileRecording, Action.Closes, Status.isOk]
  exact ⟨_, rfl, commands_in_order 100 closes rfl⟩

end TfDml.ExecutionContext
