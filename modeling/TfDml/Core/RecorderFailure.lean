import TfDml.Core.ExecutionContext

/-! # After the command recorder has failed

When `Close` fails, the execution thread stores the status and exits, after the
swap has already advanced the next flush event. The functions that hand out
this event do not look at the status, so they return events that the queue
will never signal.
-/

namespace TfDml.ExecutionContext

open Lib

variable {γ : Type}

/-- `DmlDevice::Sync` flushes, returns the flush's error if there is one, and
    otherwise waits for the event given here before it reports success. -/
def BatchState.sync (b : BatchState γ) : Except Status DmlGpuEvent × BatchState γ :=
  match b.flush with
  | (.error status, after) => (.error status, after)
  | (.ok event, after) => (.ok event, after)

inductive ClientCall (γ : Type) where
  | append (command : γ)
  | flush
  | getCurrentCompletionEvent
  | sync

def ClientCall.perform (b : BatchState γ) : ClientCall γ → Except Status DmlGpuEvent × BatchState γ
  | .append command => (.ok (b.append command).1, (b.append command).2)
  | .flush => b.flush
  | .getCurrentCompletionEvent => (.ok b.getCurrentCompletionEvent, b)
  | .sync => b.sync

/-- The call reports the recorder's error, or its event is signaled in the end. -/
def Honest (batchFlushSize : Nat) (s : State γ) (call : ClientCall γ) : Prop :=
  (call.perform s.batchState).1 = .error s.batchState.getCommandRecorderStatus ∨
    ∃ event, (call.perform s.batchState).1 = .ok event ∧ ∃ rest t, run (step batchFlushSize)
          { s with batchState := (call.perform s.batchState).2 } rest = some t ∧
        event.fenceValue ≤ t.lastFenceValue

variable {s t : State γ} {batch : Fin 2}

theorem failed_step (batchFlushSize : Nat) {a : Action γ} (err : s.thread = .failed batch)
    (taken : step batchFlushSize s a = some t) :
    t.thread = .failed batch ∧ t.lastFenceValue = s.lastFenceValue := by
  cases a with
  | append | flush | getCurrentCompletionEvent | requestExit =>
    obtain rfl := Option.some.inj taken
    exact ⟨err, rfl⟩
  | iterate elapsed =>
    obtain ⟨top, -⟩ := step_iterate taken
    cases err.symm.trans top
  | execute close =>
    obtain ⟨other, recording, -⟩ := step_execute taken
    cases err.symm.trans recording

theorem failed_run (batchFlushSize : Nat) {actions : List (Action γ)}
    (err : s.thread = .failed batch) (reached : run (step batchFlushSize) s actions = some t) :
    t.thread = .failed batch ∧ t.lastFenceValue = s.lastFenceValue := by
  have keep : ∀ (u : State γ) (a : Action γ) (v : State γ),
      (u.thread = .failed batch ∧ u.lastFenceValue = s.lastFenceValue) →
        step batchFlushSize u a = some v →
          v.thread = .failed batch ∧ v.lastFenceValue = s.lastFenceValue := by
    intro u a v holds taken
    obtain ⟨stays, same⟩ := failed_step batchFlushSize holds.1 taken
    exact ⟨stays, same.trans holds.2⟩
  exact run_invariant keep ⟨err, rfl⟩ reached

theorem execute_fails (batchFlushSize : Nat) {close : Status} (failure : close.isOk = false)
    (taken : step batchFlushSize s (.execute close) = some t) :
    ∃ batch, t.thread = .failed batch := by
  obtain ⟨batch, -, rfl⟩ := step_execute taken
  exact ⟨batch, by simp [execute, failure]⟩

theorem perform_beyond (inv : Invariant s) (err : s.thread = .failed batch)
    (call : ClientCall γ) : ∃ event, (call.perform s.batchState).1 = .ok event ∧
      s.lastFenceValue < event.fenceValue := by
  have next : s.batchState.nextFlushEvent = ⟨s.lastFenceValue + 1 + 1, queueFence⟩ := by
    simpa [State.lastSwappedValue, err, Thread.taken] using inv.next
  have cur : s.lastFenceValue < s.batchState.currentEvent.fenceValue := by
    unfold BatchState.currentEvent
    split <;> simp only [next] <;> omega
  cases call with
  | append command => exact ⟨s.batchState.nextFlushEvent, rfl, by simp only [next]; omega⟩
  | flush => exact ⟨_, rfl, cur⟩
  | getCurrentCompletionEvent => exact ⟨_, rfl, cur⟩
  | sync => exact ⟨_, rfl, cur⟩

theorem dishonest_of_failed (batchFlushSize : Nat) (inv : Invariant s)
    (failed : s.thread = .failed batch) (call : ClientCall γ) : ¬ Honest batchFlushSize s call := by
  obtain ⟨event, result, beyond⟩ := perform_beyond inv failed call
  rintro (err | ⟨event', result', rest, t, run, signaled⟩)
  · rw [result] at err
    cases err
  · rw [result] at result'
    obtain rfl := Except.ok.inj result'
    have stays : ({ s with batchState := (call.perform s.batchState).2 } : State γ).thread =
        .failed batch := failed
    have stuck : t.lastFenceValue = s.lastFenceValue := (failed_run batchFlushSize stays run).2
    omega

/-- In every run with a failing `Close`, every later call reports success with an
    event that is never signaled. -/
theorem calls_after_failure_dishonest (batchFlushSize : Nat) {before after : List (Action γ)}
    {close : Status} {s : State γ} (failure : close.isOk = false)
    (reached : run (step batchFlushSize) {} (before ++ .execute close :: after) = some s)
    (call : ClientCall γ) : ¬ Honest batchFlushSize s call := by
  have inv := run_invariant_holds batchFlushSize reached
  obtain ⟨t, -, later⟩ := run_append_iff.mp reached
  obtain ⟨u, taken, rest⟩ := run_cons_iff.mp later
  obtain ⟨batch, err⟩ := execute_fails batchFlushSize failure taken
  exact dishonest_of_failed batchFlushSize inv (failed_run batchFlushSize err rest).1 call

def oneCommandSwapped : List (Action Command) := [.append .uavBarrier, .flush, .iterate false]

def closeRanOutOfMemory : Status := .resourceExhausted "OOM when closing the command list"

theorem flush_after_failure_dishonest :
    ∃ s, run (step 100) {} (oneCommandSwapped ++ [.execute closeRanOutOfMemory]) = some s ∧
      ¬ Honest 100 s .flush := by
  have reached : ∃ s, run (step 100) {} (oneCommandSwapped ++ [.execute closeRanOutOfMemory]) =
      some s := ⟨_, rfl⟩
  have failure : closeRanOutOfMemory.isOk = false := rfl
  obtain ⟨s, reached⟩ := reached
  exact ⟨s, reached, calls_after_failure_dishonest 100 failure reached .flush⟩

theorem flush_after_failure_never_signaled :
    ¬ ∀ (before after : List (Action Command)) (close : Status) (s : State Command),
      close.isOk = false → run (step 100) {} (before ++ .execute close :: after) = some s →
          ∀ call, Honest 100 s call := by
  intro honest
  have reached : ∃ s, run (step 100) {} (oneCommandSwapped ++ [.execute closeRanOutOfMemory]) =
      some s ∧ s.thread = .failed 0 := ⟨_, rfl, rfl⟩
  obtain ⟨s, reached, err⟩ := reached
  exact dishonest_of_failed 100 (run_invariant_holds 100 reached) err .flush
    (honest oneCommandSwapped [] closeRanOutOfMemory s rfl reached .flush)

end TfDml.ExecutionContext
