import TfDml.Core.Common
import TfDml.Lib.Run
import Mathlib.Data.Fin.Basic

/-! # The ring of command allocators

A command list takes the next allocator of a ring each time it is opened, and
attaches to it the event that the queue will signal next. The list is then
closed and given to the queue. The ring has `n + 1` allocators.
-/

namespace TfDml.CommandAllocatorRing

open Lib List

def queueFence : FenceId := 0

/-- `completion_event` of every allocator, and `current_command_allocator_`. -/
structure DmlCommandAllocatorRing (n : Nat) where
  completionEvent : Fin (n + 1) → DmlGpuEvent
  currentCommandAllocator : Fin (n + 1)

namespace DmlCommandAllocatorRing

variable {n : Nat}

def create (initialEvent : DmlGpuEvent) : DmlCommandAllocatorRing n := ⟨fun _ => initialEvent, 0⟩

def earliestOtherAllocator (ring : DmlCommandAllocatorRing n) : Fin (n + 1) :=
  ring.currentCommandAllocator + 1

/-- The other allocator is reset and taken if its event is signaled, where the fence has
    reached `completedValue`; if not, the current one is used again. -/
def resets (ring : DmlCommandAllocatorRing n) (completedValue : Nat) : Option (Fin (n + 1)) :=
  if (ring.completionEvent ring.earliestOtherAllocator).isSignaled completedValue then
    some ring.earliestOtherAllocator
  else none

/-- `GetNextAllocator`: the allocator that it returns is the current one of the new ring. -/
def getNextAllocator (ring : DmlCommandAllocatorRing n) (completedValue : Nat)
    (nextCompletionEvent : DmlGpuEvent) : DmlCommandAllocatorRing n :=
  let current := (ring.resets completedValue).getD ring.currentCommandAllocator
  ⟨Function.update ring.completionEvent current nextCompletionEvent, current⟩

/-- The assertion at the start of `GetNextAllocator`. -/
def Asserts (ring : DmlCommandAllocatorRing n) (completedValue : Nat) : Prop :=
  (ring.completionEvent ring.currentCommandAllocator).isSignaled completedValue = false ∨
    (ring.completionEvent ring.earliestOtherAllocator).isSignaled completedValue = true

end DmlCommandAllocatorRing

/-- What has become of the command list. A list whose `Close` fails is never executed. -/
inductive Phase where
  | executed
  | opened
  | closed
  | failed
  deriving DecidableEq

/-- `recorded` is the log of the lists given to the queue, the newest first: the allocator a
    list was recorded with and the value that the queue signals after it. -/
structure State (n : Nat) where
  ring : DmlCommandAllocatorRing n
  phase : Phase := .executed
  lastFenceValue : Nat := 0
  completedValue : Nat := 0
  recorded : List (Fin (n + 1) × Nat) := []

namespace State

variable {n : Nat}

/-- `GetCurrentCompletionEvent` of the queue. -/
def currentCompletionEvent (s : State n) : DmlGpuEvent := ⟨s.lastFenceValue, queueFence⟩

/-- `GetNextCompletionEvent` of the queue. -/
def nextCompletionEvent (s : State n) : DmlGpuEvent := ⟨s.lastFenceValue + 1, queueFence⟩

def initial : State n where
  ring := .create ⟨0, queueFence⟩

end State

inductive Action where
  /-- `DmlCommandList::Open`. -/
  | openList
  | close (succeeds : Bool)
  /-- `DmlCommandQueue::ExecuteCommandLists`, given the closed list. -/
  | executeCommandLists
  /-- The fence reaches a value that was signaled, or the device is removed. -/
  | progress (completedValue : Nat)

def step {n : Nat} (s : State n) : Action → Option (State n)
  | .openList =>
    match s.phase with
    | .executed =>
      some { s with
        ring := s.ring.getNextAllocator s.completedValue s.nextCompletionEvent
        phase := .opened }
    | _ => none
  | .close succeeds =>
    match s.phase with
    | .opened => some { s with phase := if succeeds then .closed else .failed }
    | _ => none
  | .executeCommandLists =>
    match s.phase with
    | .closed =>
      some { s with
        phase := .executed
        lastFenceValue := s.lastFenceValue + 1
        recorded := (s.ring.currentCommandAllocator, s.lastFenceValue + 1) :: s.recorded }
    | _ => none
  | .progress completedValue =>
    if s.completedValue ≤ completedValue ∧
        (completedValue ≤ s.lastFenceValue ∨ completedValue = uint64Max) then
      some { s with completedValue := completedValue }
    else none

section Properties

variable {n : Nat}

def State.Pending (s : State n) : Prop := s.phase ≠ .executed

instance (s : State n) : Decidable s.Pending := inferInstanceAs (Decidable (_ ≠ _))

/-- What was signaled after the last list recorded with the allocator, if any. -/
def State.lastSignaled (s : State n) (allocator : Fin (n + 1)) : Nat :=
  ((s.recorded.find? fun entry => entry.1 = allocator).map Prod.snd).getD 0

/-- The value that the queue signals after the last list recorded with the allocator: the next
    one, for the list that is not yet executed. -/
def State.signaledBy (s : State n) (allocator : Fin (n + 1)) : Nat :=
  if s.Pending ∧ allocator = s.ring.currentCommandAllocator then s.lastFenceValue + 1
  else s.lastSignaled allocator

/-- The event attached to each allocator is the one of the last list recorded with it. -/
def Attached (s : State n) : Prop :=
  ∀ allocator, s.ring.completionEvent allocator = ⟨s.signaledBy allocator, queueFence⟩

/-- When an allocator is reset, no list recorded with it is still to be executed, and the fence
    has reached the value of every list that was. -/
def ResetWhenCompleted (s : State n) (a : Action) (_ : State n) : Prop :=
  ∀ allocator, a = .openList → s.ring.resets s.completedValue = some allocator →
    ¬ s.Pending ∧ ∀ entry ∈ s.recorded, entry.1 = allocator → entry.2 ≤ s.completedValue

/-- The values in the log only grow, up to the last value of the queue. -/
structure Invariant (s : State n) : Prop where
  attached : Attached s
  ordered : s.recorded.Pairwise fun newer older => older.2 ≤ newer.2
  bounded : ∀ entry ∈ s.recorded, entry.2 ≤ s.lastFenceValue
  newest : ∀ allocator, s.lastSignaled allocator ≤ s.signaledBy s.ring.currentCommandAllocator

end Properties

section Steps

variable {n : Nat} {s t : State n}

theorem Invariant.le_lastSignaled (invariant : Invariant s) {entry : Fin (n + 1) × Nat}
    (mem : entry ∈ s.recorded) : entry.2 ≤ s.lastSignaled entry.1 := by
  have lt := invariant.ordered
  unfold State.lastSignaled
  generalize s.recorded = recorded at mem lt
  induction recorded with
  | nil => cases mem
  | cons newest rest ih =>
    obtain ⟨newer, lt⟩ := pairwise_cons.mp lt
    by_cases same : newest.1 = entry.1
    · simp only [find?_cons, same, decide_true, Option.map_some, Option.getD_some]
      rcases mem_cons.mp mem with rfl | older
      · exact le_refl _
      · exact newer entry older
    · simp only [find?_cons, same, decide_false]
      rcases mem_cons.mp mem with rfl | older
      · exact absurd rfl same
      · exact ih older lt

theorem Invariant.lastSignaled_le (invariant : Invariant s) (allocator : Fin (n + 1)) :
    s.lastSignaled allocator ≤ s.lastFenceValue := by
  unfold State.lastSignaled
  cases got : s.recorded.find? fun entry => entry.1 = allocator with
  | none => exact Nat.zero_le _
  | some entry => exact invariant.bounded entry (mem_of_find?_eq_some got)

theorem Invariant.initial : Invariant (.initial : State n) where
  attached := fun allocator => by simp [State.initial, DmlCommandAllocatorRing.create,
    State.signaledBy, State.Pending, State.lastSignaled]
  ordered := .nil
  bounded := by simp [State.initial]
  newest := by simp [State.initial, State.lastSignaled]

theorem Invariant.completionEvent (invariant : Invariant s) (executed : s.phase = .executed)
    (allocator : Fin (n + 1)) :
    s.ring.completionEvent allocator = ⟨s.lastSignaled allocator, queueFence⟩ := by
  rw [invariant.attached allocator, State.signaledBy, if_neg (fun pending => pending.1 executed)]

theorem Invariant.openList (invariant : Invariant s) (executed : s.phase = .executed) :
    Invariant { s with
      ring := s.ring.getNextAllocator s.completedValue s.nextCompletionEvent
      phase := .opened } where
  attached := fun allocator => by
    simp only [DmlCommandAllocatorRing.getNextAllocator, State.signaledBy, State.Pending,
      State.lastSignaled, ne_eq, reduceCtorEq, not_false_eq_true, true_and]
    by_cases cur : allocator = (s.ring.resets s.completedValue).getD s.ring.currentCommandAllocator
    · rw [if_pos cur, cur, Function.update_self, State.nextCompletionEvent]
    · rw [if_neg cur, Function.update_of_ne cur]
      exact invariant.completionEvent executed allocator
  ordered := invariant.ordered
  bounded := invariant.bounded
  newest := fun allocator => by
    have bounded := invariant.lastSignaled_le allocator
    simp only [State.signaledBy, State.Pending, ne_eq, reduceCtorEq, not_false_eq_true,
      and_self, if_true]
    exact Nat.le_succ_of_le bounded

theorem Invariant.close (invariant : Invariant s) (opened : s.phase = .opened) {phase : Phase}
    (pending : phase ≠ .executed) : Invariant { s with phase := phase } := by
  have same : ∀ allocator,
      ({ s with phase := phase } : State n).signaledBy allocator = s.signaledBy allocator := by
    intro allocator
    simp [State.signaledBy, State.Pending, State.lastSignaled, opened, pending]
  constructor
  · intro allocator
    rw [same]
    exact invariant.attached allocator
  · exact invariant.ordered
  · exact invariant.bounded
  · intro allocator
    rw [same]
    exact invariant.newest allocator

theorem Invariant.executeCommandLists (invariant : Invariant s) (closed : s.phase = .closed) :
    Invariant { s with
      phase := .executed
      lastFenceValue := s.lastFenceValue + 1
      recorded := (s.ring.currentCommandAllocator, s.lastFenceValue + 1) :: s.recorded } := by
  have pending : s.Pending := by simp [State.Pending, closed]
  -- The list that was pending is now the last one of its allocator in the log.
  have same : ∀ allocator, ({ s with
      phase := .executed
      lastFenceValue := s.lastFenceValue + 1
      recorded := (s.ring.currentCommandAllocator, s.lastFenceValue + 1) :: s.recorded } :
        State n).lastSignaled allocator = s.signaledBy allocator := by
    intro allocator
    by_cases cur : s.ring.currentCommandAllocator = allocator
    · simp [State.lastSignaled, State.signaledBy, pending, cur]
    · simp [State.lastSignaled, State.signaledBy, cur, Ne.symm cur]
  constructor
  · intro allocator
    rw [State.signaledBy, if_neg (by simp [State.Pending]), same]
    exact invariant.attached allocator
  · refine pairwise_cons.mpr ⟨?_, invariant.ordered⟩
    intro entry mem
    exact Nat.le_succ_of_le (invariant.bounded entry mem)
  · intro entry mem
    rcases mem_cons.mp mem with rfl | older
    · exact le_refl _
    · exact Nat.le_succ_of_le (invariant.bounded entry older)
  · intro allocator
    have bounded := invariant.lastSignaled_le allocator
    rw [State.signaledBy, if_neg (by simp [State.Pending]), same, same]
    simp only [State.signaledBy, pending, true_and, if_true]
    split
    · exact le_refl _
    · exact Nat.le_succ_of_le bounded

theorem Invariant.progress (invariant : Invariant s) (completedValue : Nat) :
    Invariant { s with completedValue := completedValue } where
  attached := invariant.attached
  ordered := invariant.ordered
  bounded := invariant.bounded
  newest := invariant.newest

theorem Invariant.step {a : Action} (invariant : Invariant s) (taken : step s a = some t) :
    Invariant t := by
  cases a with
  | openList =>
    cases executed : s.phase with
    | executed =>
      simp only [CommandAllocatorRing.step, executed, Option.some.injEq] at taken
      exact taken ▸ invariant.openList executed
    | opened | closed | failed => simp [CommandAllocatorRing.step, executed] at taken
  | close succeeds =>
    cases opened : s.phase with
    | opened =>
      simp only [CommandAllocatorRing.step, opened, Option.some.injEq] at taken
      subst taken
      cases succeeds with
      | true => exact invariant.close opened (by simp)
      | false => exact invariant.close opened (by simp)
    | executed | closed | failed => simp [CommandAllocatorRing.step, opened] at taken
  | executeCommandLists =>
    cases closed : s.phase with
    | closed =>
      simp only [CommandAllocatorRing.step, closed, Option.some.injEq] at taken
      exact taken ▸ invariant.executeCommandLists closed
    | executed | opened | failed => simp [CommandAllocatorRing.step, closed] at taken
  | progress completedValue =>
    simp only [CommandAllocatorRing.step, Option.ite_none_right_eq_some, Option.some.injEq] at taken
    exact taken.2 ▸ invariant.progress completedValue

theorem Invariant.resetWhenCompleted (invariant : Invariant s) {a : Action}
    (taken : CommandAllocatorRing.step s a = some t) : ResetWhenCompleted s a t := by
  intro allocator opens resets
  subst opens
  cases executed : s.phase with
  | executed =>
    unfold DmlCommandAllocatorRing.resets at resets
    split at resets
    next signaled =>
        obtain rfl := Option.some.inj resets
        rw [invariant.completionEvent executed, DmlGpuEvent.isSignaled,
          decide_eq_true_eq] at signaled
        refine ⟨fun pending => pending executed, ?_⟩
        intro entry mem same
        have earlier := invariant.le_lastSignaled mem
        rw [same] at earlier
        exact le_trans earlier signaled
    next => cases resets
  | opened | closed | failed => simp [CommandAllocatorRing.step, executed] at taken

theorem Invariant.asserts (invariant : Invariant s) (executed : s.phase = .executed) :
    s.ring.Asserts s.completedValue := by
  have newest := invariant.newest s.ring.earliestOtherAllocator
  rw [State.signaledBy, if_neg (fun pending => pending.1 executed)] at newest
  rw [DmlCommandAllocatorRing.Asserts, DmlGpuEvent.isSignaled_eq_false,
    invariant.completionEvent executed, invariant.completionEvent executed,
    DmlGpuEvent.isSignaled, decide_eq_true_eq]
  simp only
  omega

end Steps

/-- In every run, an allocator is reset only when every list recorded with it is completed, and
    the event attached to it is the one of the last list recorded with it. -/
theorem reuse_safe (n : Nat) (actions : List Action) :
    EveryStep step (fun s a t => ResetWhenCompleted s a t ∧ Attached t) (.initial : State n)
      actions := by
  apply everyStep_invariant (I := Invariant) _ Invariant.initial
  intro s a t invariant taken
  have later := invariant.step taken
  exact ⟨later, invariant.resetWhenCompleted taken, later.attached⟩

end TfDml.CommandAllocatorRing
