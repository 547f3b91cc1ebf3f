import TfDml.Core.Common
import TfDml.Lib.Run
import TfDml.Lib.Multimap
import Mathlib.Data.List.Range

/-! # The event queue

Callbacks run once the fence reaches the value of their event: in the background
thread, which holds the mutex while it runs them, or at once in `Enqueue`. The
fence advances on its own, so the value the thread last decided to wait for lags
behind it.
-/

namespace TfDml.EventQueue

open Lib List

variable {α : Type}

/-- An enqueued callback; `id` counts the calls of `Enqueue`. -/
structure Event (α : Type) where
  id : Nat
  fenceValue : Nat
  doneCallback : α
  deriving DecidableEq, Repr

/-- Where the background thread is. While it is processing it holds the mutex, with
    the callbacks it has still to run. -/
inductive Thread (α : Type) where
  | top
  | processing (deviceRemoved : Bool) (eventsToProcess : List (Event α))
  | waitForSignal (fenceValue : Nat)
  | exited

/-- The shared state, what its fence reports, the thread, and two logs: the events in
    the order of the calls of `Enqueue`, and the callbacks that have run, each with
    the value of the fence at that moment. -/
structure State (α : Type) where
  fence : FenceId
  completedValue : Nat
  eventsByFenceValue : List (Event α) := []
  currentAwaitedFenceValue : Nat := 0
  exitRequested : Bool := false
  thread : Thread α := .top
  enqueued : List (Event α) := []
  executed : List (Event α × Nat) := []

inductive Action (α : Type) where
  | enqueue (gpuEvent : DmlGpuEvent) (doneCallback : α)
  | signal (value : Nat)
  | requestExit
  /-- The thread takes the mutex and collects the signaled events. -/
  | collect
  /-- The thread runs the next callback it has collected. -/
  | runCallback
  /-- The thread has run all of them and unlocks the mutex. -/
  | finish
  /-- The wait for the next signal returns. -/
  | wake

def Thread.todo : Thread α → List (Event α)
  | .processing _ eventsToProcess => eventsToProcess
  | _ => []

@[simp] theorem Thread.todo_top : (Thread.top : Thread α).todo = [] := rfl

@[simp] theorem Thread.todo_processing (deviceRemoved : Bool) (todo : List (Event α)) :
    (Thread.processing deviceRemoved todo).todo = todo := rfl

@[simp] theorem Thread.todo_waitForSignal (fenceValue : Nat) :
    (Thread.waitForSignal fenceValue : Thread α).todo = [] := rfl

@[simp] theorem Thread.todo_exited : (Thread.exited : Thread α).todo = [] := rfl

def Thread.locked : Thread α → Bool
  | .processing _ _ => true
  | _ => false

/-- `Enqueue`, under the mutex: queue the event if it may not be signaled yet,
    otherwise invoke the callback immediately. -/
def enqueue (s : State α) (fenceValue : Nat) (doneCallback : α) : State α :=
  let event : Event α := ⟨s.enqueued.length, fenceValue, doneCallback⟩
  if s.currentAwaitedFenceValue ≤ fenceValue then
    { s with
      eventsByFenceValue := emplace Event.fenceValue event s.eventsByFenceValue
      enqueued := s.enqueued ++ [event] }
  else
    { s with
      enqueued := s.enqueued ++ [event]
      executed := s.executed ++ [(event, s.completedValue)] }

/-- The value to wait for next: `GetCompletedValue() + 1`, which overflows to zero
    when the device is removed. -/
def nextFenceValue (completedValue : Nat) : Bool × Nat :=
  let next := u64 (completedValue + 1)
  if next = 0 then (true, uint64Max) else (false, next)

/-- The first part of an iteration of `ThreadProc`. Waiting for new events and a
    spurious wakeup both lead back to the top of the loop. -/
def collect (s : State α) : State α :=
  if s.exitRequested then { s with thread := .exited }
  else if s.eventsByFenceValue.isEmpty then s
  else
    let (deviceRemoved, next) := nextFenceValue s.completedValue
    { s with
      currentAwaitedFenceValue := next
      eventsByFenceValue := fromBound Event.fenceValue next s.eventsByFenceValue
      thread := .processing deviceRemoved (beforeBound Event.fenceValue next s.eventsByFenceValue) }

/-- After the callbacks: leave the loop if the device is removed, wait for the next
    signal if events are left, or return to the top. -/
def finish (deviceRemoved : Bool) (s : State α) : State α :=
  if deviceRemoved then { s with thread := .exited }
  else if s.eventsByFenceValue.isEmpty then { s with thread := .top }
  else { s with thread := .waitForSignal s.currentAwaitedFenceValue }

/-- The mutex keeps clients out while the thread is processing, and the fence only
    moves forward. An event on another fence fails the check in `Enqueue`. -/
def step (s : State α) : Action α → Option (State α)
  | .enqueue gpuEvent doneCallback =>
    if s.thread.locked = false ∧ s.fence = gpuEvent.fence then
      some (enqueue s gpuEvent.fenceValue doneCallback)
    else none
  | .signal value =>
    if s.completedValue ≤ value ∧ value ≤ uint64Max then
      some { s with completedValue := value }
    else none
  | .requestExit => if s.thread.locked then none else some { s with exitRequested := true }
  | .collect =>
    match s.thread with
    | .top => some (collect s)
    | _ => none
  | .runCallback =>
    match s.thread with
    | .processing deviceRemoved (event :: rest) =>
      some
        { s with
          thread := .processing deviceRemoved rest
          executed := s.executed ++ [(event, s.completedValue)] }
    | _ => none
  | .finish =>
    match s.thread with
    | .processing deviceRemoved [] => some (finish deviceRemoved s)
    | _ => none
  | .wake =>
    match s.thread with
    | .waitForSignal fenceValue =>
      if fenceValue ≤ s.completedValue then some { s with thread := .top } else none
    | _ => none

variable {s t : State α}

theorem step_enqueue {gpuEvent : DmlGpuEvent} {doneCallback : α}
    (taken : step s (.enqueue gpuEvent doneCallback) = some t) :
    s.thread.locked = false ∧ s.fence = gpuEvent.fence ∧
      t = enqueue s gpuEvent.fenceValue doneCallback := by
  simp only [step, Option.ite_none_right_eq_some, Option.some.injEq] at taken
  obtain ⟨⟨unlocked, same⟩, rfl⟩ := taken
  exact ⟨unlocked, same, rfl⟩

theorem step_signal {value : Nat} (taken : step s (.signal value) = some t) :
    s.completedValue ≤ value ∧ value ≤ uint64Max ∧ t = { s with completedValue := value } := by
  simp only [step, Option.ite_none_right_eq_some, Option.some.injEq] at taken
  obtain ⟨⟨forward, bounded⟩, rfl⟩ := taken
  exact ⟨forward, bounded, rfl⟩

theorem step_requestExit (taken : step s .requestExit = some t) :
    t = { s with exitRequested := true } := by
  simp only [step, Option.ite_none_left_eq_some, Option.some.injEq] at taken
  exact taken.2.symm

theorem step_collect (taken : step s .collect = some t) : s.thread = .top ∧ t = collect s := by
  cases phase : s.thread with
  | top =>
    simp only [step, phase, Option.some.injEq] at taken
    exact ⟨rfl, taken.symm⟩
  | processing | waitForSignal | exited => simp [step, phase] at taken

theorem step_runCallback (taken : step s .runCallback = some t) :
    ∃ deviceRemoved event rest, s.thread = .processing deviceRemoved (event :: rest) ∧
      t = { s with
        thread := .processing deviceRemoved rest
        executed := s.executed ++ [(event, s.completedValue)] } := by
  cases phase : s.thread with
  | processing deviceRemoved todo =>
    cases todo with
    | nil => simp [step, phase] at taken
    | cons event rest =>
      simp only [step, phase, Option.some.injEq] at taken
      exact ⟨deviceRemoved, event, rest, rfl, taken.symm⟩
  | top | waitForSignal | exited => simp [step, phase] at taken

theorem step_finish (taken : step s .finish = some t) :
    ∃ deviceRemoved, s.thread = .processing deviceRemoved [] ∧ t = finish deviceRemoved s := by
  cases phase : s.thread with
  | processing deviceRemoved todo =>
    cases todo with
    | nil =>
      simp only [step, phase, Option.some.injEq] at taken
      exact ⟨deviceRemoved, rfl, taken.symm⟩
    | cons => simp [step, phase] at taken
  | top | waitForSignal | exited => simp [step, phase] at taken

theorem step_wake (taken : step s .wake = some t) :
    ∃ fenceValue, s.thread = .waitForSignal fenceValue ∧ fenceValue ≤ s.completedValue ∧
      t = { s with thread := .top } := by
  cases phase : s.thread with
  | waitForSignal fenceValue =>
    simp only [step, phase, Option.ite_none_right_eq_some, Option.some.injEq] at taken
    exact ⟨fenceValue, rfl, taken.1, taken.2.symm⟩
  | top | processing | exited => simp [step, phase] at taken

def init (fence : FenceId) (completedValue : Nat) : State α :=
  { fence := fence, completedValue := min completedValue uint64Max }

/-- The callbacks that have run, in the order in which they ran. -/
def State.ran (s : State α) : List (Event α) := s.executed.map Prod.fst

/-- All events in the order in which they run: those that ran, those the thread has
    taken out, and those in the map. -/
def State.service (s : State α) : List (Event α) := s.ran ++ s.thread.todo ++ s.eventsByFenceValue

/-- `y` may run after `x`: it is not an earlier event with a smaller or equal value. -/
def MayFollow (x y : Event α) : Prop := ¬ (y.id < x.id ∧ y.fenceValue ≤ x.fenceValue)

structure Invariant (s : State α) : Prop where
  complete : s.service.Perm s.enqueued
  numbered : s.enqueued.map Event.id = List.range s.enqueued.length
  order : s.service.Pairwise MayFollow
  sorted : SortedByKey Event.fenceValue s.eventsByFenceValue
  awaited : ∀ e ∈ s.eventsByFenceValue, s.currentAwaitedFenceValue ≤ e.fenceValue
  collected : ∀ e ∈ s.thread.todo, e.fenceValue < s.currentAwaitedFenceValue
  lagging : s.currentAwaitedFenceValue ≤ s.completedValue + 1
  bounded : s.completedValue ≤ uint64Max
  signaled : ∀ entry ∈ s.executed, entry.1.fenceValue ≤ entry.2

theorem invariant_init (fence : FenceId) (completedValue : Nat) :
    Invariant (init fence completedValue : State α) where
  complete := .refl _
  numbered := rfl
  order := .nil
  sorted := .nil
  awaited := by simp [init]
  collected := by simp [init]
  lagging := Nat.zero_le _
  bounded := Nat.min_le_right _ _
  signaled := by simp [init]

variable {e : Event α}

theorem Invariant.id_lt (inv : Invariant s) (mem : e ∈ s.service) : e.id < s.enqueued.length := by
  have numbered : e.id ∈ s.enqueued.map Event.id :=
    List.mem_map_of_mem (inv.complete.mem_iff.mp mem)
  rw [inv.numbered] at numbered
  exact mem_range.mp numbered

variable {thread : Thread α}

theorem Thread.todo_of_unlocked (unlocked : thread.locked = false) : thread.todo = [] := by
  cases thread with
  | processing => simp [Thread.locked] at unlocked
  | top | waitForSignal | exited => rfl

variable {x : Event α}

private theorem pairwise_insert {front back : List (Event α)}
    (order : (front ++ back).Pairwise MayFollow) (newest : ∀ e ∈ front ++ back, e.id < x.id)
    (above : ∀ e ∈ back, x.fenceValue < e.fenceValue) :
    (front ++ x :: back).Pairwise MayFollow := by
  obtain ⟨orderFront, orderBack, across⟩ := pairwise_append.mp order
  refine pairwise_append.mpr ⟨orderFront, pairwise_cons.mpr ⟨?_, orderBack⟩, ?_⟩
  · intro e mem
    have := above e mem
    unfold MayFollow
    omega
  · intro a inFront b mem
    rcases mem_cons.mp mem with rfl | inBack
    · have := newest a (mem_append_left _ inFront)
      unfold MayFollow
      omega
    · exact across a inFront b inBack

theorem service_of_idle (idle : s.thread.todo = []) :
    s.service = s.ran ++ s.eventsByFenceValue := by
  simp [State.service, idle]

theorem Invariant.numbered_append (inv : Invariant s) (next : e.id = s.enqueued.length) :
    (s.enqueued ++ [e]).map Event.id = List.range (s.enqueued ++ [e]).length := by
  simp [inv.numbered, next, range_succ]

theorem Invariant.enqueue_queued (inv : Invariant s) (idle : s.thread.todo = [])
    (next : x.id = s.enqueued.length) (queued : s.currentAwaitedFenceValue ≤ x.fenceValue) :
    Invariant
      { s with
        eventsByFenceValue := emplace Event.fenceValue x s.eventsByFenceValue
        enqueued := s.enqueued ++ [x] } := by
  have newest : ∀ e ∈ s.service, e.id < x.id := fun e mem => next ▸ inv.id_lt mem
  have order := inv.order
  have full := inv.complete
  rw [service_of_idle idle] at newest order full
  obtain ⟨front, back, split, ins, low, high⟩ := inv.sorted.emplace_split x
  constructor
  · simp only [State.service, State.ran, idle, append_nil]
    calc s.ran ++ emplace Event.fenceValue x s.eventsByFenceValue
        |>.Perm (s.ran ++ (x :: s.eventsByFenceValue)) := (perm_emplace x _).append_left _
      _ |>.Perm (x :: (s.ran ++ s.eventsByFenceValue)) := perm_middle
      _ |>.Perm (x :: s.enqueued) := full.cons x
      _ |>.Perm (s.enqueued ++ [x]) := (perm_append_singleton x _).symm
  · exact inv.numbered_append next
  · simp only [State.service, State.ran, idle, append_nil]
    rw [ins, ← append_assoc]
    rw [split, ← append_assoc] at order newest
    exact pairwise_insert order newest high
  · exact inv.sorted.emplace x
  · intro e mem
    rcases mem_emplace.mp mem with rfl | old
    · exact queued
    · exact inv.awaited e old
  · simp [idle]
  · exact inv.lagging
  · exact inv.bounded
  · exact inv.signaled

theorem Invariant.enqueue_immediate (inv : Invariant s) (idle : s.thread.todo = [])
    (next : x.id = s.enqueued.length) (immediate : x.fenceValue < s.currentAwaitedFenceValue) :
    Invariant
      { s with
        executed := s.executed ++ [(x, s.completedValue)]
        enqueued := s.enqueued ++ [x] } := by
  have newest : ∀ e ∈ s.service, e.id < x.id := fun e mem => next ▸ inv.id_lt mem
  have order := inv.order
  have full := inv.complete
  rw [service_of_idle idle] at newest order full
  constructor
  · simp only [State.service, State.ran, idle, append_nil, map_append, map_cons,
      map_nil, append_assoc, singleton_append]
    exact (perm_middle.trans (full.cons x)).trans
      (perm_append_singleton x _).symm
  · exact inv.numbered_append next
  · simp only [State.service, State.ran, idle, append_nil, map_append, map_cons,
      map_nil, append_assoc, singleton_append]
    apply pairwise_insert order newest
    intro e mem
    exact immediate.trans_le (inv.awaited e mem)
  · exact inv.sorted
  · exact inv.awaited
  · simp [idle]
  · exact inv.lagging
  · exact inv.bounded
  · have lagging := inv.lagging
    refine forall_mem_append.mpr ⟨inv.signaled, ?_⟩
    simp only [mem_singleton, forall_eq]
    omega

theorem Invariant.enqueue (inv : Invariant s) (unlocked : s.thread.locked = false)
    (fenceValue : Nat) (doneCallback : α) : Invariant (enqueue s fenceValue doneCallback) := by
  have idle := Thread.todo_of_unlocked unlocked
  unfold EventQueue.enqueue
  dsimp only
  split
  · rename_i queued
    exact inv.enqueue_queued idle rfl queued
  · rename_i immediate
    exact inv.enqueue_immediate idle rfl (Nat.lt_of_not_le immediate)

variable {completedValue : Nat}

theorem nextFenceValue_le (bounded : completedValue ≤ uint64Max) :
    (nextFenceValue completedValue).2 ≤ completedValue + 1 := by
  unfold nextFenceValue uint64Max u64 at *
  dsimp only
  split
  · dsimp only
    omega
  · dsimp only
    omega

theorem Invariant.collect (inv : Invariant s) (top : s.thread = .top) : Invariant (collect s) := by
  have idle : s.thread.todo = [] := by rw [top, Thread.todo_top]
  unfold EventQueue.collect
  dsimp only
  split
  · exact
      { inv with
        complete := by simpa [State.service, State.ran, idle] using inv.complete
        order := by simpa [State.service, State.ran, idle] using inv.order
        collected := by simp }
  · split
    · exact inv
    · -- the events move from the map to the thread, in the same order
      have service : ∀ next, s.ran ++ beforeBound Event.fenceValue next s.eventsByFenceValue ++
          fromBound Event.fenceValue next s.eventsByFenceValue = s.service := by
        intro next
        rw [append_assoc, before_append_from]
        simp [State.service, idle]
      exact
        { complete := (List.Perm.of_eq (service _)).trans inv.complete
          numbered := inv.numbered
          order := (congrArg (List.Pairwise MayFollow) (service _)).mpr inv.order
          sorted := inv.sorted.fromBound _
          awaited := fun _ => inv.sorted.le_of_mem_fromBound
          collected := fun _ => lt_of_mem_beforeBound
          lagging := nextFenceValue_le inv.bounded
          bounded := inv.bounded
          signaled := inv.signaled }

variable {deviceRemoved : Bool}

theorem Invariant.runCallback (inv : Invariant s) {event : Event α} {rest : List (Event α)}
    (processing : s.thread = .processing deviceRemoved (event :: rest)) : Invariant
      { s with
        thread := .processing deviceRemoved rest
        executed := s.executed ++ [(event, s.completedValue)] } := by
  have todo : s.thread.todo = event :: rest := by rw [processing, Thread.todo_processing]
  have collected := inv.collected
  rw [todo] at collected
  have below := collected event mem_cons_self
  have lagging := inv.lagging
  exact
    { inv with
      complete := by simpa [State.service, State.ran, todo] using inv.complete
      order := by simpa [State.service, State.ran, todo] using inv.order
      collected := fun e mem => collected e (mem_cons_of_mem _ mem)
      signaled := by
        refine forall_mem_append.mpr ⟨inv.signaled, ?_⟩
        simp only [mem_singleton, forall_eq]
        omega }

theorem Invariant.idle (inv : Invariant s) (done : s.thread.todo = []) (empty : thread.todo = []) :
    Invariant { s with thread := thread } :=
  { inv with
    complete := by simpa [State.service, State.ran, done, empty] using inv.complete
    order := by simpa [State.service, State.ran, done, empty] using inv.order
    collected := by simp [empty] }

theorem Invariant.finish (inv : Invariant s)
    (processing : s.thread = .processing deviceRemoved []) :
    Invariant (finish deviceRemoved s) := by
  have done : s.thread.todo = [] := by rw [processing, Thread.todo_processing]
  unfold EventQueue.finish
  split
  · exact inv.idle done rfl
  · split
    · exact inv.idle done rfl
    · exact inv.idle done rfl

theorem step_invariant (s : State α) (a : Action α) (t : State α) (inv : Invariant s)
    (taken : step s a = some t) : Invariant t := by
  cases a with
  | enqueue gpuEvent doneCallback =>
    obtain ⟨unlocked, -, rfl⟩ := step_enqueue taken
    exact inv.enqueue unlocked _ _
  | signal value =>
    obtain ⟨forward, bounded, rfl⟩ := step_signal taken
    have lagging := inv.lagging
    exact { inv with lagging := by dsimp only; omega, bounded := bounded }
  | requestExit =>
    obtain rfl := step_requestExit taken
    exact { inv with }
  | collect =>
    obtain ⟨top, rfl⟩ := step_collect taken
    exact inv.collect top
  | runCallback =>
    obtain ⟨deviceRemoved, event, rest, processing, rfl⟩ := step_runCallback taken
    exact inv.runCallback processing
  | finish =>
    obtain ⟨deviceRemoved, processing, rfl⟩ := step_finish taken
    exact inv.finish processing
  | wake =>
    obtain ⟨fenceValue, waiting, -, rfl⟩ := step_wake taken
    exact inv.idle (by rw [waiting, Thread.todo_waitForSignal]) rfl

theorem run_invariant_holds {fence : FenceId} {actions : List (Action α)}
    (reached : run step (init fence completedValue) actions = some s) : Invariant s :=
  run_invariant step_invariant (invariant_init fence completedValue) reached

theorem Invariant.nodup (inv : Invariant s) : s.service.Nodup := by
  have nodup : (s.enqueued.map Event.id).Nodup := inv.numbered ▸ nodup_range
  exact inv.complete.nodup_iff.mpr nodup.of_map

theorem Invariant.ran_before (inv : Invariant s) {e₁ e₂ : Event α} (enqueued : e₁ ∈ s.enqueued)
    (ran : e₂ ∈ s.ran) (earlier : e₁.id < e₂.id) (le : e₁.fenceValue ≤ e₂.fenceValue) :
    [e₁, e₂].Sublist s.ran := by
  have order := inv.order
  have mem := inv.complete.mem_iff.mpr enqueued
  unfold State.service at order mem
  rw [append_assoc] at order mem
  obtain ⟨orderRan, -, across⟩ := pairwise_append.mp order
  have forbidden : ¬ MayFollow e₂ e₁ := fun allowed => allowed ⟨earlier, le⟩
  have ran₁ : e₁ ∈ s.ran := by
    rcases mem_append.mp mem with pre | after
    · exact pre
    · exact absurd (across e₂ ran e₁ after) forbidden
  have ne : e₁ ≠ e₂ := by
    rintro rfl
    omega
  exact sublist_pair_of_pairwise orderRan ran₁ ran ne forbidden

theorem Invariant.filter_service (inv : Invariant s) (p : Event α → Bool)
    (rising : (s.enqueued.filter p).Pairwise fun a b => a.fenceValue ≤ b.fenceValue) :
    s.service.filter p = s.enqueued.filter p := by
  have nodup : (s.enqueued.map Event.id).Nodup := inv.numbered ▸ nodup_range
  have numbered : s.enqueued.Pairwise fun a b => a.id < b.id := by
    have ids : (s.enqueued.map Event.id).Pairwise (· < ·) := inv.numbered ▸ pairwise_lt_range
    exact pairwise_map.mp ids
  have rises : ∀ a ∈ s.enqueued.filter p, ∀ b ∈ s.enqueued.filter p, a.id < b.id →
      a.fenceValue ≤ b.fenceValue := by
    intro a ha b hb earlier
    by_contra falls
    have both := (numbered.filter p).and rising
    have order := sublist_pair_of_pairwise both hb ha (by rintro rfl; omega) (by omega)
    have contrary := (numbered.filter p).sublist order
    simp only [pairwise_pair] at contrary
    omega
  have perm : (s.service.filter p).Perm (s.enqueued.filter p) := inv.complete.filter p
  have served : (s.service.filter p).Pairwise fun a b => a.id < b.id := by
    have ids : (s.service.map Event.id).Nodup := (inv.complete.map _).nodup_iff.mpr nodup
    have both := ((inv.order.and (pairwise_map.mp ids)).filter p)
    refine List.Pairwise.imp_of_mem ?_ both
    intro a b ha hb allowed
    obtain ⟨follows, ne⟩ := allowed
    by_contra later
    exact follows ⟨by omega, rises b (perm.mem_iff.mp hb) a (perm.mem_iff.mp ha) (by omega)⟩
  exact perm.eq_of_pairwise (fun a b _ _ lt gt => absurd lt (by omega)) served
    (numbered.filter p)

/-- The event that a call of `Enqueue` adds. -/
def Action.adds (s : State α) : Action α → List (Event α)
  | .enqueue gpuEvent doneCallback => [⟨s.enqueued.length, gpuEvent.fenceValue, doneCallback⟩]
  | _ => []

theorem step_logs {a : Action α} (taken : step s a = some t) :
    t.fence = s.fence ∧ t.enqueued = s.enqueued ++ a.adds s ∧
      ∃ new, new.length ≤ 1 ∧ t.executed = s.executed ++ new := by
  cases a with
  | enqueue gpuEvent doneCallback =>
    obtain ⟨-, -, rfl⟩ := step_enqueue taken
    unfold enqueue
    dsimp only
    split
    · exact ⟨rfl, rfl, [], by simp, by simp⟩
    · exact ⟨rfl, rfl, [_], by simp, rfl⟩
  | signal value =>
    obtain ⟨-, -, rfl⟩ := step_signal taken
    exact ⟨rfl, by simp [Action.adds], [], by simp, by simp⟩
  | requestExit =>
    obtain rfl := step_requestExit taken
    exact ⟨rfl, by simp [Action.adds], [], by simp, by simp⟩
  | collect =>
    obtain ⟨-, rfl⟩ := step_collect taken
    unfold collect
    dsimp only
    split_ifs <;> exact ⟨rfl, by simp [Action.adds], [], by simp, by simp⟩
  | runCallback =>
    obtain ⟨deviceRemoved, event, rest, -, rfl⟩ := step_runCallback taken
    exact ⟨rfl, by simp [Action.adds], [_], by simp, rfl⟩
  | finish =>
    obtain ⟨deviceRemoved, -, rfl⟩ := step_finish taken
    unfold finish
    split_ifs <;> exact ⟨rfl, by simp [Action.adds], [], by simp, by simp⟩
  | wake =>
    obtain ⟨-, -, -, rfl⟩ := step_wake taken
    exact ⟨rfl, by simp [Action.adds], [], by simp, by simp⟩

/-- What holds in a state: every callback runs at most once and not before its fence
    value is reached, the events in the map are not below the awaited value, the
    immediate path finds every earlier event done, and callbacks run in order. -/
structure Guarantee (s : State α) : Prop where
  once : s.ran.Nodup ∧ ∀ e ∈ s.ran, e ∈ s.enqueued
  signaled : ∀ entry ∈ s.executed, entry.1.fenceValue ≤ entry.2
  awaited : ∀ e ∈ s.eventsByFenceValue, s.currentAwaitedFenceValue ≤ e.fenceValue
  immediate : ∀ gpuEvent doneCallback t, step s (.enqueue gpuEvent doneCallback) = some t →
    gpuEvent.fenceValue < s.currentAwaitedFenceValue →
      (∀ e ∈ s.eventsByFenceValue, gpuEvent.fenceValue < e.fenceValue) ∧
      ∀ e ∈ s.enqueued, e.fenceValue ≤ gpuEvent.fenceValue → e ∈ s.ran
  ordered : ∀ e₁ ∈ s.enqueued, ∀ e₂ ∈ s.ran, e₁.id < e₂.id → e₁.fenceValue ≤ e₂.fenceValue →
    [e₁, e₂].Sublist s.ran

theorem callbacks_in_order {fence : FenceId} {completedValue : Nat} {actions : List (Action α)}
    {s : State α} (reached : run step (init fence completedValue) actions = some s) :
    Guarantee s := by
  have inv := run_invariant_holds reached
  have nodup := inv.nodup
  unfold State.service at nodup
  rw [append_assoc] at nodup
  refine ⟨⟨nodup.of_append_left, ?_⟩, inv.signaled, inv.awaited, ?_, ?_⟩
  · intro e mem
    exact inv.complete.mem_iff.mp (mem_append_left _ (mem_append_left _ mem))
  · intro gpuEvent doneCallback t taken below
    have pending : ∀ e ∈ s.eventsByFenceValue, gpuEvent.fenceValue < e.fenceValue :=
      fun e mem => below.trans_le (inv.awaited e mem)
    refine ⟨pending, ?_⟩
    intro e mem le
    obtain ⟨unlocked, -, -⟩ := step_enqueue taken
    have served := inv.complete.mem_iff.mpr mem
    simp only [State.service, Thread.todo_of_unlocked unlocked, append_nil, mem_append] at served
    rcases served with ran | waiting
    · exact ran
    · have := pending e waiting
      omega
  · exact fun e₁ enqueued e₂ ran earlier le => inv.ran_before enqueued ran earlier le

/-- Two events, one of them signaled; the device is removed while the thread waits. -/
def removalWhileWaiting : List (Action String) :=
  [.enqueue ⟨1, 0⟩ "first", .enqueue ⟨5, 0⟩ "second", .signal 2, .collect, .runCallback, .finish,
    .enqueue ⟨2, 0⟩ "immediate", .signal uint64Max, .wake, .collect, .runCallback, .finish,
    .enqueue ⟨7, 0⟩ "late"]

theorem removalWhileWaiting_in_order : ∃ s, run step (init 0 0) removalWhileWaiting = some s ∧
      s.ran.map Event.doneCallback = ["first", "immediate", "second", "late"] ∧ Guarantee s := by
  have reached : ∃ s, run step (init 0 0) removalWhileWaiting = some s ∧
      s.ran.map Event.doneCallback = ["first", "immediate", "second", "late"] := ⟨_, rfl, rfl⟩
  obtain ⟨s, reached, ran⟩ := reached
  exact ⟨s, reached, ran, callbacks_in_order reached⟩

end TfDml.EventQueue
