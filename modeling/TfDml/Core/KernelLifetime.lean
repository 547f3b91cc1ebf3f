import TfDml.Core.ExecutionContext
import TfDml.Core.KernelManager

/-! # The lifetime of kernels

Commands refer to the kernel that recorded them by raw pointers and run later.
A kernel is kept alive by the cache, by the queued references of the kernel
manager and by the calls that hold it. Every step of a call, of the execution
context, of the kernel manager and of the fence may come between any others.
-/

namespace TfDml.KernelLifetime

open Lib ExecutionContext KernelManager List Option
open AList

abbrev KernelId := Nat
abbrev CallId := Nat

/-- What a kernel is constructed for: a wrapper with a key, a wrapper that does not
    cache, or the stack of `UpdateVariable`. -/
inductive Origin (Key : Type) where
  | cached (key : Key)
  | uncached
  | updateVariable

inductive Stage where
  | constructing
  | executing
  | computed (gpuEvent : DmlGpuEvent)
  | queued

/-- A running call, its kernel, and the event of the last command it recorded. -/
structure Call (Key : Type) where
  kernel : KernelId
  origin : Origin Key
  stage : Stage
  recorded : Option DmlGpuEvent := none

/-- A command is the kernel it refers to, or `none` for commands of other clients.
    `completedValue` is what the fence of the queue reports. -/
structure State (Key : Type) where
  context : ExecutionContext.State (Option KernelId) := {}
  manager : DmlKernelManager Key KernelId
  calls : AList (fun _ : CallId => Call Key) := ∅
  completedValue : Nat := 0
  nextKernel : KernelId := 0

inductive Action (Key : Type) where
  /-- A wrapper looks for a cached kernel; on a hit it goes on to execute it. -/
  | lookup (call : CallId) (key : Key)
  | construct (call : CallId) (origin : Origin Key)
  /-- The kernel records a command, to initialize or to execute its operator. -/
  | record (call : CallId)
  | finishConstruction (call : CallId)
  /-- `Compute` returns the event of its last command or the current one. -/
  | finishCompute (call : CallId) (current : Bool)
  | queueReference (call : CallId)
  /-- The call ends, with an error or not, and drops its kernel. -/
  | return_ (call : CallId)
  | clearCache
  | releaseCompletedReferences (observed : DmlGpuEvent → Nat)
  | context (action : ExecutionContext.Action (Option KernelId))
  | signal (value : Nat)

variable {Key : Type}

def State.setCall (s : State Key) (id : CallId) (call : Call Key) : State Key :=
  { s with calls := s.calls.insert id call }

/-- The constructed kernel goes to the cache if its wrapper caches. -/
def finishConstruction [DecidableEq Key] (s : State Key) (id : CallId) (call : Call Key) : State Key :=
  match call.origin with
  | .cached key =>
    { s with manager := (s.manager.createCachedKernel key call.kernel).2 }.setCall id
      { call with stage := .executing }
  | .uncached | .updateVariable => s.setCall id { call with stage := .executing }

def returnedEvent (s : State Key) (call : Call Key) (current : Bool) : Option DmlGpuEvent :=
  if current then some s.context.batchState.getCurrentCompletionEvent else call.recorded

/-- Where a call may end: after queueing its reference; before, on an error; and
    `UpdateVariable` with the event that it does not use. -/
def Call.mayReturn (call : Call Key) : Bool :=
  match call.stage, call.origin with
  | .executing, _ => true
  | .queued, _ => true
  | .computed _, .updateVariable => true
  | _, _ => false

def foreign : ExecutionContext.Action (Option KernelId) → Bool
  | .append command => command.isNone
  | _ => true

def step [DecidableEq Key] (batchFlushSize : Nat) (s : State Key) : Action Key → Option (State Key)
  | .lookup id key =>
    match s.calls.lookup id, s.manager.tryGetCachedKernel key with
    | none, (some kernel, manager) =>
      some ({ s with manager := manager }.setCall id ⟨kernel, .cached key, .executing, none⟩)
    | none, (none, _) => some s
    | some _, _ => none
  | .construct id origin =>
    match s.calls.lookup id with
    | none =>
      some ({ s with nextKernel := s.nextKernel + 1 }.setCall id
        ⟨s.nextKernel, origin, .constructing, none⟩)
    | some _ => none
  | .record id =>
    match s.calls.lookup id with
    | some call =>
      match call.stage with
      | .constructing | .executing =>
        (ExecutionContext.step batchFlushSize s.context (.append (some call.kernel))).map
          fun context =>
            { s with context := context }.setCall id
              { call with recorded := some s.context.batchState.nextFlushEvent }
      | .computed _ | .queued => none
    | none => none
  | .finishConstruction id =>
    match s.calls.lookup id with
    | some call =>
      match call.stage with
      | .constructing => some (finishConstruction s id call)
      | _ => none
    | none => none
  | .finishCompute id current =>
    match s.calls.lookup id with
    | some call =>
      match call.stage with
      | .executing =>
        (returnedEvent s call current).map fun gpuEvent =>
          s.setCall id { call with stage := .computed gpuEvent }
      | _ => none
    | none => none
  | .queueReference id =>
    match s.calls.lookup id with
    | some call =>
      match call.stage, call.origin with
      | .computed _, .updateVariable => none
      | .computed gpuEvent, _ =>
        some ({ s with manager := s.manager.queueReference call.kernel gpuEvent }.setCall id
          { call with stage := .queued })
      | _, _ => none
    | none => none
  | .return_ id =>
    match s.calls.lookup id with
    | some call => if call.mayReturn then some { s with calls := s.calls.erase id } else none
    | none => none
  | .clearCache => some { s with manager := s.manager.clearCache }
  | .releaseCompletedReferences observed =>
    if ∀ r ∈ s.manager.queuedReferences, observed r.gpuEvent ≤ s.completedValue then
      some { s with
        manager := s.manager.releaseCompletedReferences fun event =>
          event.isSignaled (observed event) }
    else none
  | .context action =>
    if foreign action then
      (ExecutionContext.step batchFlushSize s.context action).map fun context =>
        { s with context := context }
    else none
  | .signal value =>
    if s.completedValue ≤ value ∧ value ≤ s.context.lastFenceValue then
      some { s with completedValue := value }
    else none

/-- The kernel is not destroyed: somebody holds a reference to it. -/
def Owned [DecidableEq Key] (s : State Key) (kernel : KernelId) : Prop :=
  (∃ key entry, s.manager.kernelCache.lookup key = some entry ∧ entry.kernel = kernel) ∨
    (∃ r ∈ s.manager.queuedReferences, r.kernel = kernel) ∨
    ∃ id call, s.calls.lookup id = some call ∧ call.kernel = kernel

def PendingOwned [DecidableEq Key] (_ : State Key) (_ : Action Key) (s : State Key) : Prop :=
  ∀ entry ∈ s.context.appended, ∀ kernel, entry.1 = some kernel →
    entry.2.isSignaled s.completedValue = false → Owned s kernel

/-- A call that ends has queued a reference to its kernel, or its commands have
    completed. -/
def HandsOver (s : State Key) (a : Action Key) (_ : State Key) : Prop :=
  ∀ id call, a = .return_ id → s.calls.lookup id = some call → call.stage = .queued ∨
      ∀ gpuEvent, call.recorded = some gpuEvent → gpuEvent.isSignaled s.completedValue = true

variable {s t : State Key} {a : Action Key}

theorem handsOver_of_ne (other : ∀ id, a ≠ .return_ id) : HandsOver s a t :=
  fun id _ returns => absurd returns (other id)

/-- A command of the kernel with this fence value is covered by a running call whose last
    command is not earlier, or by a queued reference whose event is not earlier. -/
def Covered (s : State Key) (kernel : KernelId) (value : Nat) : Prop :=
  (∃ id call gpuEvent, s.calls.lookup id = some call ∧ call.kernel = kernel ∧
      call.recorded = some gpuEvent ∧ value ≤ gpuEvent.fenceValue) ∨
    ∃ r ∈ s.manager.queuedReferences, r.kernel = kernel ∧ value ≤ r.gpuEvent.fenceValue

/-- What is known of a running call: its last command is in the log, the event that
    `Compute` returned does not come before it, and once the reference is queued it
    covers the command. -/
structure CallOk (s : State Key) (call : Call Key) : Prop where
  recorded : ∀ gpuEvent, call.recorded = some gpuEvent →
    ∃ entry ∈ s.context.appended, entry.2 = gpuEvent
  computed : ∀ returned gpuEvent, call.stage = .computed returned →
    call.recorded = some gpuEvent → gpuEvent.fenceValue ≤ returned.fenceValue
  queued : ∀ gpuEvent, call.stage = .queued → call.recorded = some gpuEvent →
    gpuEvent.fenceValue ≤ s.completedValue ∨
      ∃ r ∈ s.manager.queuedReferences, r.kernel = call.kernel ∧
        gpuEvent.fenceValue ≤ r.gpuEvent.fenceValue

structure Invariant (s : State Key) : Prop where
  context : ExecutionContext.Invariant s.context
  covered : ∀ entry ∈ s.context.appended, ∀ kernel, entry.1 = some kernel →
    s.completedValue < entry.2.fenceValue → Covered s kernel entry.2.fenceValue
  calls : ∀ id call, s.calls.lookup id = some call → CallOk s call

theorem invariant_init (maxCacheSize : Nat) :
    Invariant ({ manager := { maxCacheSize := maxCacheSize } } : State Key) where
  context := ExecutionContext.invariant_init
  covered := by simp
  calls := by simp

theorem Invariant.pendingOwned [DecidableEq Key] (inv : Invariant s) (pre : State Key)
    (a : Action Key) : PendingOwned pre a s := by
  intro entry mem kernel same pending
  rw [DmlGpuEvent.isSignaled_eq_false] at pending
  rcases inv.covered entry mem kernel same pending with
    ⟨id, call, -, running, holds, -⟩ | ⟨r, queued, holds, -⟩
  · exact Or.inr (Or.inr ⟨id, call, running, holds⟩)
  · exact Or.inr (Or.inl ⟨r, queued, holds⟩)

theorem Invariant.of_manager (inv : Invariant s) {manager : DmlKernelManager Key KernelId}
    (same : manager.queuedReferences = s.manager.queuedReferences) :
    Invariant { s with manager := manager } where
  context := inv.context
  covered := by
    intro entry mem kernel is pending
    rcases inv.covered entry mem kernel is pending with running | queued
    · exact Or.inl running
    · exact Or.inr (by simpa only [same] using queued)
  calls := by
    intro id call running
    have ok := inv.calls id call running
    exact ⟨ok.recorded, ok.computed, by simpa only [same] using ok.queued⟩

variable {kernel : KernelId} {value : Nat} {id : CallId} {call : Call Key}

theorem Covered.setCall (covered : Covered s kernel value)
    (keeps : ∀ old gpuEvent, s.calls.lookup id = some old → old.recorded = some gpuEvent →
      old.kernel = call.kernel ∧
        ∃ later, call.recorded = some later ∧ gpuEvent.fenceValue ≤ later.fenceValue) :
    Covered (s.setCall id call) kernel value := by
  rcases covered with ⟨other, old, gpuEvent, running, holds, recorded, le⟩ | queued
  · by_cases same : other = id
    · subst same
      obtain ⟨sameKernel, later, recordedLater, grows⟩ := keeps old gpuEvent running recorded
      exact Or.inl ⟨other, call, later, lookup_insert _, sameKernel.symm.trans holds,
        recordedLater, le.trans grows⟩
    · refine Or.inl ⟨other, old, gpuEvent, ?_, holds, recorded, le⟩
      exact (lookup_insert_ne same).trans running
  · exact Or.inr queued

theorem Invariant.setCall (inv : Invariant s) (ok : CallOk s call)
    (keeps : ∀ old gpuEvent, s.calls.lookup id = some old → old.recorded = some gpuEvent →
      old.kernel = call.kernel ∧
        ∃ later, call.recorded = some later ∧ gpuEvent.fenceValue ≤ later.fenceValue) :
    Invariant (s.setCall id call) where
  context := inv.context
  covered := fun entry mem kernel is pending =>
    (inv.covered entry mem kernel is pending).setCall keeps
  calls := by
    intro other c running
    by_cases same : other = id
    · subst same
      have eq : call = c := by simpa [State.setCall] using running
      exact eq ▸ ⟨ok.recorded, ok.computed, ok.queued⟩
    · have old : s.calls.lookup other = some c :=
        (lookup_insert_ne same).symm.trans running
      have pre := inv.calls other c old
      exact ⟨pre.recorded, pre.computed, pre.queued⟩

variable {stage : Stage}

theorem Invariant.startCall (inv : Invariant s) (unused : s.calls.lookup id = none)
    {origin : Origin Key} : Invariant (s.setCall id ⟨kernel, origin, stage, none⟩) := by
  refine inv.setCall ⟨by simp, by simp, by simp⟩ ?_
  intro old _ running
  rw [unused] at running
  cases running

variable {context : ExecutionContext.State (Option KernelId)}

theorem CallOk.of_appended (ok : CallOk s call) {new : List (Option KernelId × DmlGpuEvent)}
    (appended : context.appended = s.context.appended ++ new) :
    CallOk { s with context := context } call where
  recorded := by
    intro gpuEvent recorded
    obtain ⟨entry, mem, same⟩ := ok.recorded gpuEvent recorded
    exact ⟨entry, appended ▸ mem_append_left _ mem, same⟩
  computed := ok.computed
  queued := ok.queued

variable {batchFlushSize : Nat}

theorem Invariant.foreign_step {action : ExecutionContext.Action (Option KernelId)}
    (inv : Invariant s) (other : foreign action = true)
    (taken : ExecutionContext.step batchFlushSize s.context action = some context) :
    Invariant { s with context := context } := by
  have appended := ExecutionContext.step_appended batchFlushSize taken
  refine ⟨ExecutionContext.step_invariant _ _ _ _ inv.context taken, ?_, ?_⟩
  · intro entry mem kernel is pending
    rw [appended] at mem
    rcases mem_append.mp mem with old | new
    · exact inv.covered entry old kernel is pending
    · cases action with
      | append command =>
        obtain rfl := mem_singleton.mp new
        have none_ : command = none := by simpa [foreign] using other
        rw [none_] at is
        cases is
      | _ => simp [ExecutionContext.Action.adds] at new
  · intro id call running
    exact (inv.calls id call running).of_appended appended

theorem Invariant.record (inv : Invariant s) (running : s.calls.lookup id = some call)
    (unfinished : call.stage = .constructing ∨ call.stage = .executing)
    (taken : ExecutionContext.step batchFlushSize s.context (.append (some call.kernel)) =
      some context) : Invariant ({ s with context := context }.setCall id
      { call with recorded := some s.context.batchState.nextFlushEvent }) := by
  have appended : context.appended =
      s.context.appended ++ [(some call.kernel, s.context.batchState.nextFlushEvent)] :=
    ExecutionContext.step_appended batchFlushSize taken
  refine ⟨ExecutionContext.step_invariant _ _ _ _ inv.context taken, ?_, ?_⟩
  · intro entry mem kernel is pending
    have inLog : entry ∈ s.context.appended ++
        [(some call.kernel, s.context.batchState.nextFlushEvent)] := appended ▸ mem
    rcases mem_append.mp inLog with old | new
    · have covered : Covered { s with context := context } kernel entry.2.fenceValue :=
        inv.covered entry old kernel is pending
      apply covered.setCall
      intro c gpuEvent got recorded
      obtain rfl := some.inj (running.symm.trans got)
      obtain ⟨last, logged, rfl⟩ := (inv.calls id call running).recorded gpuEvent recorded
      exact ⟨rfl, _, rfl, inv.context.appended_le_next logged⟩
    · obtain rfl := mem_singleton.mp new
      exact Or.inl ⟨id, _, _, lookup_insert _, some.inj is, rfl, le_refl _⟩
  · intro other c got
    by_cases same : other = id
    · subst same
      have eq : { call with recorded := some s.context.batchState.nextFlushEvent } = c := by
        simpa [State.setCall] using got
      subst eq
      refine ⟨?_, ?_, ?_⟩
      · intro gpuEvent recorded
        obtain rfl := some.inj recorded
        exact ⟨_, appended ▸ mem_append_right _ mem_cons_self, rfl⟩
      · intro returned _ stage
        rcases unfinished with now | now <;> simp [now] at stage
      · intro _ stage
        rcases unfinished with now | now <;> simp [now] at stage
    · have old : s.calls.lookup other = some c :=
        (lookup_insert_ne same).symm.trans got
      have ok := (inv.calls other c old).of_appended appended
      exact ⟨ok.recorded, ok.computed, ok.queued⟩

theorem Invariant.return_ (inv : Invariant s) (running : s.calls.lookup id = some call)
    (handsOver : call.stage = .queued ∨ ∀ gpuEvent, call.recorded = some gpuEvent →
      gpuEvent.isSignaled s.completedValue = true) :
    Invariant { s with calls := s.calls.erase id } := by
  have ok := inv.calls id call running
  have covered : ∀ gpuEvent, call.recorded = some gpuEvent →
      gpuEvent.fenceValue ≤ s.completedValue ∨
        ∃ r ∈ s.manager.queuedReferences, r.kernel = call.kernel ∧
          gpuEvent.fenceValue ≤ r.gpuEvent.fenceValue := by
    intro gpuEvent recorded
    rcases handsOver with queued | completed
    · exact ok.queued gpuEvent queued recorded
    · exact Or.inl (by simpa [DmlGpuEvent.isSignaled] using completed gpuEvent recorded)
  refine ⟨inv.context, ?_, ?_⟩
  · intro entry mem kernel is pending
    rcases inv.covered entry mem kernel is pending with
      ⟨other, c, gpuEvent, got, holds, recorded, le⟩ | queued
    · by_cases same : other = id
      · subst same
        obtain rfl := some.inj (running.symm.trans got)
        rcases covered gpuEvent recorded with completed | ⟨r, lt, kept, later⟩
        · exact absurd (pending.trans_le (le.trans completed)) (lt_irrefl _)
        · exact Or.inr ⟨r, lt, kept.trans holds, le.trans later⟩
      · exact Or.inl ⟨other, c, gpuEvent, (lookup_erase_ne same).trans got, holds, recorded, le⟩
    · exact Or.inr queued
  · intro other c got
    have ne : other ≠ id := by
      rintro rfl
      simp [lookup_erase] at got
    have pre := inv.calls other c ((lookup_erase_ne ne).symm.trans got)
    exact ⟨pre.recorded, pre.computed, pre.queued⟩

theorem Invariant.signal (inv : Invariant s) (forward : s.completedValue ≤ value) :
    Invariant { s with completedValue := value } where
  context := inv.context
  covered := fun entry mem kernel is pending =>
    inv.covered entry mem kernel is (forward.trans_lt pending)
  calls := by
    intro id call running
    have ok := inv.calls id call running
    refine ⟨ok.recorded, ok.computed, ?_⟩
    intro gpuEvent stage recorded
    exact (ok.queued gpuEvent stage recorded).imp (fun le => le.trans forward) (fun held => held)

theorem Invariant.release (inv : Invariant s) {seen : DmlGpuEvent → Nat}
    (run : ∀ r ∈ s.manager.queuedReferences, seen r.gpuEvent ≤ s.completedValue) :
    Invariant { s with
      manager := s.manager.releaseCompletedReferences fun event =>
        event.isSignaled (seen event) } := by
  have kept : ∀ r ∈ s.manager.queuedReferences, s.completedValue < r.gpuEvent.fenceValue →
      r ∈ (s.manager.releaseCompletedReferences fun event =>
        event.isSignaled (seen event)).queuedReferences := by
    intro r mem pending
    refine mem_filter.mpr ⟨mem, ?_⟩
    have behind := run r mem
    simp only [Bool.not_eq_true', DmlGpuEvent.isSignaled_eq_false]
    omega
  refine ⟨inv.context, ?_, ?_⟩
  · intro entry mem kernel is pending
    rcases inv.covered entry mem kernel is pending with running | ⟨r, lt, holds, le⟩
    · exact Or.inl running
    · exact Or.inr ⟨r, kept r lt (lt_of_lt_of_le pending le), holds, le⟩
  · intro id call running
    have ok := inv.calls id call running
    refine ⟨ok.recorded, ok.computed, ?_⟩
    intro gpuEvent stage recorded
    rcases ok.queued gpuEvent stage recorded with completed | ⟨r, lt, holds, le⟩
    · exact Or.inl completed
    · by_cases pending : s.completedValue < r.gpuEvent.fenceValue
      · exact Or.inr ⟨r, kept r lt pending, holds, le⟩
      · exact Or.inl (le.trans (Nat.le_of_not_lt pending))

variable {returned : DmlGpuEvent}

theorem Invariant.queueReference (inv : Invariant s) (running : s.calls.lookup id = some call)
    (stage : call.stage = .computed returned) :
    Invariant ({ s with manager := s.manager.queueReference call.kernel returned }.setCall id
      { call with stage := .queued }) := by
  have ok := inv.calls id call running
  have held : ∀ r ∈ s.manager.queuedReferences,
      r ∈ (s.manager.queueReference call.kernel returned).queuedReferences :=
    fun r mem => mem_append_left _ mem
  have referenced : Invariant
      { s with manager := s.manager.queueReference call.kernel returned } := by
    refine ⟨inv.context, ?_, ?_⟩
    · intro entry mem kernel is pending
      rcases inv.covered entry mem kernel is pending with call | ⟨r, lt, holds⟩
      · exact Or.inl call
      · exact Or.inr ⟨r, held r lt, holds⟩
    · intro other c got
      have pre := inv.calls other c got
      refine ⟨pre.recorded, pre.computed, ?_⟩
      intro gpuEvent now recorded
      rcases pre.queued gpuEvent now recorded with completed | ⟨r, lt, holds⟩
      · exact Or.inl completed
      · exact Or.inr ⟨r, held r lt, holds⟩
  refine referenced.setCall ⟨ok.recorded, by simp, ?_⟩ ?_
  · intro gpuEvent _ recorded
    exact Or.inr ⟨⟨call.kernel, returned⟩, mem_append_right _ mem_cons_self, rfl,
      ok.computed returned gpuEvent stage recorded⟩
  · intro old gpuEvent got recorded
    obtain rfl := some.inj (running.symm.trans got)
    exact ⟨rfl, gpuEvent, recorded, le_refl _⟩

theorem Invariant.nextStage (inv : Invariant s) (running : s.calls.lookup id = some call)
    (eq : ∀ returned gpuEvent, stage = .computed returned →
      call.recorded = some gpuEvent → gpuEvent.fenceValue ≤ returned.fenceValue)
    (unqueued : stage ≠ .queued) : Invariant (s.setCall id { call with stage := stage }) := by
  have ok := inv.calls id call running
  refine inv.setCall ⟨ok.recorded, eq, fun _ queued => absurd queued unqueued⟩ ?_
  intro old gpuEvent got recorded
  obtain rfl := some.inj (running.symm.trans got)
  exact ⟨rfl, gpuEvent, recorded, le_refl _⟩

theorem Invariant.finishConstruction [DecidableEq Key] (inv : Invariant s)
    (running : s.calls.lookup id = some call) : Invariant (finishConstruction s id call) := by
  unfold KernelLifetime.finishConstruction
  split
  · rename_i key _
    have cached := inv.of_manager
      (queuedReferences_createCachedKernel s.manager key call.kernel)
    exact cached.nextStage running (by simp) (by simp)
  · exact inv.nextStage running (by simp) (by simp)
  · exact inv.nextStage running (by simp) (by simp)

theorem Invariant.finishCompute {cur : Bool} (inv : Invariant s)
    (running : s.calls.lookup id = some call)
    (result : returnedEvent s call cur = some returned) :
    Invariant (s.setCall id { call with stage := .computed returned }) := by
  refine inv.nextStage running ?_ (by simp)
  intro event gpuEvent same recorded
  obtain rfl := Stage.computed.inj same
  unfold returnedEvent at result
  split at result
  · obtain ⟨entry, mem, rfl⟩ := (inv.calls id call running).recorded gpuEvent recorded
    have covers := inv.context.event.1 entry mem
    exact some.inj result ▸ covers
  · rw [recorded] at result
    obtain rfl := some.inj result
    exact le_refl _

theorem step_invariant [DecidableEq Key] (inv : Invariant s)
    (taken : step batchFlushSize s a = some t) (handsOver : HandsOver s a t) : Invariant t := by
  cases a with
  | lookup id key =>
    cases got : s.calls.lookup id with
    | some call => simp [step, got] at taken
    | none =>
      cases cached : s.manager.tryGetCachedKernel key with
      | mk result manager =>
        have same := queuedReferences_tryGetCachedKernel s.manager key
        rw [cached] at same
        cases result with
        | none =>
          simp only [step, got, cached, Option.some.injEq] at taken
          exact taken ▸ inv
        | some kernel =>
          simp only [step, got, cached, Option.some.injEq] at taken
          exact taken ▸ (inv.of_manager same).startCall got
  | construct id origin =>
    cases got : s.calls.lookup id with
    | some call => simp [step, got] at taken
    | none =>
      simp only [step, got, Option.some.injEq] at taken
      have numbered : Invariant { s with nextKernel := s.nextKernel + 1 } :=
        ⟨inv.context, inv.covered, fun id call running =>
          ⟨(inv.calls id call running).recorded, (inv.calls id call running).computed,
            (inv.calls id call running).queued⟩⟩
      exact taken ▸ numbered.startCall got
  | record id =>
    cases got : s.calls.lookup id with
    | none => simp [step, got] at taken
    | some call =>
      cases stage : call.stage with
      | constructing =>
        simp only [step, got, stage, map_eq_some_iff] at taken
        obtain ⟨context, appended, rfl⟩ := taken
        have next := inv.record got (Or.inl stage) appended
        simpa only [stage] using next
      | executing =>
        simp only [step, got, stage, map_eq_some_iff] at taken
        obtain ⟨context, appended, rfl⟩ := taken
        have next := inv.record got (Or.inr stage) appended
        simpa only [stage] using next
      | computed | queued => simp [step, got, stage] at taken
  | finishConstruction id =>
    cases got : s.calls.lookup id with
    | none => simp [step, got] at taken
    | some call =>
      cases stage : call.stage with
      | constructing =>
        simp only [step, got, stage, Option.some.injEq] at taken
        exact taken ▸ inv.finishConstruction got
      | executing | computed | queued => simp [step, got, stage] at taken
  | finishCompute id cur =>
    cases got : s.calls.lookup id with
    | none => simp [step, got] at taken
    | some call =>
      cases stage : call.stage with
      | executing =>
        simp only [step, got, stage, map_eq_some_iff] at taken
        obtain ⟨returned, result, rfl⟩ := taken
        exact inv.finishCompute got result
      | constructing | computed | queued => simp [step, got, stage] at taken
  | queueReference id =>
    cases got : s.calls.lookup id with
    | none => simp [step, got] at taken
    | some call =>
      cases stage : call.stage with
      | computed returned =>
        have next := inv.queueReference got stage
        cases origin : call.origin with
        | updateVariable => simp [step, got, stage, origin] at taken
        | cached key =>
          simp only [step, got, stage, origin, Option.some.injEq] at taken
          exact taken ▸ (by simpa only [origin] using next)
        | uncached =>
          simp only [step, got, stage, origin, Option.some.injEq] at taken
          exact taken ▸ (by simpa only [origin] using next)
      | constructing | executing | queued => simp [step, got, stage] at taken
  | return_ id =>
    cases got : s.calls.lookup id with
    | none => simp [step, got] at taken
    | some call =>
      simp only [step, got, ite_none_right_eq_some, Option.some.injEq] at taken
      obtain ⟨-, rfl⟩ := taken
      exact inv.return_ got (handsOver id call rfl got)
  | clearCache =>
    obtain rfl := some.inj taken
    exact inv.of_manager rfl
  | releaseCompletedReferences seen =>
    simp only [step, ite_none_right_eq_some, Option.some.injEq] at taken
    obtain ⟨run, rfl⟩ := taken
    exact inv.release run
  | context action =>
    simp only [step, ite_none_right_eq_some, map_eq_some_iff] at taken
    obtain ⟨other, context, stepped, rfl⟩ := taken
    exact inv.foreign_step other stepped
  | signal value =>
    simp only [step, ite_none_right_eq_some, Option.some.injEq] at taken
    obtain ⟨⟨forward, -⟩, rfl⟩ := taken
    exact inv.signal forward

/-- In every run whose calls hand over their kernels, no kernel is destroyed while a
    command of it is pending. -/
theorem kernels_outlive_commands [DecidableEq Key] (batchFlushSize maxCacheSize : Nat)
    {actions : List (Action Key)}
    (every : EveryStep (step batchFlushSize) HandsOver
      { manager := { maxCacheSize := maxCacheSize } } actions) :
    EveryStep (step batchFlushSize) PendingOwned
      { manager := { maxCacheSize := maxCacheSize } } actions := by
  have keep : ∀ (s : State Key) (a : Action Key) (t : State Key), Invariant s →
      step batchFlushSize s a = some t → HandsOver s a t → Invariant t ∧ PendingOwned s a t := by
    intro s a t inv taken handsOver
    have next := step_invariant inv taken handsOver
    exact ⟨next, next.pendingOwned s a⟩
  exact everyStep_of keep (invariant_init maxCacheSize) every

/-- A cached kernel is constructed and executed, and evicted while its command is
    pending. -/
def executeAndClear : List (Action Nat) :=
  [.construct 0 (.cached 5), .record 0, .finishConstruction 0, .record 0,
    .finishCompute 0 false, .queueReference 0, .return_ 0, .clearCache]

theorem executeAndClear_owned :
    EveryStep (step 100) PendingOwned { manager := { maxCacheSize := kDefaultMaxCacheSize } }
      executeAndClear := by
  apply kernels_outlive_commands
  refine EveryStep.cons rfl (handsOver_of_ne (by nofun)) ?_
  refine EveryStep.cons rfl (handsOver_of_ne (by nofun)) ?_
  refine EveryStep.cons rfl (handsOver_of_ne (by nofun)) ?_
  refine EveryStep.cons rfl (handsOver_of_ne (by nofun)) ?_
  refine EveryStep.cons rfl (handsOver_of_ne (by nofun)) ?_
  refine EveryStep.cons rfl (handsOver_of_ne (by nofun)) ?_
  refine EveryStep.cons rfl ?_ ?_
  · rintro _ _ ⟨⟩ ⟨⟩
    exact Or.inl rfl
  exact EveryStep.cons rfl (handsOver_of_ne nofun) trivial

/-- `UpdateVariable`: the kernel on the stack is initialized and executed, and destroyed
    before the commands are even submitted. -/
def assignAddVariable : List (Action Nat) :=
  [.construct 0 .updateVariable, .record 0, .finishConstruction 0, .record 0,
    .finishCompute 0 false, .return_ 0]

theorem assignAddVariable_destroyed : ¬ ∀ actions : List (Action Nat),
      EveryStep (step 100) PendingOwned { manager := { maxCacheSize := kDefaultMaxCacheSize } }
        actions := by
  intro every
  obtain ⟨-, later⟩ := every assignAddVariable _ rfl
  obtain ⟨-, later⟩ := later _ rfl
  obtain ⟨-, later⟩ := later _ rfl
  obtain ⟨-, later⟩ := later _ rfl
  obtain ⟨-, later⟩ := later _ rfl
  obtain ⟨owned, -⟩ := later _ rfl
  rcases owned (some 0, ⟨1, 0⟩) mem_cons_self 0 rfl rfl with
    ⟨key, entry, cached, -⟩ | ⟨r, queued, -⟩ | ⟨id, call, running, -⟩
  · cases cached
  · cases queued
  · cases running

end TfDml.KernelLifetime
