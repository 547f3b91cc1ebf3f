import TfDml.Lib.Run

/-! # Updates of a variable by two invocations

The scatter ops and the slice assignment compute the whole variable into an
intermediate buffer and copy it back with a second command. Two invocations on
one variable take their steps in any order. The GPU executes commands in the
order in which they are enqueued, so the state has the memory as it is after the
commands enqueued so far.
-/

namespace TfDml.VariableUpdate

open Lib Option

inductive UpdateOp where
  | resourceScatterAdd | resourceScatterSub | resourceScatterMul | resourceScatterDiv
  | resourceScatterMin | resourceScatterMax
  | resourceScatterNdAdd | resourceScatterNdSub
  | resourceStridedSliceAssign (isIdentity : Bool)
  deriving DecidableEq

inductive Step where
  | getInputTensorFromVariable
  | lockShared
  | unlock
  | initializeOperator
  /-- The strides that `ScatterNd` uploads for its own operator. -/
  | copyHostToBuffer
  /-- Executes the operator from the variable into the intermediate buffer. -/
  | executeOperator
  /-- Executes the operator into the variable itself. -/
  | executeInPlace
  /-- Copies the intermediate buffer back to the variable. -/
  | copyBufferToBuffer
  | insertUavBarrier
  deriving DecidableEq

/-- `ScatterUpdateInitializationHelper`, then `DmlScatterUpdateKernel::Compute`. -/
def scatterUpdate : List Step :=
  [.getInputTensorFromVariable, .lockShared, .initializeOperator, .executeOperator,
    .copyBufferToBuffer, .insertUavBarrier, .unlock]

/-- `ScatterNdInitHelper`, then `DmlScatterNdBinaryKernel::Compute`. -/
def scatterNdBinary : List Step :=
  [.getInputTensorFromVariable, .lockShared, .initializeOperator, .copyHostToBuffer,
    .executeOperator, .copyBufferToBuffer, .insertUavBarrier, .unlock]

/-- `StridedSliceAssignInitHelper`, whose `IsNoOpKernel` unlocks, then
    `DmlStridedSliceAssignKernel::Compute`. -/
def stridedSliceAssign (isIdentity : Bool) : List Step :=
  [.getInputTensorFromVariable, .lockShared, .unlock, .initializeOperator] ++
    (if isIdentity then [.executeInPlace]
      else [.executeOperator, .copyBufferToBuffer, .insertUavBarrier]) ++ [.unlock]

def program : UpdateOp → List Step
  | .resourceScatterAdd | .resourceScatterSub | .resourceScatterMul | .resourceScatterDiv
  | .resourceScatterMin | .resourceScatterMax => scatterUpdate
  | .resourceScatterNdAdd | .resourceScatterNdSub => scatterNdBinary
  | .resourceStridedSliceAssign isIdentity => stridedSliceAssign isIdentity

/-- What an update does at each index: nothing, or a function of the element. -/
abbrev Update (ι α : Type*) := ι → Option (α → α)

section Updates

variable {ι α : Type*}

def apply (update : Update ι α) (contents : ι → α) : ι → α :=
  fun index => ((update index).getD id) (contents index)

def DisjointIndices (update : Bool → Update ι α) : Prop :=
  ∀ index, update false index = none ∨ update true index = none

theorem apply_none {update : Update ι α} {index : ι} (none_ : update index = none)
    (contents : ι → α) : apply update contents index = contents index := by
  simp [apply, none_]

theorem DisjointIndices.apply_comm {update : Bool → Update ι α} (apart : DisjointIndices update)
    (contents : ι → α) (p : Bool) : apply (update p) (apply (update (!p)) contents) =
      apply (update true) (apply (update false) contents) := by
  cases p with
  | true => rfl
  | false =>
    funext index
    rcases apart index with none_ | none_ <;> simp [apply, none_]

theorem DisjointIndices.apply_ne {update : Bool → Update ι α} (apart : DisjointIndices update)
    {contents : ι → α} {p : Bool} (changes : apply (update (!p)) contents ≠ contents) :
    apply (update p) contents ≠ apply (update true) (apply (update false) contents) := by
  intro same
  rw [← apart.apply_comm contents p] at same
  apply changes
  funext index
  have here : (update p index).isNone ∨ (update (!p) index).isNone := by
    cases p with
    | true => simpa [or_comm] using apart index
    | false => simpa using apart index
  rcases here with none_ | none_
  · have none_ := isNone_iff_eq_none.mp none_
    have eq := congrFun same index
    rw [apply_none none_, apply_none none_] at eq
    exact eq.symm
  · exact apply_none (isNone_iff_eq_none.mp none_) contents

end Updates

/-- Which lock `LockShared` really gets from the runtime. -/
inductive LockMode where
  | shared
  | exclusive
  deriving DecidableEq

/-- The invocations are `false` and `true`. -/
structure State (ι α : Type*) where
  contents : ι → α
  intermediate : Bool → Option (ι → α)
  remaining : Bool → List Step
  holdsLock : Bool → Bool

section Steps

variable {ι α : Type*}

def initial (ops : Bool → UpdateOp) (contents : ι → α) : State ι α :=
  ⟨contents, fun _ => none, fun p => program (ops p), fun _ => false⟩

def perform (mode : LockMode) (update : Bool → Update ι α) (s : State ι α) (p : Bool) :
    Step → Option (State ι α)
  | .getInputTensorFromVariable | .initializeOperator | .copyHostToBuffer | .insertUavBarrier =>
    some s
  | .lockShared =>
    if mode = .exclusive ∧ s.holdsLock (!p) then none
    else some { s with holdsLock := Function.update s.holdsLock p true }
  | .unlock => some { s with holdsLock := Function.update s.holdsLock p false }
  | .executeOperator =>
    some { s with
      intermediate := Function.update s.intermediate p (some (apply (update p) s.contents)) }
  | .executeInPlace => some { s with contents := apply (update p) s.contents }
  | .copyBufferToBuffer =>
    (s.intermediate p).map fun result =>
      { s with contents := result, intermediate := Function.update s.intermediate p none }

def step (mode : LockMode) (update : Bool → Update ι α) (s : State ι α) (p : Bool) :
    Option (State ι α) :=
  match s.remaining p with
  | [] => none
  | first :: rest =>
    (perform mode update s p first).map fun t =>
      { t with remaining := Function.update s.remaining p rest }

def Finished (s : State ι α) : Prop := ∀ p, s.remaining p = []

def HasBoth (update : Bool → Update ι α) (before after : ι → α) : Prop :=
  after = apply (update true) (apply (update false) before)

def writes (s : State ι α) (p : Bool) : Bool :=
  match s.remaining p with
  | .executeInPlace :: _ | .copyBufferToBuffer :: _ => true
  | _ => false

/-- A step that writes to the variable is taken while the other invocation has no
    intermediate result that it will copy back later, or writes what is there. -/
def WritesAlone (update : Bool → Update ι α) (s : State ι α) (p : Bool) (_ : State ι α) : Prop :=
  writes s p = true → s.intermediate (!p) = none ∨ apply (update p) s.contents = s.contents

end Steps

/-- Before its operator is executed, with an intermediate result to copy back, and after the
    variable is written. -/
inductive Phase where
  | before
  | computed
  | after
  deriving DecidableEq

/-- The phase that the remaining steps are for; there is none if they would copy back what
    was not computed, or write twice. -/
def phase : List Step → Option Phase
  | [] => some .after
  | .copyBufferToBuffer :: rest => if phase rest = some .after then some .computed else none
  | .executeOperator :: rest => if phase rest = some .computed then some .before else none
  | .executeInPlace :: rest => if phase rest = some .after then some .before else none
  | _ :: rest => phase rest

theorem phase_program (op : UpdateOp) : phase (program op) = some .before := by
  cases op with
  | resourceStridedSliceAssign isIdentity => cases isIdentity <;> rfl
  | _ => rfl

variable {rest : List Step} {ph : Phase}

theorem phase_executeOperator (is : phase (.executeOperator :: rest) = some ph) :
    ph = .before ∧ phase rest = some .computed := by
  simp only [phase, ite_none_right_eq_some, Option.some.injEq] at is
  exact ⟨is.2.symm, is.1⟩

theorem phase_executeInPlace (is : phase (.executeInPlace :: rest) = some ph) :
    ph = .before ∧ phase rest = some .after := by
  simp only [phase, ite_none_right_eq_some, Option.some.injEq] at is
  exact ⟨is.2.symm, is.1⟩

theorem phase_copyBufferToBuffer (is : phase (.copyBufferToBuffer :: rest) = some ph) :
    ph = .computed ∧ phase rest = some .after := by
  simp only [phase, ite_none_right_eq_some, Option.some.injEq] at is
  exact ⟨is.2.symm, is.1⟩

section Runs

variable {ι α : Type*} {mode : LockMode} {update : Bool → Update ι α}

/-- What a step can do to the memory: nothing, execute the operator, execute it in place, or
    copy the intermediate result back. -/
inductive Effect (update : Bool → Update ι α) (s : State ι α) (p : Bool) (t : State ι α) : Prop where
  | none (phases : phase (t.remaining p) = phase (s.remaining p)) (silent : writes s p = false)
      (contents : t.contents = s.contents) (intermediate : t.intermediate = s.intermediate)
  | executeOperator (now : s.remaining p = .executeOperator :: t.remaining p)
      (contents : t.contents = s.contents)
      (intermediate : t.intermediate =
        Function.update s.intermediate p (some (apply (update p) s.contents)))
  | executeInPlace (now : s.remaining p = .executeInPlace :: t.remaining p)
      (contents : t.contents = apply (update p) s.contents)
      (intermediate : t.intermediate = s.intermediate)
  | copyBufferToBuffer (now : s.remaining p = .copyBufferToBuffer :: t.remaining p)
      (contents : s.intermediate p = some t.contents)
      (intermediate : t.intermediate = Function.update s.intermediate p none)

variable {s t : State ι α} {p : Bool}

theorem step_effect (taken : step mode update s p = some t) :
    t.remaining (!p) = s.remaining (!p) ∧ Effect update s p t := by
  unfold step at taken
  cases remaining : s.remaining p with
  | nil => simp [remaining] at taken
  | cons first rest =>
    simp only [remaining, map_eq_some_iff] at taken
    obtain ⟨u, performed, rfl⟩ := taken
    refine ⟨by simp, ?_⟩
    cases first with
    | getInputTensorFromVariable | initializeOperator | copyHostToBuffer | insertUavBarrier =>
      obtain rfl := some.inj performed
      exact .none (by simp [remaining, phase]) (by simp [writes, remaining]) rfl rfl
    | lockShared =>
      simp only [perform] at performed
      split at performed
      · cases performed
      · obtain rfl := some.inj performed
        exact .none (by simp [remaining, phase]) (by simp [writes, remaining]) rfl rfl
    | unlock =>
      obtain rfl := some.inj performed
      exact .none (by simp [remaining, phase]) (by simp [writes, remaining]) rfl rfl
    | executeOperator =>
      obtain rfl := some.inj performed
      exact .executeOperator (by simp [remaining]) rfl rfl
    | executeInPlace =>
      obtain rfl := some.inj performed
      exact .executeInPlace (by simp [remaining]) rfl rfl
    | copyBufferToBuffer =>
      simp only [perform, map_eq_some_iff] at performed
      obtain ⟨result, has, rfl⟩ := performed
      exact .copyBufferToBuffer (by simp [remaining]) has rfl

def written (update : Bool → Update ι α) (contents : ι → α) (phases : Bool → Phase) : ι → α :=
  let first := if phases false = .after then apply (update false) contents else contents
  if phases true = .after then apply (update true) first else first

variable {phases : Bool → Phase}

theorem written_after (disjoint : DisjointIndices update) (contents : ι → α)
    (pending : phases p ≠ .after) : written update contents (Function.update phases p .after) =
      apply (update p) (written update contents phases) := by
  cases p with
  | true => simp [written, pending]
  | false =>
    cases other : phases true with
    | after => simpa [written, pending, other] using (disjoint.apply_comm contents false).symm
    | before | computed => simp [written, pending, other]

theorem written_computed (contents : ι → α) (pending : phases p ≠ .after) :
    written update contents (Function.update phases p .computed) =
      written update contents phases := by
  cases p <;> simp [written, pending]

theorem written_pending {contents : ι → α} (pending : ∀ p, phases p ≠ .after) :
    written update contents phases = contents := by
  simp [written, pending]

/-- No update is lost so far: every intermediate result is what the operator makes of the
    contents as they are now. -/
structure Kept (update : Bool → Update ι α) (before : ι → α) (phases : Bool → Phase)
    (s : State ι α) : Prop where
  tracked : ∀ p, phase (s.remaining p) = some (phases p)
  intermediate : ∀ p, s.intermediate p =
    if phases p = .computed then some (apply (update p) s.contents) else none
  contents : s.contents = written update before phases

/-- The update of `!p` is lost: `p` will copy back, or has copied back, a result that does
    not have it. -/
structure Lost (update : Bool → Update ι α) (before : ι → α) (p : Bool) (s : State ι α) : Prop where
  changes : apply (update (!p)) before ≠ before
  other : phase (s.remaining (!p)) = some .after
  result : phase (s.remaining p) = some .computed ∧
      s.intermediate p = some (apply (update p) before) ∨
    phase (s.remaining p) = some .after ∧ s.contents = apply (update p) before

theorem kept_initial (ops : Bool → UpdateOp) (before : ι → α) :
    Kept update before (fun _ => .before) (initial ops before) where
  tracked p := phase_program (ops p)
  intermediate _ := rfl
  contents := rfl

theorem tracked_update {ph : Phase} (tracked : ∀ q, phase (s.remaining q) = some (phases q))
    (other : t.remaining (!p) = s.remaining (!p)) (now : phase (t.remaining p) = some ph)
    (q : Bool) : phase (t.remaining q) = some (Function.update phases p ph q) := by
  by_cases same : q = p
  · subst same
    simpa using now
  · obtain rfl : q = !p := Bool.eq_not_of_ne same
    rw [other, tracked, Function.update_of_ne same]

variable {before : ι → α}

theorem Kept.write (apart : DisjointIndices update) (kept : Kept update before phases s)
    (alone : s.intermediate (!p) = none ∨ apply (update p) s.contents = s.contents)
    (pending : phases p ≠ .after) (other : t.remaining (!p) = s.remaining (!p))
    (now : phase (t.remaining p) = some .after)
    (contents : t.contents = apply (update p) s.contents) (done : t.intermediate p = none)
    (untouched : t.intermediate (!p) = s.intermediate (!p)) :
    Kept update before (Function.update phases p .after) t where
  tracked := tracked_update kept.tracked other now
  contents := by rw [contents, kept.contents, written_after apart before pending]
  intermediate q := by
    by_cases same : q = p
    · subst same
      simpa using done
    · obtain rfl : q = !p := Bool.eq_not_of_ne same
      rw [untouched, Function.update_of_ne same]
      rcases alone with free | still
      · rw [free]
        have eq := kept.intermediate (!p)
        rw [free] at eq
        split at eq
        · cases eq
        · simp_all
      · rw [contents, still]
        exact kept.intermediate (!p)

theorem Kept.next (disjoint : DisjointIndices update) (kept : ∃ phases, Kept update before phases s)
    (taken : step mode update s p = some t) (alone : WritesAlone update s p t) :
    ∃ phases, Kept update before phases t := by
  obtain ⟨phases, kept⟩ := kept
  obtain ⟨other, effect⟩ := step_effect taken
  have tracked := kept.tracked p
  cases effect with
  | none same silent contents intermediate =>
    refine ⟨phases, ?_, ?_, contents.trans kept.contents⟩
    · intro q
      have now := tracked_update kept.tracked other (same.trans tracked) q
      rwa [Function.update_eq_self] at now
    · intro q
      rw [intermediate, contents]
      exact kept.intermediate q
  | executeOperator now contents intermediate =>
    rw [now] at tracked
    obtain ⟨phase_p, later⟩ := phase_executeOperator tracked
    refine ⟨Function.update phases p .computed, tracked_update kept.tracked other later, ?_, ?_⟩
    · intro q
      rw [intermediate, contents]
      by_cases same : q = p
      · subst same
        simp
      · simpa [Function.update_of_ne same] using kept.intermediate q
    · rw [contents, kept.contents, written_computed before (by simp [phase_p])]
  | executeInPlace now contents intermediate =>
    rw [now] at tracked
    obtain ⟨phase_p, later⟩ := phase_executeInPlace tracked
    have pending : phases p ≠ .after := by simp [phase_p]
    have none_ : s.intermediate p = none := by simp [kept.intermediate p, phase_p]
    exact ⟨_, kept.write disjoint (alone (by simp [writes, now])) pending other later contents
      (by rw [intermediate, none_]) (by rw [intermediate])⟩
  | copyBufferToBuffer now contents intermediate =>
    rw [now] at tracked
    obtain ⟨phase_p, later⟩ := phase_copyBufferToBuffer tracked
    have pending : phases p ≠ .after := by simp [phase_p]
    have result : t.contents = apply (update p) s.contents := by
      have computed := kept.intermediate p
      rw [contents, if_pos phase_p] at computed
      exact some.inj computed
    exact ⟨_, kept.write disjoint (alone (by simp [writes, now])) pending other later result
      (by simp [intermediate]) (by simp [intermediate])⟩

theorem Kept.lost (kept : ∃ phases, Kept update before phases s)
    (taken : step mode update s p = some t) (stale : ¬ WritesAlone update s p t) :
    Lost update before (!p) t := by
  obtain ⟨phases, kept⟩ := kept
  obtain ⟨other, effect⟩ := step_effect taken
  have tracked := kept.tracked p
  unfold WritesAlone at stale
  push Not at stale
  obtain ⟨writing, waiting, changes⟩ := stale
  have phase_other : phases (!p) = .computed := by
    by_contra idle
    exact waiting (by simp [kept.intermediate (!p), idle])
  have result : s.intermediate (!p) = some (apply (update (!p)) s.contents) := by
    rw [kept.intermediate (!p), if_pos phase_other]
  have tracked_other : phase (t.remaining (!p)) = some .computed := by
    rw [other, kept.tracked, phase_other]
  have nothing (pending : phases p ≠ .after) : s.contents = before := by
    rw [kept.contents]
    apply written_pending
    intro q
    cases p <;> cases q <;> simp_all
  cases effect with
  | none _ silent => simp [silent] at writing
  | executeOperator now => simp [writes, now] at writing
  | executeInPlace now contents intermediate =>
    rw [now] at tracked
    obtain ⟨phase_p, later⟩ := phase_executeInPlace tracked
    have start := nothing (by simp [phase_p])
    rw [start] at changes result
    exact ⟨by simpa using changes, by simpa using later,
      Or.inl ⟨tracked_other, by rw [intermediate, result]⟩⟩
  | copyBufferToBuffer now contents intermediate =>
    rw [now] at tracked
    obtain ⟨phase_p, later⟩ := phase_copyBufferToBuffer tracked
    have start := nothing (by simp [phase_p])
    rw [start] at changes result
    exact ⟨by simpa using changes, by simpa using later,
      Or.inl ⟨tracked_other, by simpa [intermediate] using result⟩⟩

theorem Effect.of_after (effect : Effect update s p t)
    (written_ : phase (s.remaining p) = some .after) :
    phase (t.remaining p) = some .after ∧ t.contents = s.contents ∧
      t.intermediate = s.intermediate := by
  cases effect with
  | none same _ contents intermediate => exact ⟨same.trans written_, contents, intermediate⟩
  | executeOperator now =>
    rw [now] at written_
    cases (phase_executeOperator written_).1
  | executeInPlace now =>
    rw [now] at written_
    cases (phase_executeInPlace written_).1
  | copyBufferToBuffer now =>
    rw [now] at written_
    cases (phase_copyBufferToBuffer written_).1

theorem Effect.of_computed (effect : Effect update s p t)
    (eq : phase (s.remaining p) = some .computed) :
    phase (t.remaining p) = some .computed ∧ t.intermediate = s.intermediate ∨
      phase (t.remaining p) = some .after ∧ s.intermediate p = some t.contents := by
  cases effect with
  | none same _ _ intermediate => exact Or.inl ⟨same.trans eq, intermediate⟩
  | executeOperator now =>
    rw [now] at eq
    cases (phase_executeOperator eq).1
  | executeInPlace now =>
    rw [now] at eq
    cases (phase_executeInPlace eq).1
  | copyBufferToBuffer now contents =>
    rw [now] at eq
    exact Or.inr ⟨(phase_copyBufferToBuffer eq).2, contents⟩

theorem Lost.next {q : Bool} (lost : Lost update before p s)
    (taken : step mode update s q = some t) : Lost update before p t := by
  obtain ⟨changes, other, result⟩ := lost
  obtain ⟨untouched, effect⟩ := step_effect taken
  by_cases same : q = p
  · subst same
    rw [← untouched] at other
    rcases result with ⟨eq, pending⟩ | ⟨copied, contents⟩
    · rcases effect.of_computed eq with ⟨still, same⟩ | ⟨later, copied⟩
      · exact ⟨changes, other, Or.inl ⟨still, by rw [same, pending]⟩⟩
      · rw [pending] at copied
        exact ⟨changes, other, Or.inr ⟨later, (some.inj copied).symm⟩⟩
    · obtain ⟨later, same, -⟩ := effect.of_after copied
      exact ⟨changes, other, Or.inr ⟨later, same.trans contents⟩⟩
  · obtain rfl : q = !p := Bool.eq_not_of_ne same
    obtain ⟨later, contents, intermediate⟩ := effect.of_after other
    rw [Bool.not_not] at untouched
    rw [← untouched, ← contents, ← intermediate] at result
    exact ⟨changes, later, result⟩

theorem Finished.after (finished : Finished s) (p : Bool) :
    phase (s.remaining p) = some .after := by
  rw [finished p]
  rfl

/-- In a complete run both updates are in the contents exactly if every write is made while
    the other invocation has no intermediate result to copy back, or changes nothing. -/
theorem runs_lose_no_update_iff (mode : LockMode) (ops : Bool → UpdateOp)
    {update : Bool → Update ι α} (disjoint : DisjointIndices update) (before : ι → α)
    {schedule : List Bool} {final : State ι α}
    (reached : run (step mode update) (initial ops before) schedule = some final)
    (finished : Finished final) : HasBoth update before final.contents ↔
      EveryStep (step mode update) (WritesAlone update) (initial ops before) schedule := by
  have keep (s : State ι α) (p : Bool) (t : State ι α)
      (kept : ∃ phases, Kept update before phases s) (taken : step mode update s p = some t)
      (alone : WritesAlone update s p t) : ∃ phases, Kept update before phases t :=
    Kept.next disjoint kept taken alone
  have breaks (s : State ι α) (p : Bool) (t : State ι α)
      (kept : ∃ phases, Kept update before phases s) (taken : step mode update s p = some t)
      (stale : ¬ WritesAlone update s p t) : ∃ p, Lost update before p t :=
    ⟨!p, Kept.lost kept taken stale⟩
  have stays (s : State ι α) (q : Bool) (t : State ι α) (lost : ∃ p, Lost update before p s)
      (taken : step mode update s q = some t) : ∃ p, Lost update before p t :=
    lost.imp fun p lost => lost.next taken
  rcases run_good_or_bad keep breaks stays ⟨_, kept_initial ops before⟩ reached with
    ⟨every, phases, kept⟩ | ⟨broken, p, lost⟩
  · have done (p : Bool) : phases p = .after :=
      some.inj ((kept.tracked p).symm.trans (finished.after p))
    refine iff_of_true ?_ every
    simp [HasBoth, kept.contents, written, done]
  · refine iff_of_false ?_ broken
    rcases lost.result with ⟨computed, -⟩ | ⟨-, contents⟩
    · rw [finished.after p] at computed
      cases computed
    · rw [HasBoth, contents]
      exact disjoint.apply_ne lost.changes

end Runs

/-- `value` is assigned at `index`. -/
def assign (index value : Nat) : Update Nat Nat :=
  fun other => if other = index then some fun _ => value else none

/-- The slices `[0:1]` and `[1:2]`, and the values 7 and 9. -/
def slices (p : Bool) : Update Nat Nat := if p then assign 1 9 else assign 0 7

theorem slices_disjoint : DisjointIndices slices := by
  intro index
  by_cases first : index = 0 <;> simp [slices, assign, first]

/-- One assignment after the other. -/
theorem stridedSliceAssign_serial : ∃ final, run (step .shared slices)
        (initial (fun _ => .resourceStridedSliceAssign false) fun _ => 0)
        (List.replicate 8 false ++ List.replicate 8 true) = some final ∧
      final.contents 0 = 7 ∧ final.contents 1 = 9 ∧ (HasBoth slices (fun _ => 0) final.contents ↔
        EveryStep (step .shared slices) (WritesAlone slices)
          (initial (fun _ => .resourceStridedSliceAssign false) fun _ => 0)
          (List.replicate 8 false ++ List.replicate 8 true)) :=
  ⟨_, rfl, rfl, rfl,
    runs_lose_no_update_iff .shared _ slices_disjoint _ rfl fun p => by cases p <;> rfl⟩

/-- Both assignments compute before either copies back: the second copy loses index 0, with
    either lock. -/
theorem stridedSliceAssign_lost : DisjointIndices slices ∧ ∀ mode, ∃ final, run (step mode slices)
          (initial (fun _ => .resourceStridedSliceAssign false) fun _ => 0)
          ([false, false, false, true, true, true] ++ [false, false, true, true] ++
            [false, false, false, true, true, true]) = some final ∧
        Finished final ∧ final.contents 0 = 0 ∧ final.contents 1 = 9 ∧
        ¬ HasBoth slices (fun _ => 0) final.contents := by
  refine ⟨slices_disjoint, fun mode => ?_⟩
  cases mode with
  | shared =>
    refine ⟨_, rfl, fun p => by cases p <;> rfl, rfl, rfl, fun both => ?_⟩
    exact absurd (congrFun both 0) (by decide)
  | exclusive =>
    refine ⟨_, rfl, fun p => by cases p <;> rfl, rfl, rfl, fun both => ?_⟩
    exact absurd (congrFun both 0) (by decide)

end TfDml.VariableUpdate
