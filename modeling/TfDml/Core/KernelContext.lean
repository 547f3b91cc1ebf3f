import TfDml.Core.OpKernelContext

/-! # The output tensors of a kernel context

The constructor of `DmlKernelContext` collects a tensor for every output of the
kernel: the memory of a variable, if the output is forwarded, or else what the
runtime forwards or allocates. It returns at the first request that fails.
-/

namespace TfDml.KernelContext

open List

/-- `output_refs_forwarding`: the input whose memory an output shares, if any. -/
abbrev OutputRefsForwarding := List (Option Nat)

namespace OutputRefsForwarding

/-- `i < output_refs_forwarding.size() && output_refs_forwarding[i].has_value()`, with the
    value. -/
def forwardedInput (table : OutputRefsForwarding) (i : Nat) : Option Nat := table[i]?.join

/-- Forwarding refs does not apply to the ops on resource tensors. -/
def maybeForwardRefInputToRefOutput (isResourceOp : Bool) (table : OutputRefsForwarding)
    (input output : Nat) : OutputRefsForwarding :=
  if isResourceOp then table
  else
    let resized :=
      if table.length ≤ output then
        table ++ List.replicate (output + 1 - table.length) none
      else table
    resized.set output (some input)

end OutputRefsForwarding

/-- What the runtime answers to the requests of a kernel context. A variable is asked for by
    the index of the input that refers to it. -/
structure RuntimeContext where
  numInputs : Nat
  getInputTensorFromVariable : Nat → Except Status Tensor
  forwardInputOrAllocateOutput : List Nat → Nat → TensorShape → Except Status Tensor
  allocateOutput : Nat → TensorShape → Except Status Tensor

/-- What the constructor leaves: the tensors it has pushed, the status of the op and the
    `(input, output)` pairs of `forward_ref_input_to_ref_output`. -/
structure DmlKernelContext where
  outputTensors : List Tensor
  status : Status
  forwardedRefs : List (Nat × Nat)

/-- The answer to the request for one output. The variable that is asked for is that of
    input `i`, the index of the output. -/
def answer (opCtx : RuntimeContext) (table : OutputRefsForwarding)
    (supportsInPlaceExecution : Bool) (i : Nat) (shape : TensorShape) : Except Status Tensor :=
  match table.forwardedInput i with
  | some _ => opCtx.getInputTensorFromVariable i
  | none =>
    if supportsInPlaceExecution then
      opCtx.forwardInputOrAllocateOutput (List.range opCtx.numInputs) i shape
    else opCtx.allocateOutput i shape

/-- The loop over the outputs, from output `i` on. -/
def collect (opCtx : RuntimeContext) (table : OutputRefsForwarding)
    (supportsInPlaceExecution : Bool) : Nat → List TensorShape → DmlKernelContext
  | _, [] => ⟨[], .ok, []⟩
  | i, shape :: rest =>
    let refs := (table.forwardedInput i).toList.map fun input => (input, i)
    match answer opCtx table supportsInPlaceExecution i shape with
    | .error status => ⟨[], status, refs⟩
    | .ok tensor =>
      let later := collect opCtx table supportsInPlaceExecution (i + 1) rest
      ⟨tensor :: later.outputTensors, later.status, refs ++ later.forwardedRefs⟩

def DmlKernelContext.create (opCtx : RuntimeContext) (outputShapes : List TensorShape)
    (table : OutputRefsForwarding) (supportsInPlaceExecution : Bool) : DmlKernelContext :=
  collect opCtx table supportsInPlaceExecution 0 outputShapes

/-- A kernel writes its output `i`, where buffers have the contents `memory`. -/
def DmlKernelContext.writeOutput {Contents : Type*} (ctx : DmlKernelContext) (i : Nat)
    (contents : Contents) (memory : BufferId → Contents) : BufferId → Contents :=
  match ctx.outputTensors[i]? with
  | some tensor => Function.update memory tensor.buffer contents
  | none => memory

section Collect

variable {opCtx : RuntimeContext} {table : OutputRefsForwarding} {inPlace : Bool}

variable {shapes : List TensorShape} {i k : Nat}

theorem collect_get {tensor : Tensor}
    (exposed : (collect opCtx table inPlace i shapes).outputTensors[k]? = some tensor) :
    ∃ shape, shapes[k]? = some shape ∧ answer opCtx table inPlace (i + k) shape = .ok tensor := by
  induction shapes generalizing i k with
  | nil => simp [collect] at exposed
  | cons shape rest ih =>
    cases answered : answer opCtx table inPlace i shape with
    | error status => simp [collect, answered] at exposed
    | ok first =>
      simp only [collect, answered] at exposed
      cases k with
      | zero =>
        simp only [getElem?_cons_zero, Option.some.injEq] at exposed
        exact ⟨shape, rfl, exposed ▸ answered⟩
      | succ k =>
        obtain ⟨later, got, ok⟩ := ih exposed
        exact ⟨later, got, by rwa [Nat.add_right_comm, add_assoc] at ok⟩

theorem collect_stop {shape : TensorShape}
    (left : shapes[(collect opCtx table inPlace i shapes).outputTensors.length]? = some shape) :
    answer opCtx table inPlace
        (i + (collect opCtx table inPlace i shapes).outputTensors.length) shape =
      .error (collect opCtx table inPlace i shapes).status := by
  induction shapes generalizing i with
  | nil => simp [collect] at left
  | cons first rest ih =>
    cases answered : answer opCtx table inPlace i first with
    | error status =>
      simp only [collect, answered, length_nil, getElem?_cons_zero, Option.some.injEq] at left
      simpa [collect, answered] using left ▸ answered
    | ok tensor =>
      simp only [collect, answered, length_cons, getElem?_cons_succ] at left
      have later := ih left
      simp only [collect, answered, length_cons]
      rwa [Nat.add_right_comm, add_assoc] at later

theorem le_collect_length (lt : k ≤ shapes.length)
    (answered : ∀ m shape, m < k → shapes[m]? = some shape →
      ∃ tensor, answer opCtx table inPlace (i + m) shape = .ok tensor) :
    k ≤ (collect opCtx table inPlace i shapes).outputTensors.length := by
  induction shapes generalizing i k with
  | nil => exact lt
  | cons first rest ih =>
    cases k with
    | zero => exact Nat.zero_le _
    | succ k =>
      obtain ⟨tensor, ok⟩ := answered 0 first (Nat.succ_pos k) rfl
      simp only [add_zero] at ok
      simp only [collect, ok, length_cons, Nat.succ_le_succ_iff]
      apply ih (Nat.le_of_succ_le_succ lt)
      intro m shape pre got
      obtain ⟨later, ok⟩ := answered (m + 1) shape (Nat.succ_lt_succ pre) got
      exact ⟨later, by rwa [Nat.add_right_comm, add_assoc]⟩

end Collect

/-- Each forwarded output is the variable of the input that it is forwarded from: its tensor,
    the error where there is none, and what a kernel updates when it writes the output. -/
structure ExposesVariables (opCtx : RuntimeContext) (table : OutputRefsForwarding)
    (outputCount : Nat) (ctx : DmlKernelContext) : Prop where
  exposed : ∀ i j tensor, table.forwardedInput i = some j → ctx.outputTensors[i]? = some tensor →
    opCtx.getInputTensorFromVariable j = .ok tensor
  stopped : ∀ j, ctx.outputTensors.length < outputCount →
    table.forwardedInput ctx.outputTensors.length = some j →
    opCtx.getInputTensorFromVariable j = .error ctx.status
  written : ∀ i j target, table.forwardedInput i = some j → i < ctx.outputTensors.length →
    opCtx.getInputTensorFromVariable j = .ok target →
    ∀ (Contents : Type) (memory : BufferId → Contents) (contents : Contents) (buffer : BufferId),
      ctx.writeOutput i contents memory buffer =
        if buffer = target.buffer then contents else memory buffer

/-- The inputs `i` and `j` of every forwarded pair name one variable, for every output `i` that
    the constructor gets to. -/
def SameVariables (opCtx : RuntimeContext) (table : OutputRefsForwarding) (inPlace : Bool)
    (shapes : List TensorShape) : Prop :=
  ∀ i j, i < shapes.length → table.forwardedInput i = some j →
    (∀ m shape, m < i → shapes[m]? = some shape →
      ∃ tensor, answer opCtx table inPlace m shape = .ok tensor) →
    opCtx.getInputTensorFromVariable i = opCtx.getInputTensorFromVariable j

section Exposed

variable {opCtx : RuntimeContext} {table : OutputRefsForwarding} {inPlace : Bool}
  {shapes : List TensorShape}

variable {i : Nat} {shape : TensorShape}

theorem answer_forwarded {j : Nat} (forwarded : table.forwardedInput i = some j) :
    answer opCtx table inPlace i shape = opCtx.getInputTensorFromVariable i := by
  simp only [answer, forwarded]

theorem create_answer (got : shapes[i]? = some shape)
    (run : i ≤ (DmlKernelContext.create opCtx shapes table inPlace).outputTensors.length) :
    (∃ tensor, (DmlKernelContext.create opCtx shapes table inPlace).outputTensors[i]? =
        some tensor ∧ answer opCtx table inPlace i shape = .ok tensor) ∨
      i = (DmlKernelContext.create opCtx shapes table inPlace).outputTensors.length ∧
        answer opCtx table inPlace i shape =
          .error (DmlKernelContext.create opCtx shapes table inPlace).status := by
  rcases Nat.lt_or_eq_of_le run with pre | here
  · have exposed := getElem?_eq_getElem pre
    obtain ⟨shape', got', ok⟩ := collect_get exposed
    obtain rfl := Option.some.inj (got.symm.trans got')
    rw [zero_add] at ok
    exact Or.inl ⟨_, exposed, ok⟩
  · have left : shapes[(collect opCtx table inPlace 0 shapes).outputTensors.length]? =
        some shape := here ▸ got
    have stopped := collect_stop left
    rw [zero_add] at stopped
    exact Or.inr ⟨here, here ▸ stopped⟩

theorem reached_of_answered (lt : i ≤ shapes.length)
    (answered : ∀ m shape, m < i → shapes[m]? = some shape →
      ∃ tensor, answer opCtx table inPlace m shape = .ok tensor) :
    i ≤ (DmlKernelContext.create opCtx shapes table inPlace).outputTensors.length := by
  apply le_collect_length lt
  intro m shape pre got
  rw [zero_add]
  exact answered m shape pre got

theorem answered_of_reached
    (run : i ≤ (DmlKernelContext.create opCtx shapes table inPlace).outputTensors.length)
    (m : Nat) (shape : TensorShape) (pre : m < i) (got : shapes[m]? = some shape) :
    ∃ tensor, answer opCtx table inPlace m shape = .ok tensor := by
  have earlier := lt_of_lt_of_le pre run
  rcases create_answer got (Nat.le_of_lt earlier) with ⟨tensor, -, ok⟩ | ⟨here, -⟩
  · exact ⟨tensor, ok⟩
  · exact absurd here (Nat.ne_of_lt earlier)

/-- The forwarded outputs are the variables they are asked to be exactly if the index of the
    output names the same variable as the index of the input. -/
theorem exposesVariables_iff (opCtx : RuntimeContext) (table : OutputRefsForwarding)
    (inPlace : Bool) (shapes : List TensorShape) : ExposesVariables opCtx table shapes.length
        (DmlKernelContext.create opCtx shapes table inPlace) ↔
      SameVariables opCtx table inPlace shapes := by
  constructor
  · intro exposes i j lt forwarded answered
    have run := reached_of_answered (by omega : i ≤ shapes.length) answered
    rcases create_answer (getElem?_eq_getElem lt) run with
      ⟨tensor, exposed, ok⟩ | ⟨here, error⟩
    · rw [answer_forwarded forwarded] at ok
      rw [ok, exposes.exposed i j tensor forwarded exposed]
    · rw [answer_forwarded forwarded] at error
      rw [error, exposes.stopped j (here ▸ lt) (here ▸ forwarded)]
  · intro same
    have exposed : ∀ i j tensor, table.forwardedInput i = some j →
        (DmlKernelContext.create opCtx shapes table inPlace).outputTensors[i]? = some tensor →
        opCtx.getInputTensorFromVariable j = .ok tensor := by
      intro i j tensor forwarded exposed
      obtain ⟨shape, got, ok⟩ := collect_get exposed
      rw [zero_add, answer_forwarded forwarded] at ok
      have run := (List.getElem?_eq_some_iff.mp exposed).1
      have lt := (List.getElem?_eq_some_iff.mp got).1
      rw [← same i j lt forwarded (answered_of_reached (Nat.le_of_lt run)), ok]
    refine ⟨exposed, ?_, ?_⟩
    · intro j lt forwarded
      rcases create_answer (getElem?_eq_getElem lt) (le_refl _) with
        ⟨tensor, got, -⟩ | ⟨-, error⟩
      · exact absurd (List.getElem?_eq_some_iff.mp got).1 (Nat.lt_irrefl _)
      · rw [answer_forwarded forwarded] at error
        rw [← same _ j lt forwarded (answered_of_reached (le_refl _)), error]
    · intro i j target forwarded lt got Contents memory contents buffer
      have tensor := getElem?_eq_getElem lt
      have variable_ := exposed i j _ forwarded tensor
      obtain rfl := Except.ok.inj (variable_.symm.trans got)
      simp only [DmlKernelContext.writeOutput, tensor, Function.update_apply]

end Exposed

def twoVariables : RuntimeContext where
  numInputs := 2
  getInputTensorFromVariable := fun input => .ok ⟨input, [2], .float⟩
  forwardInputOrAllocateOutput := fun _ _ shape => .ok ⟨7, shape, .float⟩
  allocateOutput := fun _ shape => .ok ⟨7, shape, .float⟩

/-- The output that is forwarded from the second input is the variable of the first. -/
theorem secondInput_exposesFirst : ¬ ExposesVariables twoVariables
      (OutputRefsForwarding.maybeForwardRefInputToRefOutput false [] 1 0) 1
      (DmlKernelContext.create twoVariables [[2]]
        (OutputRefsForwarding.maybeForwardRefInputToRefOutput false [] 1 0) false) := by
  intro exposes
  have variable_ := exposes.exposed 0 1 ⟨0, [2], .float⟩ (by decide) (by decide)
  exact absurd (Except.ok.inj variable_) (by decide)

end TfDml.KernelContext
