import TfDml.Optimizer.TransposeAbandoned
import TfDml.Optimizer.GraphValues
import Mathlib.Data.List.TakeWhile

/-! # The values of the nodes

What the runtime computes is a parameter with the laws that the pass relies on: constants,
transposes, and a `FusedBatchNormGrad` that commutes with the change of layout. The nodes
that are preserved keep their values unless one of three things happens to a node that they
depend on: a candidate is abandoned with reroutes queued, a rewritten node is itself
preserved, or one rewritten node reads another one through both of their transposes.
-/

namespace TfDml.Optimizer.TransposeRemover

open Lib List Option

/-- The outputs of a node in the other layout: the first one is transposed. -/
structure Relayouted {V : Type} (transpose : List Int → V → Option V)
    (before after : List V) : Prop where
  first : ∀ value, before[0]? = some value →
    ∃ moved, transpose srcToDst value = some moved ∧ after[0]? = some moved
  others : ∀ port, port ≠ 0 → after[port]? = before[port]?

/-- What the runtime makes of the name, the operation, the attributes and the inputs of a
    node. -/
structure Semantics (V : Type) where
  eval : NodeName → String → List (String × AttrValue) → List V → Option (List V)
  constant : TensorProto → V
  transpose : List Int → V → Option V
  eval_constant : ∀ {node : NodeDef} {tensor : TensorProto} {inputs outputs : List V},
    isConstant node = true → node.getAttr "value" = some (.tensor tensor) →
    eval node.name node.op node.attr inputs = some outputs → outputs = [constant tensor]
  eval_binary : ∀ {node : NodeDef} {inputs outputs : List V}, isTranspose node = true →
    eval node.name node.op node.attr inputs = some outputs → inputs.length = 2
  eval_transpose : ∀ {node : NodeDef} {tensor : TensorProto} {perm : List Int} {value : V}
    {outputs : List V}, isTranspose node = true → perm = srcToDst ∨ perm = dstToSrc →
    isPerm tensor perm = some true →
    eval node.name node.op node.attr [value, constant tensor] = some outputs →
    ∃ moved, transpose perm value = some moved ∧ outputs = [moved]
  commutes : ∀ {node : NodeDef} {before0 before1 after0 after1 : V} {rest outputs : List V},
    isFusedBatchNormGrad node = true → node.getAttr "data_format" = some (.s "NHWC") →
    transpose dstToSrc before0 = some after0 → transpose dstToSrc before1 = some after1 →
    eval node.name node.op node.attr (after0 :: after1 :: rest) = some outputs →
    ∃ outputs', eval node.name node.op (setAttr node.attr "data_format" (.s "NCHW"))
        (before0 :: before1 :: rest) = some outputs' ∧ Relayouted transpose outputs outputs'

def Semantics.net {V : Type} (semantics : Semantics V) (graph : List NodeDef) :
    Dataflow NodeName V where
  sources name := (node? graph name).map fun node =>
    node.regularFanins.map fun fanin => (fanin.node, fanin.index)
  compute name inputs := (node? graph name).bind fun node =>
    semantics.eval node.name node.op node.attr inputs

section Conditions

variable (graph : List NodeDef) (nodesToPreserve : List NodeName)

inductive Live : NodeName → Prop
  | preserved {name : NodeName} (isPreserved : name ∈ nodesToPreserve) : Live name
  | fanin {node : NodeDef} {fanin : TensorId} (live : Live node.name) (mem : node ∈ graph)
      (reads : fanin ∈ node.regularFanins) : Live fanin.node

def OutputTranspose (name : NodeName) : Prop :=
  ∃ node ∈ graph, (∃ first second, Rewritten graph nodesToPreserve node first second) ∧
    ∃ fanout ∈ regularFanout graph ⟨node.name, 0⟩, fanout.node = name

/-- No candidate that is abandoned has rerouted a node that a preserved one depends on, no
    rewritten node is preserved, and none on which a preserved one depends reads an output
    transpose of another through its input transposes. -/
structure Harmless : Prop where
  half : ∀ node ∈ graph, ∀ first second, Candidate graph node first second →
    (∃ fanout ∈ regularFanout graph ⟨node.name, 0⟩, fanout.node ∈ nodesToPreserve) →
    ∀ fanout ∈ reroutedFanouts graph nodesToPreserve node.name,
      ∀ consumer ∈ regularFanout graph ⟨fanout.node, 0⟩, ¬ Live graph nodesToPreserve consumer.node
  notPreserved : ∀ node ∈ graph, ∀ first second,
    Rewritten graph nodesToPreserve node first second → node.name ∉ nodesToPreserve
  notChained : ∀ node ∈ graph, Live graph nodesToPreserve node.name → ∀ first second,
    Rewritten graph nodesToPreserve node first second → ∀ transpose,
    transpose = first ∨ transpose = second → ∀ source,
    transpose.regularFanins[0]? = some source → ¬ OutputTranspose graph nodesToPreserve source.node

end Conditions

section Inputs

variable {V : Type} {semantics : Semantics V} {graph : List NodeDef}

theorem layout_outputs {P : NodeName → List V → Prop} {node : NodeDef} {perm : List Int}
    {arguments outputs : List V} (isLayout : perm = srcToDst ∨ perm = dstToSrc)
    (layout : isLayoutTranspose graph perm node = some true)
    (read : Reads (fun src values => (semantics.net graph).Evaluates src values ∧
      P src values) node arguments)
    (eq : semantics.eval node.name node.op node.attr arguments = some outputs) :
    ∃ value moved, node.regularFanins.length = 2 ∧ arguments[0]? = some value ∧
      semantics.transpose perm value = some moved ∧ outputs = [moved] := by
  obtain ⟨transposes, permNode, permTensor, isFanin, constant, isValue, permutes⟩ :=
    isLayoutTranspose_eq_true.mp layout
  obtain ⟨fanin, isFirst, isPermNode⟩ := faninNode_eq_some.mp isFanin
  obtain ⟨argument, values, isArgument, ⟨evaluated, -⟩, isValues⟩ := read.each 1 fanin isFirst
  obtain ⟨permNode', _, isPermNode', -, made⟩ := evaluates_reads evaluated
  obtain rfl := some.inj (isPermNode.symm.trans isPermNode')
  obtain rfl := semantics.eval_constant constant isValue made
  have isConstant : argument = semantics.constant permTensor := by
    obtain ⟨_, same⟩ := List.getElem?_eq_some_iff.mp isValues
    simpa using same.symm
  have two := semantics.eval_binary transposes eq
  obtain ⟨value, second, rfl⟩ := length_eq_two.mp two
  obtain rfl : second = argument := some.inj isArgument
  subst isConstant
  obtain ⟨moved, isMoved, rfl⟩ := semantics.eval_transpose transposes isLayout permutes eq
  exact ⟨value, moved, read.length_eq, rfl, isMoved, rfl⟩

end Inputs

variable {node : NodeDef}

theorem grad_not_transpose (isGrad : isFusedBatchNormGrad node = true) :
    isTranspose node = false ∧ isConstant node = false := by
  simp only [isFusedBatchNormGrad, Bool.or_eq_true, decide_eq_true_eq] at isGrad
  rcases isGrad with (isOp | isOp) | isOp <;> simp [isTranspose, isConstant, isOp]

section Values

variable {V : Type} {semantics : Semantics V} {view : MutableGraphView}
  {nodesToPreserve : List NodeName} {output : List NodeDef}

variable (view nodesToPreserve) in
def IsRewritten (name : NodeName) : Prop :=
  ∃ node ∈ view.graph, node.name = name ∧
    ∃ first second, Rewritten view.graph nodesToPreserve node first second

variable (semantics view nodesToPreserve output) in
/-- What the optimized graph keeps of the outputs of a node. An output transpose is passed by,
    and so is an input transpose that reads none. -/
structure Kept (name : NodeName) (outputs : List V) : Prop where
  value : ¬ OutputTranspose view.graph nodesToPreserve name →
    ∃ outputs', (semantics.net output).Evaluates name outputs' ∧
      (IsRewritten view nodesToPreserve name → Relayouted semantics.transpose outputs outputs') ∧
      (¬ IsRewritten view nodesToPreserve name → outputs' = outputs)
  pastOutput : ∀ node ∈ view.graph,
    (∃ first second, Rewritten view.graph nodesToPreserve node first second) →
    ∀ fanout ∈ regularFanout view.graph ⟨node.name, 0⟩, fanout.node = name →
    ∃ value values, outputs = [value] ∧ (semantics.net output).Evaluates node.name values ∧
      values[0]? = some value
  pastInput : ∀ transpose, node? view.graph name = some transpose →
    isLayoutTranspose view.graph dstToSrc transpose = some true →
    (∀ source, transpose.regularFanins[0]? = some source →
      ¬ OutputTranspose view.graph nodesToPreserve source.node) →
    ∃ source before after values, transpose.regularFanins[0]? = some source ∧
      (semantics.net output).Evaluates source.node values ∧ values[source.index]? = some before ∧
      semantics.transpose dstToSrc before = some after ∧ outputs = [after]

variable {node first second : NodeDef}

theorem IsRewritten.of_node (mem : node ∈ view.graph)
    (new : Rewritten view.graph nodesToPreserve node first second) :
    IsRewritten view nodesToPreserve node.name :=
  ⟨node, mem, rfl, first, second, new⟩

theorem not_outputTranspose (mem : node ∈ view.graph)
    (isGrad : isFusedBatchNormGrad node = true) :
    ¬ OutputTranspose view.graph nodesToPreserve node.name := by
  rintro ⟨other, -, ⟨first, second, new⟩, fanout, isFanout, named⟩
  obtain ⟨transpose, isTranspose, layout⟩ := new.fanouts fanout isFanout
  rw [named, node?_of_mem view.unique mem, Option.some.injEq] at isTranspose
  obtain ⟨transposes, -⟩ := isLayoutTranspose_eq_true.mp layout
  rw [← isTranspose, (grad_not_transpose isGrad).1] at transposes
  cases transposes

variable {name : NodeName} {outputs : List V}

theorem Kept.port (kept : Kept semantics view nodesToPreserve output name outputs)
    (notOutput : ¬ OutputTranspose view.graph nodesToPreserve name) {port : Nat}
    (later : IsRewritten view nodesToPreserve name → port ≠ 0) {value : V}
    (isValue : outputs[port]? = some value) :
    ∃ values, (semantics.net output).Evaluates name values ∧ values[port]? = some value := by
  obtain ⟨outputs', evaluated, relayouted, same⟩ := kept.value notOutput
  refine ⟨outputs', evaluated, ?_⟩
  by_cases new : IsRewritten view nodesToPreserve name
  · rw [(relayouted new).others port (later new), isValue]
  · rw [same new, isValue]

theorem IsRewritten.reader (new : IsRewritten view nodesToPreserve name) {input : FaninView}
    (reads : regularFanin view.graph input = some ⟨name, 0⟩) :
    OutputTranspose view.graph nodesToPreserve input.node ∧ ∃ transpose,
      node? view.graph input.node = some transpose ∧
      isLayoutTranspose view.graph srcToDst transpose = some true := by
  obtain ⟨node, mem, rfl, first, second, isRewritten⟩ := new
  have isFanout := (mem_regularFanout view.unique).mpr reads
  exact ⟨⟨node, mem, ⟨first, second, isRewritten⟩, input, isFanout, rfl⟩,
    isRewritten.fanouts input isFanout⟩

theorem regularFanin_of_node {graph : List NodeDef} (isNode : node? graph name = some node)
    (index : Nat) : regularFanin graph ⟨name, index⟩ = node.regularFanins[index]? := by
  rw [regularFanin, isNode, bind_some]

variable {index : Nat} {fanin : TensorId}

theorem Live.of_read (live : Live view.graph nodesToPreserve name)
    (isNode : node? view.graph name = some node)
    (isFanin : node.regularFanins[index]? = some fanin) :
    Live view.graph nodesToPreserve fanin.node := by
  obtain ⟨mem, rfl⟩ := node?_some isNode
  exact .fanin live mem (mem_of_getElem? isFanin)

abbrev KeptIfLive (semantics : Semantics V) (view : MutableGraphView)
    (nodesToPreserve : List NodeName) (output : List NodeDef) (name : NodeName)
    (outputs : List V) : Prop :=
  (semantics.net view.graph).Evaluates name outputs ∧
    (Live view.graph nodesToPreserve name → Kept semantics view nodesToPreserve output name outputs)

variable {arguments : List V}

theorem pastOutput_step (isNode : node? view.graph name = some node)
    (live : Live view.graph nodesToPreserve name)
    (read : Reads (KeptIfLive semantics view nodesToPreserve output) node arguments)
    (eq : semantics.eval node.name node.op node.attr arguments = some outputs)
    {grad : NodeDef} (mem : grad ∈ view.graph)
    (new : Rewritten view.graph nodesToPreserve grad first second) {fanout : FaninView}
    (isFanout : fanout ∈ regularFanout view.graph ⟨grad.name, 0⟩) (named : fanout.node = name) :
    ∃ value values, outputs = [value] ∧ (semantics.net output).Evaluates grad.name values ∧
      values[0]? = some value := by
  obtain ⟨transpose, isTranspose, layout⟩ := new.fanouts fanout isFanout
  obtain rfl := some.inj (isNode.symm.trans (named ▸ isTranspose))
  obtain ⟨value, moved, two, isArgument, isMoved, rfl⟩ := layout_outputs (Or.inl rfl) layout read eq
  have reads := (mem_regularFanout view.unique).mp isFanout
  rw [regularFanin, named, isNode, bind_some] at reads
  -- the second input is the permutation, so the node is the first
  have isFirst : fanout.index = 0 := by
    have lt : fanout.index < 2 := two ▸ (List.getElem?_eq_some_iff.mp reads).1
    obtain isFirst | isSecond : fanout.index = 0 ∨ fanout.index = 1 := by omega
    · exact isFirst
    · obtain ⟨-, permNode, -, isPerm, constant, -⟩ := isLayoutTranspose_eq_true.mp layout
      obtain ⟨fanin, got, isPermNode⟩ := faninNode_eq_some.mp isPerm
      rw [← isSecond, reads, Option.some.injEq] at got
      subst got
      rw [node?_of_mem view.unique mem, Option.some.injEq] at isPermNode
      rw [← isPermNode, (grad_not_transpose new.isGrad).2] at constant
      cases constant
  rw [isFirst] at reads
  obtain ⟨argument, values, isArgument', ⟨-, kept⟩, isValue⟩ := read.each 0 _ reads
  obtain rfl := some.inj (isArgument.symm.trans isArgument')
  obtain ⟨outputs', evaluated, relayouted, -⟩ := (kept (live.of_read isNode reads)).value
    (not_outputTranspose mem new.isGrad)
  obtain ⟨moved', isMoved', isValue'⟩ := (relayouted (.of_node mem new)).first _ isValue
  obtain rfl := some.inj (isMoved.symm.trans isMoved')
  exact ⟨moved, outputs', rfl, evaluated, isValue'⟩

theorem pastInput_step (isNode : node? view.graph name = some node)
    (live : Live view.graph nodesToPreserve name)
    (read : Reads (KeptIfLive semantics view nodesToPreserve output) node arguments)
    (eq : semantics.eval node.name node.op node.attr arguments = some outputs)
    (layout : isLayoutTranspose view.graph dstToSrc node = some true)
    (notOutput : ∀ source, node.regularFanins[0]? = some source →
      ¬ OutputTranspose view.graph nodesToPreserve source.node) :
    ∃ source pre after values, node.regularFanins[0]? = some source ∧
      (semantics.net output).Evaluates source.node values ∧ values[source.index]? = some pre ∧
      semantics.transpose dstToSrc pre = some after ∧ outputs = [after] := by
  obtain ⟨pre, after, two, isArgument, isMoved, rfl⟩ := layout_outputs (Or.inr rfl) layout read eq
  have lt : 0 < node.regularFanins.length := by omega
  obtain ⟨source, isFanin⟩ : ∃ source, node.regularFanins[0]? = some source :=
    ⟨_, getElem?_eq_getElem lt⟩
  obtain ⟨argument, values, isArgument', ⟨-, kept⟩, isValue⟩ := read.each 0 source isFanin
  obtain rfl := some.inj (isArgument.symm.trans isArgument')
  have later (new : IsRewritten view nodesToPreserve source.node) : source.index ≠ 0 := by
    intro zero
    have reads : regularFanin view.graph ⟨name, 0⟩ = some ⟨source.node, 0⟩ := by
      rw [regularFanin_of_node isNode, isFanin, ← zero]
    obtain ⟨-, transpose, isTranspose, layout'⟩ := new.reader reads
    exact not_both_layouts isNode layout isTranspose layout'
  obtain ⟨values', evaluated, isValue'⟩ := (kept (live.of_read isNode isFanin)).port
    (notOutput source isFanin) later isValue
  exact ⟨source, pre, after, values', isFanin, evaluated, isValue', isMoved, rfl⟩

theorem Rewritten.rerouted (new : Rewritten view.graph nodesToPreserve node first second) :
    reroutedFanouts view.graph nodesToPreserve node.name =
      regularFanout view.graph ⟨node.name, 0⟩ := by
  rw [reroutedFanouts, takeWhile_eq_self_iff]
  intro fanout isFanout
  simpa using new.notPreserved fanout isFanout

theorem input_step (opt : optimize view nodesToPreserve = some (some output))
    (harmless : Harmless view.graph nodesToPreserve) (isNode : node? view.graph name = some node)
    (live : Live view.graph nodesToPreserve name)
    (notOutput : ¬ OutputTranspose view.graph nodesToPreserve name) {argument : V} {values : List V}
    (own : IsRewritten view nodesToPreserve name → 2 ≤ index)
    (isFanin : node.regularFanins[index]? = some fanin)
    (kept : Kept semantics view nodesToPreserve output fanin.node values)
    (isValue : values[fanin.index]? = some argument) :
    ∃ new values', regularFanin output ⟨name, index⟩ = some new ∧
      (semantics.net output).Evaluates new.node values' ∧ values'[new.index]? = some argument := by
  have reads : regularFanin view.graph ⟨name, index⟩ = some fanin :=
    (regularFanin_of_node isNode index).trans isFanin
  rcases optimize_fanin opt ⟨name, index⟩ with ⟨new, last, now⟩ | ⟨untouched, now⟩
  · obtain ⟨other, isOther, update⟩ := last.update
    cases update with
    | @reroute first second fanout _ candidate isRerouted consumes =>
      have isConsumed := (mem_regularFanout view.unique).mp consumes
      obtain rfl := some.inj (reads.symm.trans isConsumed)
      have isFanout := (takeWhile_sublist _).subset isRerouted
      by_cases rewritten : ∃ first second, Rewritten view.graph nodesToPreserve other first second
      · obtain ⟨value, values', rfl, evaluated, isValue'⟩ :=
          kept.pastOutput other isOther rewritten fanout isFanout rfl
        obtain rfl := some.inj isValue
        exact ⟨_, values', now, evaluated, isValue'⟩
      · -- a candidate that is not rewritten has a fanout to preserve
        have preserves : ∃ fanout ∈ regularFanout view.graph ⟨other.name, 0⟩,
            fanout.node ∈ nodesToPreserve := by
          by_contra none
          exact rewritten ⟨first, second, candidate,
            fun fanout isFanout preserved => none ⟨fanout, isFanout, preserved⟩⟩
        exact absurd live (harmless.half other isOther first second candidate preserves fanout
          isRerouted _ consumes)
    | first rewritten => exact absurd (own (.of_node isOther rewritten)) (by decide)
    | second rewritten => exact absurd (own (.of_node isOther rewritten)) (by decide)
  · have notOutput' : ¬ OutputTranspose view.graph nodesToPreserve fanin.node := by
      rintro ⟨other, isOther, ⟨first, second, rewritten⟩, fanout, isFanout, named⟩
      obtain ⟨value, values', rfl, -⟩ :=
        kept.pastOutput other isOther ⟨first, second, rewritten⟩ fanout isFanout named
      have zero : fanin.index = 0 := by
        have lt := (List.getElem?_eq_some_iff.mp isValue).1
        simpa using lt
      have consumes : ⟨name, index⟩ ∈ regularFanout view.graph ⟨fanout.node, 0⟩ := by
        rw [mem_regularFanout view.unique, reads, named, ← zero]
      exact untouched other isOther _
        (.reroute rewritten.toCandidate (rewritten.rerouted ▸ isFanout) consumes)
    have later (rewritten : IsRewritten view nodesToPreserve fanin.node) : fanin.index ≠ 0 := by
      intro zero
      exact notOutput (rewritten.reader (by rw [reads, ← zero])).1
    obtain ⟨values', evaluated, isValue'⟩ := kept.port notOutput' later isValue
    exact ⟨fanin, values', now.trans reads, evaluated, isValue'⟩

theorem Update.own_input {other : NodeDef} (mem : node ∈ view.graph)
    (new : Rewritten view.graph nodesToPreserve node first second) (lt : index < 2)
    (isOther : other ∈ view.graph)
    (update : Update view.graph nodesToPreserve other ⟨node.name, index⟩ fanin) : other = node := by
  have named (same : other.name = node.name) : other = node :=
    inj_on_of_nodup_map view.unique isOther mem same
  generalize input : (⟨node.name, index⟩ : FaninView) = target at update
  cases update with
  | reroute cand isRerouted reads =>
    obtain ⟨old, transpose, isOld, -, isTranspose, layout⟩ := new.toCandidate.fanin_layout mem lt
    obtain ⟨-, transpose', isTranspose', layout'⟩ := cand.rerouted_layout isRerouted
    rw [mem_regularFanout view.unique, ← input, isOld, Option.some.injEq] at reads
    subst reads
    exact (not_both_layouts isTranspose layout isTranspose' layout').elim
  | first => exact named (congrArg FaninView.node input).symm
  | second => exact named (congrArg FaninView.node input).symm

theorem rewritten_input_step (opt : optimize view nodesToPreserve = some (some output))
    (harmless : Harmless view.graph nodesToPreserve) (mem : node ∈ view.graph)
    (live : Live view.graph nodesToPreserve node.name)
    (rewritten : Rewritten view.graph nodesToPreserve node first second)
    (read : Reads (KeptIfLive semantics view nodesToPreserve output) node arguments)
    (lt : index < 2) : ∃ argument pre new values, arguments[index]? = some argument ∧
      regularFanin output ⟨node.name, index⟩ = some new ∧
      (semantics.net output).Evaluates new.node values ∧ values[new.index]? = some pre ∧
      semantics.transpose dstToSrc pre = some argument := by
  have isNode := node?_of_mem view.unique mem
  obtain ⟨fanin, transpose, reads, isFanin, isTranspose, layout⟩ :=
    rewritten.toCandidate.fanin_layout mem lt
  rw [regularFanin_of_node isNode] at reads
  obtain ⟨argument, values, isArgument, ⟨-, kept⟩, isValue⟩ := read.each index fanin reads
  have isInput : transpose = first ∨ transpose = second := by
    obtain rfl | rfl : index = 0 ∨ index = 1 := by omega
    · exact Or.inl (some.inj (isFanin.symm.trans rewritten.fanin0))
    · exact Or.inr (some.inj (isFanin.symm.trans rewritten.fanin1))
  obtain ⟨source, pre, after, values', isSource, evaluated, isBefore, moves, rfl⟩ :=
    (kept (live.of_read isNode reads)).pastInput transpose isTranspose layout
      (harmless.notChained node mem live first second rewritten transpose isInput)
  have same : after = argument := by
    obtain ⟨_, same⟩ := List.getElem?_eq_some_iff.mp isValue
    simpa using same
  have update : Update view.graph nodesToPreserve node ⟨node.name, index⟩ source := by
    obtain rfl | rfl : index = 0 ∨ index = 1 := by omega
    · obtain rfl := some.inj (isFanin.symm.trans rewritten.fanin0)
      exact .first rewritten isSource
    · obtain rfl := some.inj (isFanin.symm.trans rewritten.fanin1)
      exact .second rewritten isSource
  have now : regularFanin output ⟨node.name, index⟩ = some source := by
    rcases optimize_fanin opt ⟨node.name, index⟩ with ⟨new, last, now⟩ | ⟨untouched, -⟩
    · obtain ⟨other, isOther, update'⟩ := last.update
      obtain rfl := update'.own_input mem rewritten lt isOther
      rw [now, update.unique mem update']
    · exact absurd update (untouched node mem source)
  exact ⟨argument, pre, source, values', isArgument, now, evaluated, isBefore, same ▸ moves⟩

theorem reads_of_fanins {updated : NodeDef} (isUpdated : node? output name = some updated)
    (lens : updated.regularFanins.length = arguments.length)
    (each : ∀ index argument, arguments[index]? = some argument → ∃ new values,
      regularFanin output ⟨name, index⟩ = some new ∧
        (semantics.net output).Evaluates new.node values ∧ values[new.index]? = some argument) :
    Reads (semantics.net output).Evaluates updated arguments := by
  refine ⟨lens, fun index fanin isFanin => ?_⟩
  have lt : index < arguments.length := lens ▸ (List.getElem?_eq_some_iff.mp isFanin).1
  have isArgument := getElem?_eq_getElem lt
  obtain ⟨new, values, now, evaluated, isValue⟩ := each index _ isArgument
  rw [regularFanin_of_node isUpdated, isFanin, Option.some.injEq] at now
  subst now
  exact ⟨_, values, isArgument, evaluated, isValue⟩

theorem value_step (opt : optimize view nodesToPreserve = some (some output))
    (harmless : Harmless view.graph nodesToPreserve) (mem : node ∈ view.graph)
    (live : Live view.graph nodesToPreserve node.name)
    (read : Reads (KeptIfLive semantics view nodesToPreserve output) node arguments)
    (eq : semantics.eval node.name node.op node.attr arguments = some outputs)
    (notOutput : ¬ OutputTranspose view.graph nodesToPreserve node.name) :
    ∃ outputs', (semantics.net output).Evaluates node.name outputs' ∧
      (IsRewritten view nodesToPreserve node.name →
        Relayouted semantics.transpose outputs outputs') ∧
      (¬ IsRewritten view nodesToPreserve node.name → outputs' = outputs) := by
  have isNode := node?_of_mem view.unique mem
  obtain ⟨updated, isUpdated, sameOp, -, sameLength, changed, unchanged⟩ := optimize_node opt mem
  obtain ⟨-, sameName⟩ := node?_some isUpdated
  have input {index : Nat} {argument : V} (isArgument : arguments[index]? = some argument)
      (own : IsRewritten view nodesToPreserve node.name → 2 ≤ index) : ∃ new values,
      regularFanin output ⟨node.name, index⟩ = some new ∧
        (semantics.net output).Evaluates new.node values ∧ values[new.index]? = some argument := by
    have lt : index < node.regularFanins.length :=
      read.length_eq ▸ (List.getElem?_eq_some_iff.mp isArgument).1
    have isFanin := getElem?_eq_getElem lt
    obtain ⟨argument', values, isArgument', ⟨-, kept⟩, isValue⟩ := read.each index _ isFanin
    obtain rfl := some.inj (isArgument.symm.trans isArgument')
    exact input_step opt harmless isNode live notOutput own isFanin
      (kept (live.of_read isNode isFanin)) isValue
  by_cases rewritten : ∃ first second, Rewritten view.graph nodesToPreserve node first second
  · have isRewritten : IsRewritten view nodesToPreserve node.name := ⟨node, mem, rfl, rewritten⟩
    obtain ⟨first, second, rewrites⟩ := rewritten
    obtain ⟨after0, pre0, new0, values0, isAfter0, now0, evaluated0, isBefore0, moves0⟩ :=
      rewritten_input_step opt harmless mem live rewrites read two_pos
    obtain ⟨after1, pre1, new1, values1, isAfter1, now1, evaluated1, isBefore1, moves1⟩ :=
      rewritten_input_step opt harmless mem live rewrites read Nat.one_lt_two
    obtain ⟨rest, rfl⟩ : ∃ rest, arguments = after0 :: after1 :: rest := by
      obtain _ | ⟨first, _ | ⟨second, rest⟩⟩ := arguments
      · cases isAfter0
      · cases isAfter1
      · obtain rfl := some.inj isAfter0
        obtain rfl := some.inj isAfter1
        exact ⟨rest, rfl⟩
    obtain ⟨outputs', eq', relayouted⟩ :=
      semantics.commutes rewrites.isGrad rewrites.format moves0 moves1 eq
    have reads : Reads (semantics.net output).Evaluates updated (pre0 :: pre1 :: rest) := by
      refine reads_of_fanins isUpdated (sameLength.trans read.length_eq) ?_
      intro index argument isArgument
      obtain _ | _ | index := index
      · obtain rfl := some.inj isArgument
        exact ⟨new0, values0, now0, evaluated0, isBefore0⟩
      · obtain rfl := some.inj isArgument
        exact ⟨new1, values1, now1, evaluated1, isBefore1⟩
      · exact input isArgument fun _ => Nat.le_add_left 2 index
    refine ⟨outputs', evaluates_of_reads isUpdated reads ?_, fun _ => relayouted,
      fun kept => absurd isRewritten kept⟩
    rw [sameName, sameOp, changed ⟨first, second, rewrites⟩, eq']
  · have kept : ¬ IsRewritten view nodesToPreserve node.name := by
      rintro ⟨other, isOther, named, rewrites⟩
      obtain rfl := inj_on_of_nodup_map view.unique isOther mem named
      exact rewritten rewrites
    refine ⟨outputs, evaluates_of_reads isUpdated (reads_of_fanins isUpdated
      (sameLength.trans read.length_eq) fun index argument isArgument =>
        input isArgument fun isRewritten => absurd isRewritten kept) ?_,
      fun isRewritten => absurd isRewritten kept, fun _ => rfl⟩
    rw [sameName, sameOp, unchanged rewritten, eq]

theorem kept_of_evaluates (opt : optimize view nodesToPreserve = some (some output))
    (harmless : Harmless view.graph nodesToPreserve)
    (evaluated : (semantics.net view.graph).Evaluates name outputs)
    (live : Live view.graph nodesToPreserve name) :
    Kept semantics view nodesToPreserve output name outputs := by
  revert live
  refine evaluates_induction (P := fun name outputs => Live view.graph nodesToPreserve name →
    Kept semantics view nodesToPreserve output name outputs) ?_ evaluated
  intro name node arguments outputs isNode read eq live
  refine ⟨fun notOutput => ?_, fun grad mem ⟨_, _, new⟩ fanout isFanout named => ?_,
    fun transpose isTranspose layout notOutput => ?_⟩
  · obtain ⟨mem, rfl⟩ := node?_some isNode
    exact value_step opt harmless mem live read eq notOutput
  · exact pastOutput_step isNode live read eq mem new isFanout named
  · obtain rfl := some.inj (isNode.symm.trans isTranspose)
    exact pastInput_step isNode live read eq layout notOutput

end Values

/-- Every node to preserve has the value that it had, if the rewrites are harmless. -/
theorem preserved_values {V : Type} (semantics : Semantics V) (view : MutableGraphView)
    (nodesToPreserve : List NodeName) (output : List NodeDef)
    (optimized : optimize view nodesToPreserve = some (some output))
    (harmless : Harmless view.graph nodesToPreserve) (name : NodeName)
    (isPreserved : name ∈ nodesToPreserve) (outputs : List V)
    (evaluated : (semantics.net view.graph).Evaluates name outputs) :
    (semantics.net output).Evaluates name outputs := by
  have kept := kept_of_evaluates optimized harmless evaluated (.preserved isPreserved)
  have notOutput : ¬ OutputTranspose view.graph nodesToPreserve name := by
    rintro ⟨node, -, ⟨first, second, new⟩, fanout, isFanout, rfl⟩
    exact new.notPreserved fanout isFanout isPreserved
  have notRewritten : ¬ IsRewritten view nodesToPreserve name := by
    rintro ⟨node, mem, rfl, first, second, new⟩
    exact harmless.notPreserved node mem first second new isPreserved
  obtain ⟨outputs', evaluated', -, same⟩ := kept.value notOutput
  exact same notRewritten ▸ evaluated'

/-- The shape of a tensor, or a constant. -/
inductive ShapeValue where
  | tensor (dims : List Int)
  | constant (tensor : TensorProto)
  deriving DecidableEq

def transposeShape (perm : List Int) : ShapeValue → Option ShapeValue
  | .tensor dims =>
    if dims.length = 4 then some (.tensor (perm.map fun axis => dims.getD axis.toNat 0))
    else none
  | .constant _ => none

/-- The channels of a shape, in the format of the node. -/
def channels (attr : List (String × AttrValue)) (dims : List Int) : Int :=
  if attr.lookup "data_format" = some (.s "NCHW") then dims.getD 1 0 else dims.getD 3 0

/-- The gradients of the input, the scale and the offset. -/
def evalGradShape (attr : List (String × AttrValue)) : List ShapeValue → Option (List ShapeValue)
  | .tensor gradient :: .tensor input :: _ =>
    if gradient.length = 4 ∧ input.length = 4 then
      some [.tensor input, .tensor [channels attr input], .tensor [channels attr input]]
    else none
  | _ => none

def evalTransposeShape : List ShapeValue → Option (List ShapeValue)
  | [value, .constant permTensor] =>
    if isPerm permTensor srcToDst = some true then (transposeShape srcToDst value).map ([·])
    else if isPerm permTensor dstToSrc = some true then
      (transposeShape dstToSrc value).map ([·])
    else none
  | _ => none

/-- The shapes that a node gives; all that is fed is one image of three channels. -/
def evalShape (op : String) (attr : List (String × AttrValue)) (inputs : List ShapeValue) :
    Option (List ShapeValue) :=
  if op = "Const" then
    match attr.lookup "value" with
    | some (.tensor tensor) => some [.constant tensor]
    | _ => none
  else if op = "Transpose" then evalTransposeShape inputs
  else if op = "FusedBatchNormGrad" ∨ op = "FusedBatchNormGradV2" ∨
      op = "FusedBatchNormGradV3" then evalGradShape attr inputs
  else if op = "Placeholder" then some [.tensor [1, 3, 4, 5]]
  else some inputs

theorem transposeShape_some {perm : List Int} {value moved : ShapeValue}
    (isMoved : transposeShape perm value = some moved) : ∃ a b c d, value = .tensor [a, b, c, d] ∧
      moved = .tensor (perm.map fun axis => [a, b, c, d].getD axis.toNat 0) := by
  cases value with
  | constant => cases isMoved
  | tensor dims =>
    simp only [transposeShape, ite_none_right_eq_some, Option.some.injEq] at isMoved
    obtain ⟨four, rfl⟩ := isMoved
    obtain ⟨a, b, c, d, rfl⟩ := length_eq_four.mp four
    exact ⟨a, b, c, d, rfl, rfl⟩

theorem evalGradShape_commutes {attr : List (String × AttrValue)}
    {pre0 pre1 after0 after1 : ShapeValue} {rest outputs : List ShapeValue}
    (format : attr.lookup "data_format" = some (.s "NHWC"))
    (moves0 : transposeShape dstToSrc pre0 = some after0)
    (moves1 : transposeShape dstToSrc pre1 = some after1)
    (eq : evalGradShape attr (after0 :: after1 :: rest) = some outputs) :
    ∃ outputs', evalGradShape (setAttr attr "data_format" (.s "NCHW"))
        (pre0 :: pre1 :: rest) = some outputs' ∧ Relayouted transposeShape outputs outputs' := by
  obtain ⟨a, b, c, d, rfl, rfl⟩ := transposeShape_some moves0
  obtain ⟨a', b', c', d', rfl, rfl⟩ := transposeShape_some moves1
  simp only [permutations.2] at eq
  obtain rfl := some.inj eq
  refine ⟨_, rfl, ⟨?_, ?_⟩⟩
  · rintro value isValue
    obtain rfl := some.inj isValue
    refine ⟨.tensor [a', b', c', d'], ?_, rfl⟩
    simp [transposeShape, permutations.1]
  · intro port later
    have channel : channels (setAttr attr "data_format" (.s "NCHW")) [a', b', c', d'] =
        channels attr [a', c', d', b'] := by
      simp [channels, setAttr, format]
    obtain _ | _ | _ | port := port
    · exact absurd rfl later
    · exact congrArg (fun n => some (ShapeValue.tensor [n])) channel
    · exact congrArg (fun n => some (ShapeValue.tensor [n])) channel
    · rfl

theorem evalShape_transpose {op : String} (isOp : op = "Transpose")
    (attr : List (String × AttrValue)) (inputs : List ShapeValue) :
    evalShape op attr inputs = evalTransposeShape inputs := by
  subst isOp
  rfl

theorem evalShape_grad (isGrad : isFusedBatchNormGrad node = true)
    (attr : List (String × AttrValue)) (inputs : List ShapeValue) :
    evalShape node.op attr inputs = evalGradShape attr inputs := by
  simp only [isFusedBatchNormGrad, Bool.or_eq_true, decide_eq_true_eq] at isGrad
  rcases isGrad with (isOp | isOp) | isOp
  · rw [isOp]
    rfl
  · rw [isOp]
    rfl
  · rw [isOp]
    rfl

def shapes : Semantics ShapeValue where
  eval _ op attr inputs := evalShape op attr inputs
  constant := .constant
  transpose := transposeShape
  eval_constant := by
    intro node tensor inputs outputs constant isValue computed
    rw [evalShape, if_pos (of_decide_eq_true constant),
      show node.attr.lookup "value" = some (.tensor tensor) from isValue] at computed
    exact (some.inj computed).symm
  eval_binary := by
    intro node inputs outputs transposes computed
    rw [evalShape_transpose (of_decide_eq_true transposes)] at computed
    unfold evalTransposeShape at computed
    split at computed
    · rfl
    · cases computed
  eval_transpose := by
    intro node tensor perm value outputs transposes isLayout permutes computed
    rw [evalShape_transpose (of_decide_eq_true transposes)] at computed
    simp only [evalTransposeShape] at computed
    rcases isLayout with rfl | rfl
    · rw [if_pos permutes, map_eq_some_iff] at computed
      obtain ⟨moved, isMoved, rfl⟩ := computed
      exact ⟨moved, isMoved, rfl⟩
    · have other : isPerm tensor srcToDst ≠ some true := by
        intro same
        have equal := isPerm_inj permutes same
        rw [permutations.1, permutations.2] at equal
        exact absurd equal (by decide)
      rw [if_neg other, if_pos permutes, map_eq_some_iff] at computed
      obtain ⟨moved, isMoved, rfl⟩ := computed
      exact ⟨moved, isMoved, rfl⟩
  commutes := by
    intro node before0 before1 after0 after1 rest outputs isGrad format moves0 moves1 computed
    rw [evalShape_grad isGrad] at computed
    obtain ⟨outputs', computed', relayouted⟩ := evalGradShape_commutes format moves0 moves1 computed
    exact ⟨outputs', (evalShape_grad isGrad _ _).trans computed', relayouted⟩

def rewrittenGraph : List NodeDef :=
  gradGraph.map fun node =>
    if node.name = "grad" then
      { node with
        regularFanins := [⟨"x", 0⟩, ⟨"x", 0⟩]
        attr := [("data_format", .s "NCHW")] }
    else if node.op = "Identity" then { node with regularFanins := [⟨"grad", 0⟩] }
    else node

/-- The nodes that read the transposes keep their values if they are preserved. -/
theorem readers_keep_shapes : (shapes.net gradGraph).Evaluates "use0" [.tensor [1, 3, 4, 5]] ∧
      (shapes.net rewrittenGraph).Evaluates "use0" [.tensor [1, 3, 4, 5]] := by
  have eq : (shapes.net gradGraph).outputs 5 "use0" = some [.tensor [1, 3, 4, 5]] := by
    decide +kernel
  have evaluated := Dataflow.evaluates_of_outputs eq
  have opt : optimize gradView ["use0", "use1"] = some (some rewrittenGraph) := by decide +kernel
  have fanouts : ∀ fanout ∈ regularFanout gradGraph ⟨"grad", 0⟩,
      fanout.node ∉ ["use0", "use1"] ∧ fanout.node ≠ "x" := by decide
  refine ⟨evaluated, preserved_values shapes gradView _ _ opt ⟨?_, ?_, ?_⟩ "use0"
    (by decide) _ evaluated⟩
  · rintro node mem first second cand ⟨fanout, isFanout, preserved⟩
    obtain rfl := gradGraph_only mem cand.isGrad
    exact absurd preserved (fanouts fanout isFanout).1
  · intro node mem first second new
    obtain rfl := gradGraph_only mem new.isGrad
    decide
  · intro node mem live first second new transpose isInput src isSource
    obtain rfl := gradGraph_only mem new.isGrad
    have isTranspose : transpose = inputTranspose := by
      rcases isInput with rfl | rfl
      · exact some.inj new.fanin0.symm
      · exact some.inj new.fanin1.symm
    subst isTranspose
    obtain rfl := some.inj isSource
    rintro ⟨other, isOther, ⟨_, _, new'⟩, fanout, isFanout, named⟩
    obtain rfl := gradGraph_only isOther new'.isGrad
    exact (fanouts fanout isFanout).2 named

/-- A preserved node that is rewritten gives the other layout. -/
theorem preservedGrad_differs : ¬ ∀ (V : Type) (semantics : Semantics V)
    (view : MutableGraphView) (nodesToPreserve : List NodeName) (output : List NodeDef),
    optimize view nodesToPreserve = some (some output) → ∀ name ∈ nodesToPreserve, ∀ outputs,
    (semantics.net view.graph).Evaluates name outputs →
      (semantics.net output).Evaluates name outputs := by
  intro claim
  have opt : optimize gradView ["grad"] = some (some rewrittenGraph) := by decide +kernel
  have pre : (shapes.net gradGraph).outputs 3 "grad" =
      some [.tensor [1, 4, 5, 3], .tensor [3], .tensor [3]] := by decide +kernel
  have after : (shapes.net rewrittenGraph).outputs 3 "grad" =
      some [.tensor [1, 3, 4, 5], .tensor [3], .tensor [3]] := by decide +kernel
  have kept := claim _ shapes gradView _ _ opt "grad" (by decide) _
    (Dataflow.evaluates_of_outputs pre)
  have same := kept.unique (Dataflow.evaluates_of_outputs after)
  exact absurd same (by decide)

end TfDml.Optimizer.TransposeRemover
