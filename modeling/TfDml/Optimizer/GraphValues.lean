import TfDml.Optimizer.GraphView
import TfDml.Lib.Dataflow

/-! # The values of a graph

A graph computes as a network: each node makes its outputs of the outputs that its regular
fanins name. What the runtime makes of a node is a parameter.
-/

namespace TfDml.Optimizer

open Lib

/-- What the runtime makes of the name, the operation, the attributes and the inputs of a
    node. -/
abbrev Evaluation (V : Type) :=
  NodeName → String → List (String × AttrValue) → List V → Option (List V)

def graphNet {V : Type} (eval : Evaluation V) (graph : List NodeDef) : Dataflow NodeName V where
  sources name := (node? graph name).map fun node =>
    node.regularFanins.map fun fanin => (fanin.node, fanin.index)
  compute name inputs := (node? graph name).bind fun node =>
    eval node.name node.op node.attr inputs

section Inputs

variable {V : Type} {eval : Evaluation V} {graph : List NodeDef}

/-- The arguments of a node, each an output that satisfies `P`. -/
structure Reads (P : NodeName → List V → Prop) (node : NodeDef) (arguments : List V) : Prop where
  length_eq : node.regularFanins.length = arguments.length
  each : ∀ (index : Nat) (fanin : TensorId), node.regularFanins[index]? = some fanin →
    ∃ argument values, arguments[index]? = some argument ∧ P fanin.node values ∧
      values[fanin.index]? = some argument

variable {P : NodeName → List V → Prop} {node : NodeDef} {arguments : List V}

theorem reads_iff :
    Reads P node arguments ↔ List.Forall₂ (fun src argument => ∃ values, P src.1 values ∧
      values[src.2]? = some argument)
      (node.regularFanins.map fun fanin => (fanin.node, fanin.index)) arguments := by
  rw [List.forall₂_map_left_iff, List.forall₂_iff_get]
  constructor
  · rintro ⟨lens, each⟩
    refine ⟨lens, fun index lt lt' => ?_⟩
    obtain ⟨argument, values, isArgument, holds, read⟩ := each index _ (List.getElem?_eq_getElem lt)
    obtain ⟨_, rfl⟩ := List.getElem?_eq_some_iff.mp isArgument
    exact ⟨values, holds, read⟩
  · rintro ⟨lens, each⟩
    refine ⟨lens, fun index fanin isFanin => ?_⟩
    obtain ⟨lt, rfl⟩ := List.getElem?_eq_some_iff.mp isFanin
    obtain ⟨values, holds, read⟩ := each index lt (lens ▸ lt)
    exact ⟨_, values, List.getElem?_eq_getElem (lens ▸ lt), holds, read⟩

theorem Reads.imp {Q : NodeName → List V → Prop} (read : Reads P node arguments)
    (implies : ∀ fanin ∈ node.regularFanins, ∀ values, P fanin.node values →
      Q fanin.node values) : Reads Q node arguments := by
  refine ⟨read.length_eq, fun index fanin isFanin => ?_⟩
  obtain ⟨argument, values, isArgument, holds, isValue⟩ := read.each index fanin isFanin
  exact ⟨argument, values, isArgument,
    implies fanin (List.mem_of_getElem? isFanin) values holds, isValue⟩

variable {name : NodeName}

theorem sources_eq_some {sources : List (NodeName × Nat)}
    (isNode : (graphNet eval graph).sources name = some sources) :
    ∃ node, node? graph name = some node ∧
      node.regularFanins.map (fun fanin => (fanin.node, fanin.index)) = sources :=
  Option.map_eq_some_iff.mp isNode

variable {outputs : List V}

theorem evaluates_of_reads (isNode : node? graph name = some node)
    (read : Reads (graphNet eval graph).Evaluates node arguments)
    (eq : eval node.name node.op node.attr arguments = some outputs) :
    (graphNet eval graph).Evaluates name outputs :=
  .of_arguments (by simp [graphNet, isNode]) (reads_iff.mp read)
    (by simp [graphNet, isNode, eq])

theorem evaluates_reads (evaluated : (graphNet eval graph).Evaluates name outputs) :
    ∃ node arguments, node? graph name = some node ∧
      Reads (graphNet eval graph).Evaluates node arguments ∧
      eval node.name node.op node.attr arguments = some outputs := by
  obtain ⟨sources, arguments, isSources, read, eq⟩ := evaluated.arguments
  obtain ⟨node, isNode, rfl⟩ := sources_eq_some isSources
  simp only [graphNet, isNode, Option.bind_some] at eq
  exact ⟨node, arguments, isNode, reads_iff.mpr read, eq⟩

theorem evaluates_induction (step : ∀ {name node arguments outputs}, node? graph name = some node →
      Reads (fun src values => (graphNet eval graph).Evaluates src values ∧
        P src values) node arguments →
      eval node.name node.op node.attr arguments = some outputs → P name outputs)
    (evaluated : (graphNet eval graph).Evaluates name outputs) : P name outputs := by
  refine evaluated.arguments_induction fun isSources read eq => ?_
  obtain ⟨node, isNode, rfl⟩ := sources_eq_some isSources
  simp only [graphNet, isNode, Option.bind_some] at eq
  refine step isNode (reads_iff.mpr (read.imp ?_)) eq
  rintro src argument ⟨values, evaluated, holds, isArgument⟩
  exact ⟨values, ⟨evaluated, holds⟩, isArgument⟩

end Inputs

end TfDml.Optimizer
