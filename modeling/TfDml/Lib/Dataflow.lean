import TfDml.Lib.Run

/-! # Evaluation of dataflow graphs

The nodes of a graph compute lists of outputs from outputs of other nodes. A node has a
value when its inputs have, so a node on a cycle has none.
-/

namespace TfDml.Lib

open List

variable {ι V : Type*}

/-- What each node reads, if there is such a node, and what it computes from that. -/
structure Dataflow (ι V : Type*) where
  sources : ι → Option (List (ι × Nat))
  compute : ι → List V → Option (List V)

namespace Dataflow

variable {net : Dataflow ι V}

inductive Evaluates (net : Dataflow ι V) : ι → List V → Prop
  | node {name : ι} {sources : List (ι × Nat)} {outputsOf : ι → List V}
      {arguments outputs : List V} (isNode : net.sources name = some sources)
      (evaluated : ∀ source ∈ sources, Evaluates net source.1 (outputsOf source.1))
      (read : List.Forall₂ (fun source argument => (outputsOf source.1)[source.2]? = some argument)
        sources arguments)
      (computed : net.compute name arguments = some outputs) : Evaluates net name outputs

theorem Evaluates.unique {name : ι} {first second : List V} (evaluated : net.Evaluates name first)
    (evaluated' : net.Evaluates name second) : first = second := by
  induction evaluated generalizing second with
  | @node name sources outputsOf arguments outs isNode _ read eq ih =>
    cases evaluated' with
    | @node _ sources' outputsOf' arguments' _ isNode' evaluated read' eq' =>
      obtain rfl := Option.some.inj (isNode.symm.trans isNode')
      have same : arguments = arguments' := by
        refine ext_getElem (read.length_eq.symm.trans read'.length_eq) fun i lt _ => ?_
        have small : i < sources.length := read.length_eq ▸ lt
        have first := forall₂_iff_get.mp read |>.2 i small lt
        have second := forall₂_iff_get.mp read' |>.2 i small (read'.length_eq ▸ small)
        have mem : sources[i] ∈ sources := getElem_mem small
        rw [get_eq_getElem, ih _ mem (evaluated _ mem)] at first
        exact Option.some.inj (first.symm.trans second)
      subst same
      exact Option.some.inj (eq.symm.trans eq')

theorem Evaluates.of_arguments {name : ι} {sources : List (ι × Nat)} {arguments outputs : List V}
    (isNode : net.sources name = some sources)
    (read : List.Forall₂ (fun src argument => ∃ values, net.Evaluates src.1 values ∧
      values[src.2]? = some argument) sources arguments)
    (eq : net.compute name arguments = some outputs) : net.Evaluates name outputs := by
  classical
  let outputsOf (src : ι) : List V :=
    if known : ∃ values, net.Evaluates src values then known.choose else []
  have chosen {src : ι} {values : List V} (evaluated : net.Evaluates src values) :
      outputsOf src = values := by
    have known : ∃ values, net.Evaluates src values := ⟨values, evaluated⟩
    exact (dif_pos known).trans (known.choose_spec.unique evaluated)
  refine @Evaluates.node _ _ net name sources outputsOf arguments outputs isNode
    (fun src mem => ?_) (read.imp ?_) eq
  · obtain ⟨i, lt, rfl⟩ := getElem_of_mem mem
    obtain ⟨values, evaluated, -⟩ := forall₂_iff_get.mp read |>.2 i lt
      (read.length_eq ▸ lt)
    exact chosen evaluated ▸ evaluated
  · rintro src argument ⟨values, evaluated, isArgument⟩
    rw [chosen evaluated, isArgument]

theorem Evaluates.arguments_induction {P : ι → List V → Prop}
    (step : ∀ {name : ι} {sources : List (ι × Nat)} {arguments outputs : List V},
      net.sources name = some sources →
      List.Forall₂ (fun src argument => ∃ values, net.Evaluates src.1 values ∧
        P src.1 values ∧ values[src.2]? = some argument) sources arguments →
      net.compute name arguments = some outputs → P name outputs)
    {name : ι} {outputs : List V} (evaluated : net.Evaluates name outputs) : P name outputs := by
  induction evaluated with
  | @node name sources outputsOf arguments outputs isNode evaluated read eq ih =>
    refine step isNode (forall₂_iff_get.mpr ⟨read.length_eq, fun i lt lt' => ?_⟩)
      eq
    have mem : sources[i] ∈ sources := getElem_mem lt
    exact ⟨_, evaluated _ mem, ih _ mem, forall₂_iff_get.mp read |>.2 i lt lt'⟩

theorem Evaluates.arguments {name : ι} {outputs : List V}
    (evaluated : net.Evaluates name outputs) :
    ∃ sources arguments, net.sources name = some sources ∧
      List.Forall₂ (fun src argument => ∃ values, net.Evaluates src.1 values ∧
        values[src.2]? = some argument) sources arguments ∧
      net.compute name arguments = some outputs := by
  cases evaluated with
  | @node _ sources outputsOf arguments _ isNode evaluated read eq =>
    refine ⟨sources, arguments, isNode, ?_, eq⟩
    refine forall₂_iff_get.mpr ⟨read.length_eq, fun i lt lt' => ?_⟩
    exact ⟨_, evaluated _ (getElem_mem lt), forall₂_iff_get.mp read |>.2 i lt lt'⟩

/-- The outputs of a node, for nodes that are no deeper than the fuel. -/
def outputs (net : Dataflow ι V) : Nat → ι → Option (List V)
  | 0, _ => none
  | fuel + 1, name =>
    (net.sources name).bind fun sources =>
      (sources.mapM fun source => (net.outputs fuel source.1).bind (·[source.2]?)).bind
        (net.compute name)

theorem evaluates_of_outputs {fuel : Nat} {name : ι} {values : List V}
    (eq : net.outputs fuel name = some values) : net.Evaluates name values := by
  induction fuel generalizing name values with
  | zero => cases eq
  | succ fuel ih =>
    simp only [outputs, Option.bind_eq_some_iff] at eq
    obtain ⟨sources, isNode, arguments, mapped, result⟩ := eq
    refine .of_arguments isNode ((forall₂_of_mapM mapped).imp fun source argument read => ?_)
      result
    obtain ⟨values, evaluated, isArgument⟩ := Option.bind_eq_some_iff.mp read
    exact ⟨values, ih evaluated, isArgument⟩

end Dataflow

end TfDml.Lib
