import TfDml.Optimizer.TransposeRemover

/-! # Candidates that are abandoned

The reroutes of a candidate are queued before its remaining fanouts are looked at, and they
stay in the shared mutation if one of these must be preserved. A candidate that is not
rewritten keeps its wiring exactly if nothing was queued before the abandonment and nobody
else's updates reach its neighbours.
-/

namespace TfDml.Optimizer.TransposeRemover

/-- The inputs of a node and the inputs that read it are the same in two graphs. -/
structure WiredAsBefore (before after : List NodeDef) (name : NodeName) : Prop where
  fanins : ∀ index, regularFanin after ⟨name, index⟩ = regularFanin before ⟨name, index⟩
  fanouts : ∀ port input,
    input ∈ regularFanout after ⟨name, port⟩ ↔ input ∈ regularFanout before ⟨name, port⟩
  controls : (node? after name).map NodeDef.controllingFanins =
    (node? before name).map NodeDef.controllingFanins

/-- The node itself, its inputs and its fanouts. -/
def Neighbour (graph : List NodeDef) (node : NodeDef) (name : NodeName) : Prop :=
  name = node.name ∨ (∃ fanin ∈ node.regularFanins, fanin.node = name) ∨
    ∃ port, ∃ input ∈ regularFanout graph ⟨node.name, port⟩, input.node = name

/-- The node and its neighbours are wired as before, and the node has its attributes. -/
structure AsBefore (before after : List NodeDef) (node : NodeDef) : Prop where
  wired : ∀ name, Neighbour before node name → WiredAsBefore before after name
  attr : (node? after node.name).map NodeDef.attr = some node.attr

/-- A `FusedBatchNormGrad` that is not rewritten, for whatever reason. -/
structure Abandoned (graph : List NodeDef) (nodesToPreserve : List NodeName)
    (node : NodeDef) : Prop where
  isGrad : isFusedBatchNormGrad node = true
  notRewritten : ¬ ∃ first second, Rewritten graph nodesToPreserve node first second

/-- Nothing is queued for the candidate before it is abandoned, and the updates that other
    candidates queue have no end at it or at a neighbour. Where several of them queue the
    same input, only the last counts for its new end. -/
structure Undisturbed (graph : List NodeDef) (nodesToPreserve : List NodeName)
    (node : NodeDef) : Prop where
  own : ∀ first second, Candidate graph node first second →
    ∀ fanout ∈ reroutedFanouts graph nodesToPreserve node.name,
      regularFanout graph ⟨fanout.node, 0⟩ = []
  others : ∀ other ∈ graph, other ≠ node → ∀ input old fanin,
    Update graph nodesToPreserve other input fanin → regularFanin graph input = some old →
      ¬ Neighbour graph node input.node ∧ ¬ Neighbour graph node old.node ∧
        (LastUpdate graph nodesToPreserve graph input fanin → ¬ Neighbour graph node fanin.node)

section Wiring

variable {view : MutableGraphView} {nodesToPreserve : List NodeName} {output : List NodeDef}
  {node : NodeDef}

theorem Undisturbed.no_update (undisturbed : Undisturbed view.graph nodesToPreserve node)
    (abandoned : Abandoned view.graph nodesToPreserve node) {input : FaninView}
    {fanin : TensorId} : ¬ Update view.graph nodesToPreserve node input fanin := by
  intro update
  cases update with
  | reroute cand isRerouted reads =>
    rw [undisturbed.own _ _ cand _ isRerouted] at reads
    exact List.not_mem_nil reads
  | first new => exact abandoned.notRewritten ⟨_, _, new⟩
  | second new => exact abandoned.notRewritten ⟨_, _, new⟩

theorem Undisturbed.fanin_cases (undisturbed : Undisturbed view.graph nodesToPreserve node)
    (abandoned : Abandoned view.graph nodesToPreserve node)
    (opt : optimize view nodesToPreserve = some (some output)) (input : FaninView) :
    regularFanin output input = regularFanin view.graph input ∨ ∃ old fanin,
      regularFanin view.graph input = some old ∧ regularFanin output input = some fanin ∧
      ¬ Neighbour view.graph node input.node ∧ ¬ Neighbour view.graph node old.node ∧
      ¬ Neighbour view.graph node fanin.node := by
  rcases optimize_fanin opt input with ⟨fanin, last, now⟩ | ⟨-, same⟩
  · obtain ⟨other, isOther, update⟩ := last.update
    obtain ⟨old, isOld, -⟩ := update.moves isOther
    have differs : other ≠ node := by
      rintro rfl
      exact undisturbed.no_update abandoned update
    obtain ⟨far, farOld, farNew⟩ :=
      undisturbed.others other isOther differs input old fanin update isOld
    exact Or.inr ⟨old, fanin, isOld, now, far, farOld, farNew last⟩
  · exact Or.inl same

theorem Update.moved (opt : optimize view nodesToPreserve = some (some output))
    {other : NodeDef} (isOther : other ∈ view.graph) {input : FaninView} {old fanin : TensorId}
    (update : Update view.graph nodesToPreserve other input fanin)
    (isOld : regularFanin view.graph input = some old) :
    ∃ new, LastUpdate view.graph nodesToPreserve view.graph input new ∧
      regularFanin output input = some new ∧ new.node ≠ old.node := by
  rcases optimize_fanin opt input with ⟨new, last, now⟩ | ⟨untouched, -⟩
  · obtain ⟨by', isBy, update'⟩ := last.update
    obtain ⟨old', isOld', differs⟩ := update'.moves isBy
    obtain rfl := Option.some.inj (isOld.symm.trans isOld')
    exact ⟨new, last, now, differs⟩
  · exact absurd update (untouched other isOther fanin)

theorem mem_regularFanout_output (opt : optimize view nodesToPreserve = some (some output))
    {id : TensorId} {input : FaninView} :
    input ∈ regularFanout output id ↔ regularFanin output input = some id :=
  mem_regularFanout (optimize_names opt ▸ view.unique)

theorem Undisturbed.asBefore (undisturbed : Undisturbed view.graph nodesToPreserve node)
    (mem : node ∈ view.graph) (abandoned : Abandoned view.graph nodesToPreserve node)
    (opt : optimize view nodesToPreserve = some (some output)) :
    AsBefore view.graph output node := by
  refine ⟨fun name near => ⟨fun index => ?_, fun port input => ?_, ?_⟩, ?_⟩
  · rcases undisturbed.fanin_cases abandoned opt ⟨name, index⟩ with
      same | ⟨_, _, _, _, far, _⟩
    · exact same
    · exact absurd near far
  · rw [mem_regularFanout_output opt, mem_regularFanout view.unique]
    rcases undisturbed.fanin_cases abandoned opt input with
      same | ⟨old, fanin, isOld, now, -, farOld, farNew⟩
    · rw [same]
    · rw [isOld, now]
      refine iff_of_false (fun isName => farNew ?_) (fun isName => farOld ?_)
      · rwa [Option.some.inj isName]
      · rwa [Option.some.inj isName]
  · obtain ⟨mutation, -, rfl⟩ := optimize_eq_some opt
    rw [node?_updated, Option.map_map]
    rfl
  · obtain ⟨updated, isUpdated, -, -, -, -, kept⟩ := optimize_node opt mem
    rw [isUpdated, Option.map_some, kept abandoned.notRewritten]

theorem AsBefore.undisturbed (asBefore : AsBefore view.graph output node)
    (opt : optimize view nodesToPreserve = some (some output)) (mem : node ∈ view.graph) :
    Undisturbed view.graph nodesToPreserve node := by
  -- an input that moved was neither at a neighbour nor read one, and reads none now
  have moved {other : NodeDef} (isOther : other ∈ view.graph) {input : FaninView}
      {old fanin : TensorId} (update : Update view.graph nodesToPreserve other input fanin)
      (isOld : regularFanin view.graph input = some old) :
      ¬ Neighbour view.graph node input.node ∧ ¬ Neighbour view.graph node old.node ∧
        (LastUpdate view.graph nodesToPreserve view.graph input fanin →
          ¬ Neighbour view.graph node fanin.node) := by
    obtain ⟨new, last, now, differs⟩ := update.moved opt isOther isOld
    refine ⟨fun near => ?_, fun near => ?_, fun last' near => ?_⟩
    · have same := (asBefore.wired _ near).fanins input.index
      rw [now, isOld] at same
      exact differs (congrArg TensorId.node (Option.some.inj same))
    · have reads := ((asBefore.wired _ near).fanouts old.index input).mpr
        ((mem_regularFanout view.unique).mpr isOld)
      rw [mem_regularFanout_output opt, now] at reads
      exact differs (congrArg TensorId.node (Option.some.inj reads))
    · obtain rfl := last.unique last'
      have reads := ((asBefore.wired _ near).fanouts new.index input).mp
        ((mem_regularFanout_output opt).mpr now)
      rw [mem_regularFanout view.unique, isOld] at reads
      exact differs (congrArg TensorId.node (Option.some.inj reads)).symm
  refine ⟨fun first snd cand fanout isRerouted => ?_,
    fun other isOther _ input old fanin update isOld => moved isOther update isOld⟩
  rw [List.eq_nil_iff_forall_not_mem]
  intro consumer reads
  have isFanout := (List.takeWhile_sublist _).subset isRerouted
  have update := Update.reroute cand isRerouted reads
  obtain ⟨-, far, -⟩ := moved mem update ((mem_regularFanout view.unique).mp reads)
  exact far (Or.inr (Or.inr ⟨0, fanout, isFanout, rfl⟩))

end Wiring

/-- A candidate that is not rewritten is left with its neighbours as it was exactly if nothing
    was queued before its abandonment and no other candidate's updates reach them. -/
theorem abandoned_asBefore_iff (view : MutableGraphView) (nodesToPreserve : List NodeName)
    (output : List NodeDef) (optimized : optimize view nodesToPreserve = some (some output))
    (node : NodeDef) (mem : node ∈ view.graph)
    (abandoned : Abandoned view.graph nodesToPreserve node) :
    AsBefore view.graph output node ↔ Undisturbed view.graph nodesToPreserve node :=
  ⟨fun asBefore => asBefore.undisturbed optimized mem,
    fun undisturbed => undisturbed.asBefore mem abandoned optimized⟩

def permConst (name : NodeName) (perm : List Int) : NodeDef :=
  { name := name, op := "Const"
    attr := [("value", .tensor { dtype := .int32, tensorShape := some [4], intVal := perm })] }

def inputTranspose : NodeDef :=
  { name := "in", op := "Transpose", regularFanins := [⟨"x", 0⟩, ⟨"toSrc", 0⟩] }

def gradNode : NodeDef :=
  { name := "grad", op := "FusedBatchNormGrad", device := "/device:GPU:0"
    regularFanins := [⟨"in", 0⟩, ⟨"in", 0⟩], attr := [("data_format", .s "NHWC")] }

def outputTranspose (name : NodeName) : NodeDef :=
  { name := name, op := "Transpose", regularFanins := [⟨"grad", 0⟩, ⟨"toDst", 0⟩] }

/-- Both transposes after the node are read, the first one by `use0`. -/
def gradGraph : List NodeDef :=
  [{ name := "x", op := "Placeholder" }, permConst "toSrc" [0, 2, 3, 1],
   permConst "toDst" [0, 3, 1, 2], inputTranspose, gradNode, outputTranspose "out0",
   outputTranspose "out1", { name := "use0", op := "Identity", regularFanins := [⟨"out0", 0⟩] },
   { name := "use1", op := "Identity", regularFanins := [⟨"out1", 0⟩] }]

def gradView : MutableGraphView where
  graph := gradGraph
  unique := by
    show ["x", "toSrc", "toDst", "in", "grad", "out0", "out1", "use0", "use1"].Nodup
    decide
  present := by simp [gradGraph, permConst, inputTranspose, gradNode, outputTranspose]
  controlsPresent := by simp [gradGraph, permConst, inputTranspose, gradNode, outputTranspose]
  noSelfCycle := by simp [gradGraph, permConst, inputTranspose, gradNode, outputTranspose]
  noControlSelfCycle := by simp [gradGraph, permConst, inputTranspose, gradNode, outputTranspose]

theorem gradGraph_only {node : NodeDef} (mem : node ∈ gradGraph)
    (isGrad : isFusedBatchNormGrad node = true) : node = gradNode := by
  have only : ∀ other ∈ gradGraph, isFusedBatchNormGrad other = true → other = gradNode := by decide
  exact only node mem isGrad

theorem gradNode_abandoned {nodesToPreserve : List NodeName}
    (preserved : "out0" ∈ nodesToPreserve ∨ "out1" ∈ nodesToPreserve) :
    Abandoned gradGraph nodesToPreserve gradNode := by
  refine ⟨rfl, fun ⟨_, _, new⟩ => ?_⟩
  cases preserved with
  | inl isFirst => exact new.notPreserved ⟨"out0", 0⟩ (by decide) isFirst
  | inr isSecond => exact new.notPreserved ⟨"out1", 0⟩ (by decide) isSecond

/-- If the first transpose must be preserved, nothing has been queued. -/
theorem firstPreserved_asBefore : optimize gradView ["out0"] = some (some gradGraph) ∧
    AsBefore gradGraph gradGraph gradNode := by
  have opt : optimize gradView ["out0"] = some (some gradGraph) := by decide +kernel
  have nothing : reroutedFanouts gradGraph ["out0"] "grad" = [] := by decide
  refine ⟨opt, (abandoned_asBefore_iff gradView _ _ opt gradNode (by decide)
    (gradNode_abandoned (Or.inl (by decide)))).mpr ⟨fun _ _ _ fanout isRerouted => ?_,
    fun other isOther differs _ _ _ update _ => ?_⟩⟩
  · rw [show gradView.graph = gradGraph from rfl, show gradNode.name = "grad" from rfl,
      nothing] at isRerouted
    exact absurd isRerouted List.not_mem_nil
  · obtain ⟨_, _, cand⟩ := update.candidate
    exact absurd (gradGraph_only isOther cand.isGrad) differs

def halfRewritten : List NodeDef :=
  gradGraph.map fun node =>
    if node.name = "use0" then { node with regularFanins := [⟨"grad", 0⟩] } else node

/-- If the second one must be preserved, what reads the first was rerouted already. -/
theorem secondPreserved_half : ¬ ∀ (view : MutableGraphView) (nodesToPreserve : List NodeName)
    (output : List NodeDef), optimize view nodesToPreserve = some (some output) →
    ∀ node ∈ view.graph, Abandoned view.graph nodesToPreserve node →
      AsBefore view.graph output node := by
  intro claim
  have opt : optimize gradView ["out1"] = some (some halfRewritten) := by decide +kernel
  have asBefore := claim gradView ["out1"] _ opt gradNode (by decide)
    (gradNode_abandoned (Or.inr (by decide)))
  have near : Neighbour gradGraph gradNode "out0" :=
    Or.inr (Or.inr ⟨0, ⟨"out0", 0⟩, by decide, rfl⟩)
  have reads := ((asBefore.wired "out0" near).fanouts 0 ⟨"use0", 0⟩).mpr (by decide)
  exact absurd reads (by decide)

end TfDml.Optimizer.TransposeRemover
