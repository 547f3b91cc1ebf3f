import TfDml.Optimizer.GraphEdits
import TfDml.Optimizer.Remapper
import TfDml.Lib.Run

/-! # The remapper over a whole graph

The nodes are visited from the last one to the first, and each match is applied to the view
before the next visit; the pads go at the end. The two bit vectors of the pass are those of
the matches so far. What shape inference finds and the order that the nodes are sorted
into are parameters.
-/

namespace TfDml.Optimizer.Remapper

open Lib List Option

structure GrapplerItem where
  graph : List NodeDef
  nodesToPreserve : List NodeName
  allowNonDifferentiableRewrites : Bool := true

abbrev InputProperties := NodeName → List TensorProperties

def isBiasAdd (node : NodeDef) : Bool := node.op = "BiasAdd" || node.op = "BiasAddV1"

def isSupportedActivation (node : NodeDef) : Bool :=
  node.op = "Relu" || node.op = "Relu6" || node.op = "Elu" || node.op = "LeakyRelu"

/-- The source of the first input, of a node of this kind. -/
def skipNode (graph : List NodeDef) (isKind : NodeDef → Bool) (node : NodeDef) : Option NodeDef :=
  if isKind node then faninNode graph node 0 else some node

/-- The node is a convolution after a pad, or follows one past a bias and an activation. -/
def requiresInferredShapes (graph : List NodeDef) (node : NodeDef) : Bool :=
  let source := do
    let node ← skipNode graph isSupportedActivation node
    let conv ← skipNode graph isBiasAdd node
    if isConv2D conv then faninNode graph conv 0 else none
  source.any isPad

structure State where
  view : MutableGraphView
  /-- Nothing before the first candidate. -/
  graphProperties : Option InputProperties
  /-- The newest match first. -/
  matched : List PadWithConv2D

namespace State

def invalidated (state : State) (name : NodeName) : Bool := state.matched.any (·.conv2D = name)

def toDelete (state : State) (name : NodeName) : Bool := state.matched.any (·.pad = name)

def context (state : State) (item : GrapplerItem) : RemapperContext where
  view := state.view
  nodesToPreserve := item.nodesToPreserve
  getInputProperties := state.graphProperties.getD fun _ => []

end State

def addFusedContractionNode (state : State) (found : PadWithConv2D) : Option State := do
  let pad ← node? state.view.graph found.pad
  let conv2D ← node? state.view.graph found.conv2D
  let fusedOp ← fusedConv2D pad conv2D found
  let view ← state.view.addNode fusedOp
  some { state with view := view, matched := found :: state.matched }

def inferProperties (inferStatically : Option InputProperties) (state : State) (node : NodeDef) :
    Option State :=
  if state.graphProperties.isNone && requiresInferredShapes state.view.graph node then
    inferStatically.map fun properties => { state with graphProperties := some properties }
  else some state

/-- The loop over the nodes; nothing where it returns an error, or does what is undefined. -/
def visit (item : GrapplerItem) (inferStatically : Option InputProperties) (state : State)
    (name : NodeName) : Option State :=
  if state.invalidated name || state.toDelete name then some state
  else do
    let node ← node? state.view.graph name
    let state ← inferProperties inferStatically state node
    if item.allowNonDifferentiableRewrites then
      match findPadWithConv2D (state.context item) node with
      | .ok found => addFusedContractionNode state found
      | .error .noMatch => some state
      | .error .undefined => none
    else some state

/-- A node keeps its index, so the names stand for the indices. -/
def remap (item : GrapplerItem) (inferStatically : Option InputProperties)
    (sorted : MutableGraphView) : Option State :=
  run (visit item inferStatically) ⟨sorted, none, []⟩
    (sorted.graph.map NodeDef.name).reverse

def Sorted (view : MutableGraphView) : Type :=
  { sorted : MutableGraphView // sorted.graph.Perm view.graph }

def optimize (item : GrapplerItem) (inferStatically : Option InputProperties)
    (sortTopologically : (view : MutableGraphView) → Option (Sorted view)) :
    Option (List NodeDef) := do
  let view ← MutableGraphView.ofGraph item.graph
  let sorted ← sortTopologically view
  let state ← remap item inferStatically sorted.1
  let optimized ← state.view.removeNodes (state.matched.map PadWithConv2D.pad)
  some optimized.graph

structure FoundPad (graph : List NodeDef) (nodesToPreserve : List NodeName)
    (conv pad : NodeDef) : Prop where
  isConv2D : isConv2D conv = true
  convFanins : conv.controllingFanins = []
  convFanouts : numControlledFanouts graph conv.name = 0
  reads : faninNode graph conv 0 = some pad
  isPad : isPad pad = true
  padFanins : pad.controllingFanins = []
  padFanouts : numControlledFanouts graph pad.name = 0
  lone : (regularFanout graph ⟨pad.name, 0⟩).length ≤ 1
  notPreserved : pad.name ∉ nodesToPreserve

variable {node : NodeDef}

theorem hasControlFaninOrFanout_eq_false {graph : List NodeDef} :
    hasControlFaninOrFanout graph node = false ↔
      node.controllingFanins = [] ∧ numControlledFanouts graph node.name = 0 := by
  simp [hasControlFaninOrFanout]

variable {conv pad : NodeDef}

theorem foundPad_of_findPad {ctx : RemapperContext} (found : findPad ctx conv = .ok pad) :
    FoundPad ctx.view.graph ctx.nodesToPreserve conv pad := by
  simp only [findPad, bind_eq_ok, require_eq_ok, defined_eq_ok, Except.ok.injEq,
    Bool.not_eq_true', hasControlFaninOrFanout_eq_false, decide_eq_false_iff_not] at found
  obtain ⟨-, isConv, -, ⟨convFanins, convFanouts⟩, -, -, pad, reads, -, isPad, -, -, -,
    ⟨padFanins, padFanouts⟩, -, lone, -, notPreserved, rfl⟩ := found
  exact ⟨isConv, convFanins, convFanouts, reads, isPad, padFanins, padFanouts,
    of_decide_eq_true lone, notPreserved⟩

theorem isConv2D_of_isPad (pads : isPad node = true) : isConv2D node = false := by
  simp only [isPad, Bool.or_eq_true, decide_eq_true_eq] at pads
  rcases pads with isOp | isOp <;> simp [isConv2D, isOp]

theorem isConv2D_of_isConstant (constant : isConstant node = true) : isConv2D node = false := by
  simp [isConv2D, of_decide_eq_true constant]

/-- A match in terms of the graph before the pass, and the node that it makes. -/
structure Fusion (graph : List NodeDef) (nodesToPreserve : List NodeName)
    (found : PadWithConv2D) where
  conv : NodeDef
  pad : NodeDef
  paddings : NodeDef
  indices : DimIndices
  tensor : TensorProto
  values : List Int
  fused : NodeDef
  /-- Where the paddings were added, which a `SAME` convolution depends on. -/
  ctx : RemapperContext
  isConv : node? graph found.conv2D = some conv
  isConv2D : isConv2D conv = true
  convFanins : conv.controllingFanins = []
  reads : faninNode graph conv 0 = some pad
  named : found.pad = pad.name
  isPad : isPad pad = true
  padFanins : pad.controllingFanins = []
  padFanouts : numControlledFanouts graph pad.name = 0
  notPreserved : pad.name ∉ nodesToPreserve
  isPaddings : faninNode graph pad 1 = some paddings
  constant : isConstant paddings = true
  isIndices : dimIndices conv = .ok indices
  padConstant : pad.op = "PadV2" → ∃ constant tensor, faninNode graph pad 2 = some constant ∧
    isConstant constant = true ∧ constant.getAttr "value" = some (.tensor tensor) ∧
    paddingValue tensor = .ok (.finite 0)
  isTensor : paddingsTensor paddings = .ok tensor
  isValues : readPaddings tensor = .ok values
  spatial : padsOnlySpatial indices values = true
  summed : addConvPadding ctx conv indices values = .ok found.newPaddingValues
  isFused : fusedConv2D pad conv found = some fused

def remapped (graph : List NodeDef) (matched : List PadWithConv2D) (node : NodeDef) : NodeDef :=
  match matched.find? (·.conv2D = node.name) with
  | none => node
  | some found => ((faninNode graph node 0).bind fun pad => fusedConv2D pad node found).getD node

variable {fused : NodeDef} {found : PadWithConv2D}

theorem fusedConv2D_eq_some (isFused : fusedConv2D pad conv found = some fused) :
    ∃ input filter copied, pad.regularFanins[0]? = some input ∧
      conv.regularFanins[1]? = some filter ∧
      ["T", "strides", "padding", "explicit_paddings", "dilations", "data_format",
        "use_cudnn_on_gpu"].mapM (fun attrName =>
          (conv.getAttr attrName).map fun value => (attrName, value)) = some copied ∧
      fused = { name := conv.name, op := conv.op, device := conv.device
                regularFanins := [input, filter]
                attr := setAttr (setAttr copied "padding" (.s "EXPLICIT")) "explicit_paddings"
                  (.listI found.newPaddingValues) } := by
  simp only [fusedConv2D, bind_eq_bind, bind_eq_some_iff, Option.some.injEq] at isFused
  obtain ⟨input, isInput, filter, isFilter, copied, isCopied, rfl⟩ := isFused
  exact ⟨input, filter, copied, isInput, isFilter, isCopied, rfl⟩

section Remapped

variable {graph : List NodeDef} {matched : List PadWithConv2D}

theorem remapped_keeps (node : NodeDef) : (remapped graph matched node).name = node.name ∧
      (remapped graph matched node).op = node.op ∧
      (remapped graph matched node).device = node.device := by
  unfold remapped
  split
  · exact ⟨rfl, rfl, rfl⟩
  · rename_i found _
    cases isFused : (faninNode graph node 0).bind fun pad => fusedConv2D pad node found with
    | none => exact ⟨rfl, rfl, rfl⟩
    | some fused =>
      obtain ⟨pad, -, made⟩ := bind_eq_some_iff.mp isFused
      obtain ⟨_, _, _, -, -, -, rfl⟩ := fusedConv2D_eq_some made
      exact ⟨rfl, rfl, rfl⟩

@[simp] theorem remapped_name (node : NodeDef) : (remapped graph matched node).name = node.name :=
  (remapped_keeps node).1

theorem remapped_of_unmatched {node : NodeDef}
    (unmatched : ∀ found ∈ matched, found.conv2D ≠ node.name) :
    remapped graph matched node = node := by
  have absent : matched.find? (·.conv2D = node.name) = none :=
    find?_eq_none.mpr fun found mem => by simpa using unmatched found mem
  simp only [remapped, absent]

theorem node?_remapped (name : NodeName) : node? (graph.map (remapped graph matched)) name =
      (node? graph name).map (remapped graph matched) :=
  node?_map (fun node _ => remapped_name node) name

end Remapped

/-- The convolution reads the output of the pad, and not one that a pad does not have. -/
def ReadsOutput (graph : List NodeDef) (found : PadWithConv2D) : Prop :=
  regularFanin graph ⟨found.conv2D, 0⟩ = some ⟨found.pad, 0⟩

structure Remapping (graph : List NodeDef) (nodesToPreserve : List NodeName)
    (state : State) : Prop where
  graph_eq : state.view.graph = graph.map (remapped graph state.matched)
  distinct : (state.matched.map PadWithConv2D.conv2D).Nodup
  fused : ∀ found ∈ state.matched, Nonempty (Fusion graph nodesToPreserve found)
  /-- Nothing is left that reads the output of a matched pad. -/
  settled : ∀ found ∈ state.matched, ReadsOutput graph found →
    regularFanout state.view.graph ⟨found.pad, 0⟩ = []
  single : state.matched.Pairwise fun newer older =>
    ReadsOutput graph newer → ReadsOutput graph older → newer.pad ≠ older.pad

namespace Remapping

variable {graph : List NodeDef} {nodesToPreserve : List NodeName} {state : State}
  (remapping : Remapping graph nodesToPreserve state)

include remapping

theorem node?_eq (name : NodeName) :
    node? state.view.graph name = (node? graph name).map (remapped graph state.matched) := by
  rw [remapping.graph_eq, node?_remapped]

variable {name : NodeName} {node : NodeDef}

theorem remapped_of_not_conv2D (isNode : node? graph name = some node)
    (other : isConv2D node = false) : remapped graph state.matched node = node := by
  apply remapped_of_unmatched
  intro found mem same
  obtain ⟨fusion⟩ := remapping.fused found mem
  have isConv := fusion.isConv
  rw [same, (node?_some isNode).2] at isConv
  obtain rfl := some.inj (isNode.symm.trans isConv)
  exact absurd fusion.isConv2D (by simp [other])

theorem node?_kept (isNode : node? state.view.graph name = some node)
    (other : isConv2D node = false) : node? graph name = some node := by
  rw [remapping.node?_eq, map_eq_some_iff] at isNode
  obtain ⟨pre, isBefore, rfl⟩ := isNode
  have sameOp : isConv2D pre = false := by rwa [isConv2D, (remapped_keeps pre).2.1] at other
  rw [remapping.remapped_of_not_conv2D isBefore sameOp, isBefore]

theorem node?_unmatched (isNode : node? state.view.graph name = some node)
    (unmatched : ∀ found ∈ state.matched, found.conv2D ≠ name) : node? graph name = some node := by
  rw [remapping.node?_eq, map_eq_some_iff] at isNode
  obtain ⟨pre, isBefore, rfl⟩ := isNode
  obtain ⟨-, rfl⟩ := node?_some isBefore
  rw [remapped_of_unmatched unmatched, isBefore]

theorem faninNode_kept {source : NodeDef} {index : Nat}
    (isFanin : faninNode state.view.graph node index = some source)
    (other : isConv2D source = false) : faninNode graph node index = some source := by
  obtain ⟨fanin, reads, isSource⟩ := faninNode_eq_some.mp isFanin
  exact faninNode_eq_some.mpr ⟨fanin, reads, remapping.node?_kept isSource other⟩

variable {found : PadWithConv2D}

theorem remapped_conv (mem : found ∈ state.matched)
    (fusion : Fusion graph nodesToPreserve found) :
    remapped graph state.matched fusion.conv = fusion.fused := by
  have named : fusion.conv.name = found.conv2D := (node?_some fusion.isConv).2
  have isFound : state.matched.find? (·.conv2D = fusion.conv.name) = some found := by
    cases newest : state.matched.find? (·.conv2D = fusion.conv.name) with
    | none => exact absurd named (by simpa [eq_comm] using find?_eq_none.mp newest found mem)
    | some other =>
      have same : other.conv2D = fusion.conv.name := by simpa using find?_some newest
      rw [inj_on_of_nodup_map remapping.distinct (mem_of_find?_eq_some newest) mem
        (same.trans named)]
  simp only [remapped, isFound, fusion.reads, bind_some, fusion.isFused, getD_some]

theorem remapped_controllingFanins (isNode : node? graph name = some node) :
    (remapped graph state.matched node).controllingFanins = node.controllingFanins := by
  by_cases matched : ∃ found ∈ state.matched, found.conv2D = node.name
  · obtain ⟨found, mem, same⟩ := matched
    obtain ⟨fusion⟩ := remapping.fused found mem
    have isConv := fusion.isConv
    rw [same, (node?_some isNode).2] at isConv
    obtain rfl := some.inj (isConv.symm.trans isNode)
    obtain ⟨_, _, _, -, -, -, made⟩ := fusedConv2D_eq_some fusion.isFused
    rw [remapping.remapped_conv mem fusion, fusion.convFanins, made]
  · rw [remapped_of_unmatched fun found mem same => matched ⟨found, mem, same⟩]

theorem numControlledFanouts_eq (unique : (graph.map NodeDef.name).Nodup) (name : NodeName) :
    numControlledFanouts state.view.graph name = numControlledFanouts graph name := by
  rw [numControlledFanouts, numControlledFanouts, remapping.graph_eq, List.filter_map, length_map]
  refine congrArg List.length (filter_congr fun node mem => ?_)
  rw [Function.comp_apply, remapping.remapped_controllingFanins (node?_of_mem unique mem)]

variable {ctx : RemapperContext} {pad : NodeDef}

theorem padConstant_kept (sameView : ctx.view = state.view)
    (checked : checkPadConstant ctx pad = .ok ()) (isPadV2 : pad.op = "PadV2") :
    ∃ constant tensor, faninNode graph pad 2 = some constant ∧
      isConstant constant = true ∧ constant.getAttr "value" = some (.tensor tensor) ∧
      paddingValue tensor = .ok (.finite 0) := by
  obtain ⟨-, constant, tensor, isFanin, isConst, isValue, zero⟩ :=
    (checkPadConstant_ok isPadV2).mp checked
  rw [sameView] at isFanin
  exact ⟨constant, tensor, remapping.faninNode_kept isFanin (isConv2D_of_isConstant isConst),
    isConst, isValue, zero⟩

theorem fusion_of_match (unique : (graph.map NodeDef.name).Nodup) {conv fused : NodeDef}
    (sameView : ctx.view = state.view) (preserves : ctx.nodesToPreserve = nodesToPreserve)
    (isConv : node? graph conv.name = some conv) (isFound : findPadWithConv2D ctx conv = .ok found)
    (isPad : findPad ctx conv = .ok pad) (isFused : fusedConv2D pad conv found = some fused) :
    ∃ fusion : Fusion graph nodesToPreserve found,
      fusion.conv = conv ∧ fusion.pad = pad ∧ fusion.fused = fused := by
  obtain ⟨pad', paddings, indices, tensor, values, sums, isPad', isPaddings, constant, isIndices,
    checked, -, isTensor, isValues, spatial, summed, rfl⟩ := findPadWithConv2D_ok.mp isFound
  obtain rfl := Except.ok.inj (isPad.symm.trans isPad')
  have foundPad := foundPad_of_findPad isPad
  rw [sameView] at isPaddings foundPad
  refine ⟨⟨conv, pad, paddings, indices, tensor, values, fused, ctx, isConv, foundPad.isConv2D,
    foundPad.convFanins, remapping.faninNode_kept foundPad.reads
      (isConv2D_of_isPad foundPad.isPad), rfl, foundPad.isPad, foundPad.padFanins, ?_,
    preserves ▸ foundPad.notPreserved, remapping.faninNode_kept isPaddings
      (isConv2D_of_isConstant constant), constant, isIndices,
    remapping.padConstant_kept sameView checked, isTensor, isValues, spatial, summed, isFused⟩,
    rfl, rfl, rfl⟩
  rw [← remapping.numControlledFanouts_eq unique]
  exact foundPad.padFanouts

end Remapping

theorem regularFanout_insertNode {graph : List NodeDef} {output : TensorId}
    (padMember : pad ∈ graph) (convMember : conv ∈ graph) (differ : pad.name ≠ conv.name)
    (isFused : fusedConv2D pad conv found = some fused)
    (only : ∀ input ∈ regularFanout graph output, input = ⟨conv.name, 0⟩) :
    regularFanout (insertNode graph fused) output = [] := by
  have reader {node : NodeDef} {index : Nat} (mem : node ∈ graph)
      (reads : node.regularFanins[index]? = some output) : node.name = conv.name ∧ index = 0 := by
    have isFanout : (⟨node.name, index⟩ : FaninView) ∈ regularFanout graph output :=
      mem_flatMap.mpr ⟨node, mem, mem_faninsOf.mpr ⟨rfl, reads⟩⟩
    exact FaninView.mk.inj (only _ isFanout)
  obtain ⟨src, filter, copied, isSource, isFilter, -, rfl⟩ := fusedConv2D_eq_some isFused
  refine eq_nil_iff_forall_not_mem.mpr fun input isFanout => ?_
  obtain ⟨node, ins, isFanin⟩ := mem_flatMap.mp isFanout
  obtain ⟨named, reads⟩ := mem_faninsOf.mp isFanin
  rcases mem_insertNode ins with ⟨mem, other⟩ | rfl
  · exact other (reader mem reads).1
  · -- the fused node reads what the pad and the second input of the convolution did
    match index : input.index with
    | 0 =>
      rw [index] at reads
      obtain rfl := some.inj reads
      exact differ (reader padMember isSource).1
    | 1 =>
      rw [index] at reads
      obtain rfl := some.inj reads
      exact absurd (reader convMember isFilter).2 Nat.one_ne_zero
    | index + 2 => simp_all

theorem addFusedContractionNode_eq_some {state next : State}
    (added : addFusedContractionNode state found = some next) :
    ∃ pad conv fused, node? state.view.graph found.pad = some pad ∧
      node? state.view.graph found.conv2D = some conv ∧ fusedConv2D pad conv found = some fused ∧
      next.view.graph = insertNode state.view.graph fused ∧
      next.matched = found :: state.matched := by
  simp only [addFusedContractionNode, bind_eq_bind, bind_eq_some_iff, Option.some.injEq] at added
  obtain ⟨pad, isPad, conv, isConv, fused, isFused, view, isView, rfl⟩ := added
  exact ⟨pad, conv, fused, isPad, isConv, isFused, (MutableGraphView.addNode_eq_some isView).2, rfl⟩

namespace Remapping

variable {graph : List NodeDef} {nodesToPreserve : List NodeName} {state next : State}

variable {found : PadWithConv2D}

theorem insertNode_eq (unique : (graph.map NodeDef.name).Nodup)
    (remapping : Remapping graph nodesToPreserve state)
    (fusion : Fusion graph nodesToPreserve found) : insertNode state.view.graph fusion.fused =
      graph.map (remapped graph (found :: state.matched)) := by
  obtain ⟨convMember, convNamed⟩ := node?_some fusion.isConv
  have named : fusion.fused.name = fusion.conv.name := by
    obtain ⟨_, _, _, -, -, -, made⟩ := fusedConv2D_eq_some fusion.isFused
    rw [made]
  have present : fusion.fused.name ∈ state.view.graph.map NodeDef.name := by
    rw [remapping.graph_eq, List.map_map, named]
    exact List.mem_map.mpr ⟨fusion.conv, convMember, remapped_name fusion.conv⟩
  rw [insertNode, if_pos present, remapping.graph_eq, List.map_map]
  refine map_congr_left fun node mem => ?_
  rw [Function.comp_apply, remapped_name, named]
  by_cases isConv : node.name = fusion.conv.name
  · obtain rfl := inj_on_of_nodup_map unique mem convMember isConv
    simp only [if_true, remapped, find?_cons, convNamed, decide_true, fusion.reads,
      bind_some, fusion.isFused, getD_some]
  · have other : found.conv2D ≠ node.name := fun same => isConv (same.symm.trans convNamed.symm)
    rw [if_neg isConv]
    simp only [remapped, find?_cons, decide_eq_false other]

theorem addFused (unique : (graph.map NodeDef.name).Nodup)
    (remapping : Remapping graph nodesToPreserve state) {ctx : RemapperContext} {conv : NodeDef}
    (sameView : ctx.view = state.view) (preserves : ctx.nodesToPreserve = nodesToPreserve)
    (isConv : node? state.view.graph conv.name = some conv)
    (unmatched : ∀ other ∈ state.matched, other.conv2D ≠ conv.name)
    (isFound : findPadWithConv2D ctx conv = .ok found)
    (added : addFusedContractionNode state found = some next) :
    Remapping graph nodesToPreserve next := by
  obtain ⟨pad, -, -, -, -, sums, isPad, -, -, -, -, -, -, -, -, -, made⟩ :=
    findPadWithConv2D_ok.mp isFound
  have ofPad : found.pad = pad.name := congrArg PadWithConv2D.pad made
  have ofConv : found.conv2D = conv.name := congrArg PadWithConv2D.conv2D made
  obtain ⟨pad', conv', fused, isPad', isConv', isFused, graph_eq, matched_eq⟩ :=
    addFusedContractionNode_eq_some added
  rw [ofConv] at isConv'
  obtain rfl := some.inj (isConv.symm.trans isConv')
  have foundPad := foundPad_of_findPad isPad
  rw [sameView] at foundPad
  obtain ⟨fanin, isFanin, reads⟩ := faninNode_eq_some.mp foundPad.reads
  have padMember := (node?_some reads).1
  rw [ofPad] at isPad'
  obtain rfl := some.inj ((node?_of_mem state.view.unique padMember).symm.trans isPad')
  have convMember := (node?_some isConv).1
  have differ : pad.name ≠ conv.name := by
    intro same
    obtain rfl := inj_on_of_nodup_map state.view.unique padMember convMember same
    exact absurd foundPad.isConv2D (by simp [isConv2D_of_isPad foundPad.isPad])
  obtain ⟨fusion, isFusionConv, -, isFusionFused⟩ := remapping.fusion_of_match unique sameView
    preserves (remapping.node?_unmatched isConv unmatched) isFound isPad isFused
  have readsOutput (reads : ReadsOutput graph found) :
      (⟨conv.name, 0⟩ : FaninView) ∈ regularFanout state.view.graph ⟨found.pad, 0⟩ := by
    rw [ReadsOutput, regularFanin, fusion.isConv, isFusionConv] at reads
    exact mem_flatMap.mpr ⟨conv, convMember, mem_faninsOf.mpr ⟨rfl, reads⟩⟩
  refine ⟨?_, ?_, ?_, ?_, ?_⟩
  · rw [graph_eq, matched_eq, ← isFusionFused, remapping.insertNode_eq unique fusion]
  · rw [matched_eq, map_cons]
    refine nodup_cons.mpr ⟨fun mem => ?_, remapping.distinct⟩
    obtain ⟨other, isOther, same⟩ := List.mem_map.mp mem
    exact unmatched other isOther (same.trans ofConv)
  · rw [matched_eq]
    exact forall_mem_cons.mpr ⟨⟨fusion⟩, remapping.fused⟩
  · rw [matched_eq, graph_eq]
    refine forall_mem_cons.mpr ⟨fun reads => ?_, fun other mem reads => ?_⟩
    · have isFirst := readsOutput reads
      rw [ofPad] at isFirst ⊢
      obtain ⟨lone, isLone⟩ := length_eq_one_iff.mp
        (le_antisymm foundPad.lone (length_pos_of_mem isFirst))
      refine regularFanout_insertNode padMember convMember differ isFused fun input isInput => ?_
      rw [isLone] at isInput isFirst
      rw [mem_singleton.mp isInput, mem_singleton.mp isFirst]
    · have none := remapping.settled other mem reads
      refine regularFanout_insertNode padMember convMember differ isFused fun input isInput => ?_
      rw [none] at isInput
      cases isInput
  · rw [matched_eq]
    refine pairwise_cons.mpr ⟨fun other mem reads otherReads same => ?_, remapping.single⟩
    have isFirst := readsOutput reads
    rw [same, remapping.settled other mem otherReads] at isFirst
    cases isFirst

theorem of_eq (remapping : Remapping graph nodesToPreserve state)
    (sameView : next.view = state.view) (sameMatches : next.matched = state.matched) :
    Remapping graph nodesToPreserve next := by
  obtain ⟨graph_eq, nodup, fused, settled, single⟩ := remapping
  rw [← sameMatches] at graph_eq nodup fused settled single
  rw [← sameView] at graph_eq settled
  exact ⟨graph_eq, nodup, fused, settled, single⟩

end Remapping

theorem inferProperties_eq_some {inferStatically : Option InputProperties} {state next : State}
    (inferred : inferProperties inferStatically state node = some next) :
    next.view = state.view ∧ next.matched = state.matched := by
  unfold inferProperties at inferred
  split at inferred
  · obtain ⟨properties, -, rfl⟩ := map_eq_some_iff.mp inferred
    exact ⟨rfl, rfl⟩
  · obtain rfl := some.inj inferred
    exact ⟨rfl, rfl⟩

theorem visit_cases {item : GrapplerItem} {inferStatically : Option InputProperties}
    {state next : State} {name : NodeName}
    (seen : visit item inferStatically state name = some next) :
    next.view = state.view ∧ next.matched = state.matched ∨
      ∃ inferred conv found, inferred.view = state.view ∧ inferred.matched = state.matched ∧
        node? state.view.graph name = some conv ∧ state.invalidated name = false ∧
        findPadWithConv2D (inferred.context item) conv = .ok found ∧
        addFusedContractionNode inferred found = some next := by
  unfold visit at seen
  split at seen
  · obtain rfl := some.inj seen
    exact Or.inl ⟨rfl, rfl⟩
  · rename_i skip
    simp only [Bool.or_eq_true, not_or, Bool.not_eq_true] at skip
    simp only [bind_eq_bind, bind_eq_some_iff] at seen
    obtain ⟨node, isNode, inferred, isInferred, seen⟩ := seen
    obtain ⟨sameView, sameMatches⟩ := inferProperties_eq_some isInferred
    split at seen
    · split at seen
      · rename_i found isFound
        exact Or.inr ⟨inferred, node, found, sameView, sameMatches, isNode, skip.1, isFound, seen⟩
      · obtain rfl := some.inj seen
        exact Or.inl ⟨sameView, sameMatches⟩
      · cases seen
    · obtain rfl := some.inj seen
      exact Or.inl ⟨sameView, sameMatches⟩

section Run

variable {item : GrapplerItem} {inferStatically : Option InputProperties}
  {graph : List NodeDef}

theorem Remapping.visit {state next : State} {name : NodeName}
    (unique : (graph.map NodeDef.name).Nodup)
    (remapping : Remapping graph item.nodesToPreserve state)
    (seen : Remapper.visit item inferStatically state name = some next) :
    Remapping graph item.nodesToPreserve next := by
  rcases visit_cases seen with ⟨sameView, sameMatches⟩ |
    ⟨inferred, conv, found, sameView, sameMatches, isConv, valid, isFound, added⟩
  · exact remapping.of_eq sameView sameMatches
  · have kept := remapping.of_eq sameView sameMatches
    have named := (node?_some isConv).2
    rw [← sameView] at isConv
    refine kept.addFused unique rfl rfl (named ▸ isConv) ?_ isFound added
    intro other mem same
    rw [sameMatches] at mem
    exact absurd valid (by simpa [State.invalidated, ← named] using ⟨other, mem, same⟩)

theorem remapping_of_remap {sorted : MutableGraphView} {state : State}
    (isState : remap item inferStatically sorted = some state) :
    Remapping sorted.graph item.nodesToPreserve state := by
  refine run_invariant (I := Remapping sorted.graph item.nodesToPreserve)
    (fun s name t remapping seen => remapping.visit sorted.unique seen) ?_ isState
  refine ⟨?_, nodup_nil, ?_, ?_, List.Pairwise.nil⟩
  · exact (map_id'' (fun node => remapped_of_unmatched (by simp)) _).symm
  · simp
  · simp

end Run

end TfDml.Optimizer.Remapper
