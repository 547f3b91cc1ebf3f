import TfDml.Optimizer.ConvolutionRuntime
import TfDml.Optimizer.FusedConv2D
import TfDml.Optimizer.RemapperRun

/-! # The values after the remapper

The runtime is a parameter, with what it does for constants, pads and convolutions. Where the
sums of the paddings fit and the pads fill in zeros, what stays keeps its value.
-/

namespace TfDml.Optimizer.Remapper

open Lib Conv2D List Option

/-- One node reads the other, maybe through others. -/
def DependsOn (graph : List NodeDef) : NodeName → NodeName → Prop :=
  Relation.ReflTransGen fun reader source => ∃ node, node? graph reader = some node ∧
    ∃ fanin ∈ node.regularFanins, fanin.node = source

theorem DependsOn.of_fanin {graph : List NodeDef} {reader source : NodeName} {node : NodeDef}
    {fanin : TensorId} (isNode : node? graph reader = some node)
    (isFanin : fanin ∈ node.regularFanins) (depends : DependsOn graph fanin.node source) :
    DependsOn graph reader source :=
  Relation.ReflTransGen.head ⟨node, isNode, fanin, isFanin, rfl⟩ depends

theorem paddingsTensor_ok {paddings : NodeDef} {tensor : TensorProto}
    (isTensor : paddingsTensor paddings = .ok tensor) :
    paddings.getAttr "value" = some (.tensor tensor) := by
  unfold paddingsTensor at isTensor
  split at isTensor
  · rename_i isValue
    rw [isValue, Except.ok.inj isTensor]
  · cases isTensor

namespace Run

variable {item : GrapplerItem} (run : Run item)

def SumsFit : Prop := ∀ found ∈ run.state.matched,
  ∀ fusion : Fusion run.sorted.graph item.nodesToPreserve found,
    IsValidOrExplicit fusion.conv → fusion.Fits

def ZeroFilled : Prop := ∀ found ∈ run.state.matched,
  ∀ fusion : Fusion run.sorted.graph item.nodesToPreserve found,
    IsValidOrExplicit fusion.conv → fusion.pad.op = "PadV2" → ∀ constant fill,
      faninNode run.sorted.graph fusion.pad 2 = some constant →
      constant.getAttr "value" = some (.tensor fill) → constantValue fill = some (.finite 0)

/-- No `SAME` convolution was fused among the nodes that this one depends on. -/
def Windowed (name : NodeName) : Prop := ∀ found ∈ run.state.matched,
  ∀ fusion : Fusion run.sorted.graph item.nodesToPreserve found,
    DependsOn run.sorted.graph name found.conv2D → IsValidOrExplicit fusion.conv

variable {run}

theorem Windowed.fanin {name : NodeName} {node : NodeDef} {fanin : TensorId}
    (win : run.Windowed name) (isNode : node? run.sorted.graph name = some node)
    (isFanin : fanin ∈ node.regularFanins) : run.Windowed fanin.node :=
  fun found mem fusion depends =>
    win found mem fusion (depends.of_fanin isNode isFanin)

section Values

variable {V E : Type} [Zero E] (semantics : Semantics V E)

/-- A value of the nodes as they were, which is one of the output if the node stays. -/
structure Stays (run : Run item) (name : NodeName) (outputs : List V) : Prop where
  evaluated : (graphNet semantics.eval run.sorted.graph).Evaluates name outputs
  evaluates : run.Windowed name → name ∉ run.deleted →
    (graphNet semantics.eval run.optimized.graph).Evaluates name outputs

/-- The pad of a match is gone, so that what it reads must stay too. -/
structure Kept (run : Run item) (name : NodeName) (outputs : List V) : Prop extends
    Stays semantics run name outputs where
  reads : ∃ node arguments, node? run.sorted.graph name = some node ∧
    Reads (Stays semantics run) node arguments ∧
    semantics.eval node.name node.op node.attr arguments = some outputs

variable {semantics}

variable {found : PadWithConv2D} (mem : found ∈ run.state.matched)
  (fusion : Fusion run.sorted.graph item.nodesToPreserve found)

include mem

variable {arguments outputs : List V}

theorem pad_spec (zeroFilled : run.ZeroFilled) (win : IsValidOrExplicit fusion.conv)
    (fits : fusion.Fits) {params : Conv2DParameters}
    (takes : Takes params (ownPaddings fusion.conv))
    (read : Reads (Stays semantics run) fusion.pad arguments)
    (eq : semantics.eval fusion.pad.name fusion.pad.op fusion.pad.attr arguments =
      some outputs) : ∃ padded, outputs = [padded] ∧ ∀ around,
      semantics.tensor padded = some around → around.shape.length = 4 →
      ∃ input pixels amounts, arguments[0]? = some input ∧ semantics.tensor input = some pixels ∧
        paddingAmounts fusion.tensor = some amounts ∧ amounts.length = 8 ∧
        (∀ a ∈ amounts, 0 ≤ a) ∧ around = pixels.pad (marginsOf amounts) := by
  have isOp : fusion.pad.op = "Pad" ∨ fusion.pad.op = "PadV2" := by simpa [isPad] using fusion.isPad
  obtain ⟨input, paddings, rest, padded, rfl, restLength, rfl, ofTensor⟩ :=
    semantics.eval_pad isOp eq
  refine ⟨padded, rfl, fun around isAround four => ?_⟩
  obtain ⟨pixels, isPixels, ofPaddings⟩ := ofTensor around isAround
  have evaluated := read.imp fun _ _ _ stays => stays.evaluated
  have isPaddings := semantics.argument_of_const evaluated fusion.isPaddings fusion.constant
    (paddingsTensor_ok fusion.isTensor)
  obtain ⟨amounts, isAmounts, pads⟩ := ofPaddings _ (some.inj isPaddings)
  have rank : pixels.shape.length = 4 := by
    have lens := congrArg List.length pads.shape
    rw [Margins.around, length_mapIdx] at lens
    exact lens.symm.trans four
  have eight : amounts.length = 8 := by rw [pads.rank, rank]
  have lt := Fusion.amounts_lt isAmounts eight takes fits
  have filled : fusion.pad.op = "PadV2" → ∃ fill, rest = [semantics.constant fill] ∧
      constantValue fill = some (.finite 0) := by
    intro isPadV2
    obtain ⟨constant, fill, isConstant, isConst, isFill, -⟩ := fusion.padConstant isPadV2
    have isRest := semantics.argument_of_const evaluated isConstant isConst isFill
    obtain ⟨value, rfl⟩ := length_eq_one_iff.mp
      (restLength.trans (if_neg (by simp [isPadV2])))
    obtain rfl := some.inj isRest
    exact ⟨fill, rfl, zeroFilled found mem fusion win isPadV2 constant fill isConstant
      isFill⟩
  exact ⟨input, pixels, amounts, rfl, isPixels, isAmounts, eight, pads.nonneg,
    pads.eq_pad filled (fun a amount => (lt a amount).trans (by decide))
      (semantics.tensor_small isAround)⟩

theorem fused_fanin (win : run.Windowed fusion.conv.name) {fanin : TensorId}
    (isFanin : fanin ∈ fusion.fused.regularFanins) :
    run.Windowed fanin.node ∧ fanin.node ∉ run.deleted := by
  have isConvNode := node?_of_mem run.sorted.unique (node?_some fusion.isConv).1
  obtain ⟨-, inputStays, filterStays⟩ := fused_stays mem fusion
  obtain ⟨-, -, -, -, input, filter, isInput, isFilter, fanins⟩ := fusion.fused_spec
  obtain ⟨padFanin, isPadFanin, isPadNode⟩ := faninNode_eq_some.mp fusion.reads
  have padWindowed := win.fanin isConvNode (mem_of_getElem? isPadFanin)
  rw [fanins, mem_cons, mem_singleton] at isFanin
  rcases isFanin with rfl | rfl
  · exact ⟨padWindowed.fanin isPadNode (mem_of_getElem? isInput), inputStays _ isInput⟩
  · exact ⟨win.fanin isConvNode (mem_of_getElem? isFilter), filterStays _ isFilter⟩

theorem fused_reads (sumsFit : run.SumsFit) (zeroFilled : run.ZeroFilled)
    (win : IsValidOrExplicit fusion.conv)
    (read : Reads (Kept semantics run) fusion.conv arguments)
    (eq : semantics.eval fusion.conv.name fusion.conv.op fusion.conv.attr arguments =
      some outputs) : ∃ inputs, Reads (Stays semantics run) fusion.fused inputs ∧
      semantics.eval fusion.fused.name fusion.fused.op fusion.fused.attr inputs = some outputs := by
  have fits := sumsFit found mem fusion win
  rw [of_decide_eq_true fusion.isConv2D] at eq
  obtain ⟨padded, filter, around, weights, rfl, isAround, isWeights, convolved⟩ :=
    semantics.eval_conv2D.mp eq
  obtain ⟨four, params, takes⟩ := conv2D_takes win convolved
  obtain ⟨-, fusedOp, -, -, input, filterId, isInput, isFilterId, fanins⟩ := fusion.fused_spec
  -- the pad, whose own arguments stay
  obtain ⟨padFanin, isPadFanin, isPadNode⟩ := faninNode_eq_some.mp fusion.reads
  obtain ⟨_, values, isPadded, padKept, out⟩ := read.each 0 padFanin isPadFanin
  obtain rfl := some.inj isPadded
  obtain ⟨pad, padArguments, isPad, padRead, padComputed⟩ := padKept.reads
  obtain rfl := some.inj (isPadNode.symm.trans isPad)
  obtain ⟨output, rfl, ofAround⟩ := pad_spec mem fusion zeroFilled win fits takes padRead
    padComputed
  obtain rfl := eq_of_getElem?_singleton out
  obtain ⟨src, pixels, amounts, isSource, isPixels, isAmounts, eight, ge, rfl⟩ :=
    ofAround around isAround four
  obtain ⟨_, inputValues, isSource', inputStays, isInputValue⟩ := padRead.each 0 input isInput
  obtain rfl := some.inj (isSource.symm.trans isSource')
  obtain ⟨_, filterValues, isFilter, filterKept, isFilterValue⟩ := read.each 1 filterId isFilterId
  obtain rfl := some.inj isFilter
  refine ⟨[src, filter], ⟨by rw [fanins]; rfl, fun index fanin isFanin => ?_⟩, ?_⟩
  · rw [fanins] at isFanin
    match index with
    | 0 =>
      obtain rfl := some.inj isFanin
      exact ⟨src, inputValues, rfl, inputStays, isInputValue⟩
    | 1 =>
      obtain rfl := some.inj isFanin
      exact ⟨filter, filterValues, rfl, filterKept.toStays, isFilterValue⟩
    | index + 2 => cases isFanin
  · rw [fusedOp, of_decide_eq_true fusion.isConv2D]
    exact semantics.eval_conv2D.mpr ⟨src, filter, pixels, weights, rfl, isPixels, isWeights,
      fusion.conv2D_fused win isAmounts eight ge fits convolved⟩

theorem fused_evaluates (sumsFit : run.SumsFit) (zeroFilled : run.ZeroFilled)
    (read : Reads (Kept semantics run) fusion.conv arguments)
    (eq : semantics.eval fusion.conv.name fusion.conv.op fusion.conv.attr arguments =
      some outputs) (win : run.Windowed fusion.conv.name) :
    (graphNet semantics.eval run.optimized.graph).Evaluates fusion.conv.name outputs := by
  have isWindowed := win found mem fusion (fusion.conv_name ▸ Relation.ReflTransGen.refl)
  obtain ⟨inputs, fusedRead, fusedComputed⟩ :=
    fused_reads mem fusion sumsFit zeroFilled isWindowed read eq
  have isFused := run.node?_optimized
    (node?_of_mem run.sorted.unique (node?_some fusion.isConv).1) (fused_stays mem fusion).1
  rw [run.remapping.remapped_conv mem fusion] at isFused
  refine evaluates_of_reads isFused (fusedRead.imp fun fanin isFanin values stays => ?_)
    fusedComputed
  obtain ⟨faninWindowed, faninStays⟩ := fused_fanin mem fusion win isFanin
  exact stays.evaluates faninWindowed faninStays

omit mem in
theorem kept_of_evaluates (sumsFit : run.SumsFit) (zeroFilled : run.ZeroFilled) {name : NodeName}
    (evaluated : (graphNet semantics.eval run.sorted.graph).Evaluates name outputs) :
    Kept semantics run name outputs := by
  refine evaluates_induction (fun isNode read eq => ?_) evaluated
  rename_i name node arguments outputs
  obtain ⟨isMember, rfl⟩ := node?_some isNode
  refine ⟨⟨evaluates_of_reads isNode (read.imp fun _ _ _ both => both.1) eq, fun win stays => ?_⟩,
    node, arguments, isNode, read.imp fun _ _ _ both => both.2.toStays, eq⟩
  by_cases matched : ∃ found ∈ run.state.matched, found.conv2D = node.name
  · obtain ⟨found, mem, named⟩ := matched
    obtain ⟨fusion⟩ := run.remapping.fused found mem
    have isConv := fusion.isConv
    rw [named, isNode] at isConv
    obtain rfl := some.inj isConv
    exact fused_evaluates mem fusion sumsFit zeroFilled (read.imp fun _ _ _ both => both.2)
      eq win
  · have kept : remapped run.sorted.graph run.state.matched node = node :=
      remapped_of_unmatched fun found mem named => matched ⟨found, mem, named⟩
    have isKept := run.node?_optimized isNode stays
    rw [kept] at isKept
    refine evaluates_of_reads isKept (read.imp fun fanin isFanin values both => ?_) eq
    refine both.2.evaluates (win.fanin isNode isFanin) ?_
    exact run.fanin_not_deleted isMember stays (kept.symm ▸ isFanin)

end Values

end Run

/-- A node with the same inputs. A control input that was repeated is there once. -/
structure Unchanged (before after : NodeDef) : Prop where
  name : after.name = before.name
  op : after.op = before.op
  device : after.device = before.device
  attr : after.attr = before.attr
  regularFanins : after.regularFanins = before.regularFanins
  controllingFanins : ∀ control,
    control ∈ after.controllingFanins ↔ control ∈ before.controllingFanins
  distinct : before.controllingFanins.Nodup → after = before

theorem unchanged_addFanins (node : NodeDef) : Unchanged node (addFanins node) :=
  ⟨rfl, rfl, rfl, rfl, rfl, fun _ => mem_addFanins, addFanins_of_nodup⟩

/-- What the fusions with `VALID` and `EXPLICIT` convolutions are meant to keep. -/
structure Run.PreservesMeaning {item : GrapplerItem} (run : Run item) : Prop where
  paddings : ∀ found ∈ run.state.matched,
    ∀ fusion : Fusion run.sorted.graph item.nodesToPreserve found,
      IsValidOrExplicit fusion.conv → ∀ amounts, paddingAmounts fusion.tensor = some amounts →
        amounts.length = 8 → ∃ node, node? run.optimized.graph found.conv2D = some node ∧
          node.getAttr "padding" = some (.s "EXPLICIT") ∧
          node.getAttr "explicit_paddings" = some (.listI (fusion.sums amounts))
  deleted : ∀ found ∈ run.state.matched, found.pad ∉ item.nodesToPreserve ∧
    (∃ pad ∈ item.graph, pad.name = found.pad ∧ isPad pad = true) ∧
    SoleConsumer run.sorted.graph run.state.matched found
  fused : ∀ found ∈ run.state.matched,
    ∀ fusion : Fusion run.sorted.graph item.nodesToPreserve found, ∃ node input filter,
      node? run.optimized.graph found.conv2D = some node ∧ node.op = fusion.conv.op ∧
      node.device = fusion.conv.device ∧ node.controllingFanins = fusion.conv.controllingFanins ∧
      node.regularFanins = [input, filter] ∧ fusion.pad.regularFanins[0]? = some input ∧
      fusion.conv.regularFanins[1]? = some filter
  kept : ∀ before ∈ item.graph, before.name ∉ run.deleted → before.name ∉ run.convolutions →
    ∃ after ∈ run.optimized.graph, Unchanged before after
  others : ∀ after ∈ run.optimized.graph, after.name ∉ run.convolutions →
    ∃ before ∈ item.graph, before.name ∉ run.deleted ∧ Unchanged before after
  values : ∀ {V E : Type} [Zero E] (semantics : Semantics V E) {name : NodeName}
    {outputs : List V}, name ∉ run.deleted → run.Windowed name →
    (graphNet semantics.eval item.graph).Evaluates name outputs →
    (graphNet semantics.eval run.optimized.graph).Evaluates name outputs

namespace Run

variable {item : GrapplerItem} (run : Run item)

theorem node?_fused {found : PadWithConv2D} (mem : found ∈ run.state.matched)
    (fusion : Fusion run.sorted.graph item.nodesToPreserve found) :
    node? run.optimized.graph found.conv2D = some fusion.fused := by
  have isConvNode := node?_of_mem run.sorted.unique (node?_some fusion.isConv).1
  have isFused := run.node?_optimized isConvNode (fused_stays mem fusion).1
  rwa [run.remapping.remapped_conv mem fusion, fusion.conv_name] at isFused

theorem written_iff {found : PadWithConv2D} (mem : found ∈ run.state.matched)
    (fusion : Fusion run.sorted.graph item.nodesToPreserve found)
    (win : IsValidOrExplicit fusion.conv) :
    (∀ amounts, paddingAmounts fusion.tensor = some amounts → amounts.length = 8 →
      ∃ node, node? run.optimized.graph found.conv2D = some node ∧
        node.getAttr "padding" = some (.s "EXPLICIT") ∧
        node.getAttr "explicit_paddings" = some (.listI (fusion.sums amounts))) ↔ fusion.Fits := by
  obtain ⟨-, padding, put⟩ := getAttr_fused fusion.isFused
  rw [← Fusion.exact_iff win]
  refine forall₃_congr fun amounts isAmounts eight => ?_
  simp only [run.node?_fused mem fusion, Option.some.injEq, exists_eq_left', padding, put,
    true_and, AttrValue.listI.injEq]

/-- The fusions keep the meaning of the graph where the sums of the paddings fit and the pads
    fill in zeros, and only where the sums fit. -/
theorem preserves_meaning : (run.PreservesMeaning → run.SumsFit) ∧
      (run.SumsFit → run.ZeroFilled → run.PreservesMeaning) := by
  constructor
  · intro preserves found mem fusion win
    exact (run.written_iff mem fusion win).mp
      (preserves.paddings found mem fusion win)
  · intro sumsFit zeroFilled
    refine ⟨?_, ?_, ?_, ?_, ?_, ?_⟩
    · intro found mem fusion win
      exact (run.written_iff mem fusion win).mpr (sumsFit found mem fusion win)
    · intro found mem
      obtain ⟨fusion⟩ := run.remapping.fused found mem
      obtain ⟨pad, isPad, named⟩ := run.mem_sorted.mp fusion.pad_mem
      refine ⟨fusion.named ▸ fusion.notPreserved, ⟨pad, isPad, ?_, ?_⟩, run.soleConsumer mem⟩
      · rw [fusion.named, ← named, addFanins_name]
      · have pads := fusion.isPad
        rwa [← named] at pads
    · intro found mem fusion
      obtain ⟨-, op, device, controls, input, filter, isInput, isFilter, fanins⟩ :=
        fusion.fused_spec
      exact ⟨fusion.fused, input, filter, run.node?_fused mem fusion, op, device, controls,
        fanins, isInput, isFilter⟩
    · intro pre mem stays other
      rw [← addFanins_name pre] at other
      exact ⟨addFanins pre, (run.mem_optimized_of_other other).mpr ⟨pre, mem, stays, rfl⟩,
        unchanged_addFanins pre⟩
    · intro after mem other
      obtain ⟨pre, isBefore, stays, rfl⟩ := (run.mem_optimized_of_other other).mp mem
      exact ⟨pre, isBefore, stays, unchanged_addFanins pre⟩
    · intro V E _ semantics name outputs stays win evaluated
      rw [← run.graphNet_sorted] at evaluated
      exact (kept_of_evaluates sumsFit zeroFilled evaluated).evaluates win stays

end Run

section Example

variable (amounts : List Int)

/-- A pad before a `VALID` convolution, which is to be preserved. -/
def widenedGraph : List NodeDef :=
  [{ name := "x", op := "Placeholder" },
   { name := "paddings", op := "Const"
     attr := [("value", .tensor
       { dtype := .int64, tensorShape := some [4, 2], int64Val := amounts })] },
   { name := "pad", op := "Pad", attr := [("T", .type .float)]
     regularFanins := [⟨"x", 0⟩, ⟨"paddings", 0⟩] }, { name := "filter", op := "Placeholder" },
   { name := "conv", op := "Conv2D", regularFanins := [⟨"pad", 0⟩, ⟨"filter", 0⟩]
     attr := [("T", .type .float), ("data_format", .s "NHWC"), ("padding", .s "VALID"),
       ("explicit_paddings", .listI []), ("strides", .listI [1, 1, 1, 1]),
       ("dilations", .listI [1, 1, 1, 1]), ("use_cudnn_on_gpu", .b true)] }]

def widenedItem : GrapplerItem where
  graph := widenedGraph amounts
  nodesToPreserve := ["conv"]

def widenedProperties : InputProperties := fun name =>
  if name = "pad" then [⟨none⟩, ⟨some [4, 2]⟩] else [⟨none⟩, ⟨none⟩]

theorem widened_fusion {graph : List NodeDef} (isGraph : graph = widenedGraph amounts)
    {nodesToPreserve : List NodeName} {found : PadWithConv2D} (named : found.conv2D = "conv")
    (fusion : Fusion graph nodesToPreserve found) : IsValidOrExplicit fusion.conv ∧
      ownPaddings fusion.conv = List.replicate 8 0 ∧ fusion.pad.op = "Pad" ∧
      fusion.tensor = { dtype := .int64, tensorShape := some [4, 2], int64Val := amounts } := by
  subst isGraph
  have isConv := fusion.isConv
  rw [named] at isConv
  have reads := fusion.reads
  have isPaddings := fusion.isPaddings
  have isTensor := fusion.isTensor
  obtain isConv := some.inj isConv
  rw [← isConv] at reads
  rw [← some.inj reads] at isPaddings
  rw [← some.inj isPaddings] at isTensor
  rw [← isConv, ← some.inj reads]
  exact ⟨Or.inl rfl, rfl, rfl, (Except.ok.inj isTensor).symm⟩

end Example

def Run.inOrder (item : GrapplerItem) (inferStatically : Option InputProperties) :
    Option (Run item) :=
  match isView : MutableGraphView.ofGraph item.graph with
  | none => none
  | some view =>
    match isState : remap item inferStatically view with
    | none => none
    | some state =>
      match isOptimized : state.view.removeNodes (state.matched.map PadWithConv2D.pad) with
      | none => none
      | some optimized => some
          { inferStatically, view, sorted := view, state, optimized, isView, permuted := .rfl
            isState, isOptimized }

def unitRun : Run (widenedItem [0, 0, 1, 1, 1, 1, 0, 0]) :=
  (Run.inOrder _ (some widenedProperties)).get (by decide)

theorem unitRun_sorted : unitRun.sorted.graph = widenedGraph [0, 0, 1, 1, 1, 1, 0, 0] := by decide

theorem unitRun_matched : unitRun.state.matched = [⟨"pad", "conv", [0, 0, 1, 1, 1, 1, 0, 0]⟩] := by
  decide

theorem unitRun_sumsFit : unitRun.SumsFit := by
  intro found mem fusion win amounts isAmounts eight
  rw [unitRun_matched, mem_singleton] at mem
  obtain ⟨-, own, -, isTensor⟩ := widened_fusion _ unitRun_sorted (by rw [mem]) fusion
  rw [isTensor] at isAmounts
  obtain rfl : [0, 0, 1, 1, 1, 1, 0, 0] = amounts := some.inj isAmounts
  rw [Fusion.sums, own]
  decide

theorem unitRun_zeroFilled : unitRun.ZeroFilled := by
  intro found mem fusion win isPadV2
  rw [unitRun_matched, mem_singleton] at mem
  obtain ⟨-, -, isPad, -⟩ := widened_fusion _ unitRun_sorted (by rw [mem]) fusion
  simp [isPad] at isPadV2

/-- The one pixel, which is five, and a filter of one element, which is three. -/
def unitFeed (name : NodeName) : Option (ZeroExtended Int) :=
  if name = "x" then some (.ofFn [1, 1, 1, 1] fun _ => 5)
  else if name = "filter" then some (.ofFn [1, 1, 1, 1] fun _ => 3)
  else none

/-- The shape of a tensor, its center and the middle of its first row. -/
def centerAndEdge : Integers.Value → Option (List Nat × Int × Int)
  | .tensor elements => some (elements.shape, elements.get [0, 1, 1, 0], elements.get [0, 0, 1, 0])
  | .constant _ => none

/-- The convolution of the padded pixel is there without the pad. -/
theorem unitRun_preserves : unitRun.PreservesMeaning ∧ ∃ outputs,
    (graphNet (Integers.eval unitFeed) unitRun.optimized.graph).Evaluates "conv" outputs ∧
    outputs.map centerAndEdge = [some ([1, 3, 3, 1], 15, 0)] := by
  have preserves := unitRun.preserves_meaning.2 unitRun_sumsFit unitRun_zeroFilled
  have pre : ((graphNet (Integers.eval unitFeed)
      (widenedGraph [0, 0, 1, 1, 1, 1, 0, 0])).outputs 3 "conv").map (List.map centerAndEdge) =
        some [some ([1, 3, 3, 1], 15, 0)] := by decide
  obtain ⟨outputs, eq, desc⟩ := map_eq_some_iff.mp pre
  have stays : "conv" ∉ unitRun.deleted := by decide
  have win : unitRun.Windowed "conv" := by
    intro found mem fusion _
    rw [unitRun_matched, mem_singleton] at mem
    exact (widened_fusion _ unitRun_sorted (by rw [mem]) fusion).1
  exact ⟨preserves, outputs, preserves.values (Integers.semantics unitFeed) stays win
    (Dataflow.evaluates_of_outputs eq), desc⟩

def wideRun : Run (widenedItem [0, 0, 2 ^ 32, 0, 0, 0, 0, 0]) :=
  (Run.inOrder _ (some widenedProperties)).get (by decide)

theorem wideRun_truncates : ¬ ∀ item (run : Run item), run.PreservesMeaning := by
  intro claim
  have isGraph : wideRun.sorted.graph = widenedGraph [0, 0, 2 ^ 32, 0, 0, 0, 0, 0] := by decide
  have matched : wideRun.state.matched = [⟨"pad", "conv", [0, 0, 0, 0, 0, 0, 0, 0]⟩] := by decide
  have mem := matched ▸ mem_singleton_self _
  obtain ⟨fusion⟩ := wideRun.remapping.fused _ mem
  obtain ⟨win, own, -, isTensor⟩ := widened_fusion _ isGraph rfl fusion
  have fits := (wideRun.written_iff mem fusion win).mp
    ((claim _ wideRun).paddings _ mem fusion win) [0, 0, 2 ^ 32, 0, 0, 0, 0, 0]
    (isTensor ▸ rfl) rfl (2 ^ 32)
  rw [Fusion.sums, own] at fits
  exact absurd (fits (by decide)) (by decide)

end TfDml.Optimizer.Remapper
