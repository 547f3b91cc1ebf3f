import TfDml.Optimizer.RemapperPass
import TfDml.Optimizer.GraphValues
import Mathlib.Data.List.Pairwise

/-! # What a run of the remapper leaves

A run that returns a graph deletes pads that nothing else reads, gives the matched
convolutions their new inputs and paddings, and leaves every other node as the view had it.
-/

namespace TfDml.Optimizer.Remapper

open List

structure Run (item : GrapplerItem) where
  inferStatically : Option InputProperties
  view : MutableGraphView
  sorted : MutableGraphView
  state : State
  optimized : MutableGraphView
  isView : MutableGraphView.ofGraph item.graph = some view
  permuted : sorted.graph.Perm view.graph
  isState : remap item inferStatically sorted = some state
  isOptimized : state.view.removeNodes (state.matched.map PadWithConv2D.pad) = some optimized

theorem run_of_optimize {item : GrapplerItem} {inferStatically : Option InputProperties}
    {sortTopologically : (view : MutableGraphView) → Option (Sorted view)}
    {output : List NodeDef}
    (ret : optimize item inferStatically sortTopologically = some output) :
    ∃ run : Run item, run.inferStatically = inferStatically ∧ run.optimized.graph = output := by
  simp only [optimize, Option.bind_eq_bind, Option.bind_eq_some_iff, Option.some.injEq] at ret
  obtain ⟨view, isView, sorted, -, state, isState, opt, isOptimized, rfl⟩ := ret
  exact ⟨⟨inferStatically, view, sorted.1, state, opt, isView, sorted.2, isState,
    isOptimized⟩, rfl, rfl⟩

theorem node?_perm {graph other : List NodeDef} (permuted : graph.Perm other)
    (unique : (graph.map NodeDef.name).Nodup) (name : NodeName) :
    node? graph name = node? other name := by
  have unique' : (other.map NodeDef.name).Nodup := (permuted.map NodeDef.name).nodup_iff.mp unique
  cases found : node? other name with
  | none =>
    rw [node?, find?_eq_none] at found ⊢
    exact fun node mem => found node (permuted.mem_iff.mp mem)
  | some node =>
    obtain ⟨mem, rfl⟩ := node?_some found
    exact node?_of_mem unique (permuted.mem_iff.mpr mem)

section Fusion

variable {graph : List NodeDef} {nodesToPreserve : List NodeName} {found : PadWithConv2D}
  (fusion : Fusion graph nodesToPreserve found)

theorem Fusion.conv_name : fusion.conv.name = found.conv2D := (node?_some fusion.isConv).2

theorem Fusion.pad_mem : fusion.pad ∈ graph := by
  obtain ⟨fanin, -, isPad⟩ := faninNode_eq_some.mp fusion.reads
  exact (node?_some isPad).1

theorem Fusion.node?_pad (unique : (graph.map NodeDef.name).Nodup) :
    node? graph found.pad = some fusion.pad := by
  rw [fusion.named]
  exact node?_of_mem unique fusion.pad_mem

theorem Fusion.fused_spec : fusion.fused.name = fusion.conv.name ∧
    fusion.fused.op = fusion.conv.op ∧ fusion.fused.device = fusion.conv.device ∧
    fusion.fused.controllingFanins = fusion.conv.controllingFanins ∧
    ∃ input filter, fusion.pad.regularFanins[0]? = some input ∧
      fusion.conv.regularFanins[1]? = some filter ∧
      fusion.fused.regularFanins = [input, filter] := by
  obtain ⟨input, filter, _, isInput, isFilter, -, made⟩ := fusedConv2D_eq_some fusion.isFused
  rw [made, fusion.convFanins]
  exact ⟨rfl, rfl, rfl, rfl, input, filter, isInput, isFilter, rfl⟩

end Fusion

/-- How many inputs the operations of a match have; of others, every input counts. -/
def numInputs (node : NodeDef) : Nat :=
  if isConv2D node || node.op = "Pad" then 2
  else if node.op = "PadV2" then 3
  else node.regularFanins.length

/-- Nothing but the convolution reads the pad: each input that reads it is the first one of a
    convolution that was fused with it, and one alone reads its output. -/
structure SoleConsumer (graph : List NodeDef) (matched : List PadWithConv2D)
    (found : PadWithConv2D) : Prop where
  inputs : ∀ node ∈ graph, ∀ index < numInputs node, ∀ port,
    node.regularFanins[index]? = some ⟨found.pad, port⟩ →
    index = 0 ∧ ∃ other ∈ matched, other.pad = found.pad ∧ other.conv2D = node.name
  single : ReadsOutput graph found → ∀ other ∈ matched, ReadsOutput graph other →
    other.pad = found.pad → other = found
  controls : ∀ node ∈ graph, found.pad ∉ node.controllingFanins

namespace Run

variable {item : GrapplerItem} (run : Run item)

def deleted : List NodeName := run.state.matched.map PadWithConv2D.pad

def convolutions : List NodeName := run.state.matched.map PadWithConv2D.conv2D

theorem remapping : Remapping run.sorted.graph item.nodesToPreserve run.state :=
  remapping_of_remap run.isState

theorem fanoutsWellFormed : MutableGraphView.FanoutsWellFormed run.state.view.graph run.deleted :=
  (MutableGraphView.removeNodes_eq_some run.isOptimized).1

variable {name : NodeName} {node : NodeDef}

theorem pad_of_deleted (isDeleted : name ∈ run.deleted)
    (isNode : node? run.sorted.graph name = some node) : ∃ found ∈ run.state.matched,
      ∃ fusion : Fusion run.sorted.graph item.nodesToPreserve found, fusion.pad = node := by
  obtain ⟨found, mem, rfl⟩ := mem_map.mp isDeleted
  obtain ⟨fusion⟩ := run.remapping.fused found mem
  refine ⟨found, mem, fusion, ?_⟩
  exact Option.some.inj ((fusion.node?_pad run.sorted.unique).symm.trans isNode)

theorem not_deleted (isNode : node? run.sorted.graph name = some node)
    (other : isPad node = false) : name ∉ run.deleted := by
  intro isDeleted
  obtain ⟨_, -, fusion, rfl⟩ := run.pad_of_deleted isDeleted isNode
  exact absurd fusion.isPad (by simp [other])

theorem mem_optimized : node ∈ run.optimized.graph ↔
    ∃ pre ∈ run.sorted.graph, pre.name ∉ run.deleted ∧
      remapped run.sorted.graph run.state.matched pre = node := by
  rw [(MutableGraphView.removeNodes_eq_some run.isOptimized).2, mem_removeNodesInternal,
    run.remapping.graph_eq, mem_map]
  constructor
  · rintro ⟨⟨pre, mem, rfl⟩, stays⟩
    rw [remapped_name] at stays
    exact ⟨pre, mem, stays, rfl⟩
  · rintro ⟨pre, mem, stays, rfl⟩
    rw [remapped_name]
    exact ⟨⟨pre, mem, rfl⟩, stays⟩

theorem fanin_not_deleted {pre : NodeDef} (mem : pre ∈ run.sorted.graph)
    (stays : pre.name ∉ run.deleted) {fanin : TensorId}
    (reads : fanin ∈ (remapped run.sorted.graph run.state.matched pre).regularFanins) :
    fanin.node ∉ run.deleted := by
  have inView : remapped run.sorted.graph run.state.matched pre ∈ run.state.view.graph := by
    rw [run.remapping.graph_eq]
    exact mem_map_of_mem mem
  exact (run.fanoutsWellFormed _ inView (by rwa [remapped_name])).1 fanin reads

section Found

variable {run} {found : PadWithConv2D} (mem : found ∈ run.state.matched)
  (fusion : Fusion run.sorted.graph item.nodesToPreserve found)

include mem

theorem fused_stays : fusion.conv.name ∉ run.deleted ∧
    (∀ input, fusion.pad.regularFanins[0]? = some input → input.node ∉ run.deleted) ∧
    ∀ filter, fusion.conv.regularFanins[1]? = some filter → filter.node ∉ run.deleted := by
  obtain ⟨convMember, -⟩ := node?_some fusion.isConv
  have stays : fusion.conv.name ∉ run.deleted := by
    refine run.not_deleted (node?_of_mem run.sorted.unique convMember) ?_
    simp [isPad, of_decide_eq_true fusion.isConv2D]
  obtain ⟨-, -, -, -, input, filter, isInput, isFilter, fanins⟩ := fusion.fused_spec
  have kept {fanin : TensorId} (isFanin : fanin ∈ fusion.fused.regularFanins) :
      fanin.node ∉ run.deleted := by
    rw [← run.remapping.remapped_conv mem fusion] at isFanin
    exact run.fanin_not_deleted convMember stays isFanin
  rw [fanins] at kept
  refine ⟨stays, fun input' isInput' => ?_, fun filter' isFilter' => ?_⟩
  · obtain rfl := Option.some.inj (isInput.symm.trans isInput')
    exact kept mem_cons_self
  · obtain rfl := Option.some.inj (isFilter.symm.trans isFilter')
    exact kept (mem_cons_of_mem _ mem_cons_self)

variable {index : Nat} {fanin : TensorId}

theorem pad_reads_kept (isInput : index < numInputs fusion.pad)
    (reads : fusion.pad.regularFanins[index]? = some fanin) : fanin.node ∉ run.deleted := by
  have constant {src : NodeDef} (isFanin : faninNode run.sorted.graph fusion.pad index =
      some src) (isConst : isConstant src = true) : fanin.node ∉ run.deleted := by
    obtain ⟨fanin', reads', isSource⟩ := faninNode_eq_some.mp isFanin
    obtain rfl := Option.some.inj (reads.symm.trans reads')
    refine run.not_deleted isSource ?_
    simp [isPad, of_decide_eq_true isConst]
  have notConv := isConv2D_of_isPad fusion.isPad
  rcases index with _ | _ | index
  · exact (fused_stays mem fusion).2.1 fanin reads
  · exact constant fusion.isPaddings fusion.constant
  · have isOp : fusion.pad.op = "Pad" ∨ fusion.pad.op = "PadV2" := by
      simpa [isPad] using fusion.isPad
    rcases isOp with isOp | isOp
    · simp only [numInputs, isOp, decide_true, Bool.or_true, if_true] at isInput
      omega
    · obtain rfl : index = 0 := by
        simp [numInputs, notConv, isOp] at isInput
        omega
      obtain ⟨src, -, isFanin, isConst, -⟩ := fusion.padConstant isOp
      exact constant isFanin isConst

theorem conv_reads_pad (isInput : index < numInputs fusion.conv)
    (reads : fusion.conv.regularFanins[index]? = some fanin)
    (isDeleted : fanin.node ∈ run.deleted) : index = 0 ∧ found.pad = fanin.node := by
  have two : numInputs fusion.conv = 2 := by simp [numInputs, fusion.isConv2D]
  obtain ⟨fanin', reads', isPad⟩ := faninNode_eq_some.mp fusion.reads
  match index with
  | 0 =>
    obtain rfl := Option.some.inj (reads.symm.trans reads')
    exact ⟨rfl, fusion.named.trans (node?_some isPad).2⟩
  | 1 => exact absurd isDeleted ((fused_stays mem fusion).2.2 fanin reads)
  | index + 2 => omega

end Found

theorem soleConsumer {found : PadWithConv2D} (mem : found ∈ run.state.matched) :
    SoleConsumer run.sorted.graph run.state.matched found := by
  obtain ⟨fusion⟩ := run.remapping.fused found mem
  have isDeleted : found.pad ∈ run.deleted := mem_map_of_mem mem
  refine ⟨?_, ?_, ?_⟩
  · intro node isNode index isInput port reads
    have isNode' := node?_of_mem run.sorted.unique isNode
    by_cases stays : node.name ∈ run.deleted
    · obtain ⟨other, isOther, fusion', rfl⟩ := run.pad_of_deleted stays isNode'
      exact absurd isDeleted (pad_reads_kept isOther fusion' isInput reads)
    · by_cases matched : ∃ other ∈ run.state.matched, other.conv2D = node.name
      · obtain ⟨other, isOther, named⟩ := matched
        obtain ⟨fusion'⟩ := run.remapping.fused other isOther
        obtain rfl : fusion'.conv = node := by
          have isConv := fusion'.isConv
          rw [named] at isConv
          exact Option.some.inj (isConv.symm.trans isNode')
        obtain ⟨first, same⟩ := conv_reads_pad isOther fusion' isInput reads isDeleted
        exact ⟨first, other, isOther, same, named⟩
      · have kept : remapped run.sorted.graph run.state.matched node = node :=
          remapped_of_unmatched fun other isOther named => matched ⟨other, isOther, named⟩
        have reads' := mem_of_getElem? reads
        rw [← kept] at reads'
        exact absurd isDeleted (run.fanin_not_deleted isNode stays reads')
  · intro readsOutput other isOther otherReads same
    by_contra differ
    have : Std.Symm fun newer older : PadWithConv2D =>
        ReadsOutput run.sorted.graph newer → ReadsOutput run.sorted.graph older →
          newer.pad ≠ older.pad :=
      ⟨fun _ _ apart reads reads' => (apart reads' reads).symm⟩
    exact run.remapping.single.forall isOther mem differ otherReads readsOutput same
  · intro node isNode controls
    have none := fusion.padFanouts
    rw [numControlledFanouts, length_eq_zero_iff, filter_eq_nil_iff] at none
    exact none node isNode (decide_eq_true (fusion.named ▸ controls))

theorem mem_sorted : node ∈ run.sorted.graph ↔ ∃ pre ∈ item.graph, addFanins pre = node := by
  rw [run.permuted.mem_iff, MutableGraphView.ofGraph_eq_some run.isView, mem_map]

theorem mem_optimized_of_other (other : node.name ∉ run.convolutions) : node ∈ run.optimized.graph ↔
      ∃ before ∈ item.graph, before.name ∉ run.deleted ∧ addFanins before = node := by
  have unmatched {before : NodeDef} (named : before.name = node.name) :
      remapped run.sorted.graph run.state.matched before = before :=
    remapped_of_unmatched fun found mem same =>
      other (mem_map.mpr ⟨found, mem, same.trans named⟩)
  rw [run.mem_optimized]
  constructor
  · rintro ⟨before, mem, stays, rfl⟩
    obtain ⟨src, isSource, rfl⟩ := run.mem_sorted.mp mem
    exact ⟨src, isSource, stays, (unmatched (remapped_name _).symm).symm⟩
  · rintro ⟨before, mem, stays, rfl⟩
    exact ⟨addFanins before, run.mem_sorted.mpr ⟨before, mem, rfl⟩, stays, unmatched rfl⟩

theorem graphNet_sorted {V : Type} (eval : Evaluation V) :
    graphNet eval run.sorted.graph = graphNet eval item.graph := by
  have found (name : NodeName) :
      node? run.sorted.graph name = (node? item.graph name).map addFanins := by
    rw [node?_perm run.permuted run.sorted.unique, MutableGraphView.ofGraph_eq_some run.isView,
      node?_map fun node _ => addFanins_name node]
  simp only [graphNet, found]
  congr 1
  · funext name
    cases node? item.graph name with
    | none => rfl
    | some node => rfl
  · funext name inputs
    cases node? item.graph name with
    | none => rfl
    | some node => rfl

theorem node?_optimized (isNode : node? run.sorted.graph name = some node)
    (stays : name ∉ run.deleted) : node? run.optimized.graph name =
      some (remapped run.sorted.graph run.state.matched node) := by
  obtain ⟨mem, rfl⟩ := node?_some isNode
  have kept := run.mem_optimized.mpr ⟨node, mem, stays, rfl⟩
  have found := node?_of_mem run.optimized.unique kept
  rwa [remapped_name] at found

end Run

end TfDml.Optimizer.Remapper
