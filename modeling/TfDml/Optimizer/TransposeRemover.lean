import TfDml.Lib.Run
import TfDml.Optimizer.DeviceName

/-! # Removing layout transposes around `FusedBatchNormGrad`

The updates of all nodes are collected in one mutation while the view stays as it is, and
are applied together at the end.
-/

namespace TfDml.Optimizer.TransposeRemover

open List

def getDimensionIndices (dataFormat : String) : List (Char × Int) :=
  dataFormat.toList.zipIdx.foldl (fun index (c, i) => (c, (i : Int)) :: index) []

/-- Nothing if the source format lacks a dimension. -/
def getPermutation (srcDimIndices : List (Char × Int)) (dstFormat : String) : Option (List Int) :=
  dstFormat.toList.mapM fun c => srcDimIndices.lookup c

def srcToDst : List Int := (getPermutation (getDimensionIndices "NHWC") "NCHW").getD []

def dstToSrc : List Int := (getPermutation (getDimensionIndices "NCHW") "NHWC").getD []

/-- The elements of the permutation from an index on; nothing beyond the constant. -/
def permEquals (element : ElementType Int) (permTensor : TensorProto) : Nat → List Int → Option Bool
  | _, [] => some true
  | i, expected :: rest => do
    let permValue ← getTensorElement element permTensor i
    if permValue = expected then permEquals element permTensor (i + 1) rest else some false

def isPerm (permTensor : TensorProto) (expectedPerm : List Int) : Option Bool :=
  if permTensor.tensorShape ≠ some [(expectedPerm.length : Int)] then some false
  else if getNumElements permTensor ≠ expectedPerm.length then some false
  else
    match permTensor.dtype with
    | .int32 => permEquals int32Element permTensor 0 expectedPerm
    | .int64 => permEquals int64Element permTensor 0 expectedPerm
    | _ => some false

/-- Nothing where a transpose without a permutation is dereferenced. -/
def isLayoutTranspose (graph : List NodeDef) (expectedPerm : List Int)
    (transposeNode : NodeDef) : Option Bool :=
  if isTranspose transposeNode then do
    let permNode ← faninNode graph transposeNode 1
    if isConstant permNode then
      match permNode.getAttr "value" with
      | some (.tensor permTensor) => isPerm permTensor expectedPerm
      | _ => some false
    else some false
  else some false

def requireLayoutTranspose (graph : List NodeDef) (expectedPerm : List Int)
    (node : Option NodeDef) : Matching Unit := do
  require (← defined (isLayoutTranspose graph expectedPerm (← defined node)))

/-- The checks that are made before anything is queued, and the two input transposes. -/
def findTransposes (graph : List NodeDef) (node : NodeDef) : Matching (NodeDef × NodeDef) := do
  require (isOnDml node)
  require (isFusedBatchNormGrad node)
  require (node.getAttr "data_format" = some (.s "NHWC"))
  require (2 ≤ node.regularFanins.length)
  let transposeNode0 ← defined (faninNode graph node 0)
  let transposeNode1 ← defined (faninNode graph node 1)
  requireLayoutTranspose graph dstToSrc (some transposeNode0)
  requireLayoutTranspose graph dstToSrc (some transposeNode1)
  require (hasRegularFanouts graph node.name)
  (regularFanout graph ⟨node.name, 0⟩).forM fun fanout =>
    requireLayoutTranspose graph srcToDst (node? graph fanout.node)
  .ok (transposeNode0, transposeNode1)

section Rewriting

variable (graph : List NodeDef) (nodesToPreserve : List NodeName)

def rerouteFanouts (name transpose : NodeName) (mutation : Mutation) : Mutation :=
  (regularFanout graph ⟨transpose, 0⟩).foldl
    (fun mutation transposeFanout => mutation.addOrUpdateRegularFanin transposeFanout ⟨name, 0⟩)
    mutation

/-- Reroutes the fanouts of the output transposes up to the first that must be preserved, and
    tells whether there is one. -/
def removeOutputTransposes (name : NodeName) : List FaninView → Mutation → Mutation × Bool
  | [], mutation => (mutation, false)
  | fanout :: rest, mutation =>
    if fanout.node ∈ nodesToPreserve then (mutation, true)
    else removeOutputTransposes name rest (rerouteFanouts graph name fanout.node mutation)

/-- Connects the inputs of the two transposes to the node, and changes its format. -/
def removeInputTransposes (name : NodeName) (transposeNode0 transposeNode1 : NodeDef)
    (mutation : Mutation) : Option Mutation := do
  let fanin0 ← transposeNode0.regularFanins[0]?
  let mutation := mutation.addOrUpdateRegularFanin ⟨name, 0⟩ fanin0
  let fanin1 ← transposeNode1.regularFanins[0]?
  let mutation := mutation.addOrUpdateRegularFanin ⟨name, 1⟩ fanin1
  some (mutation.addOrUpdateNodeAttr name "data_format" (.s "NCHW"))

def visitNode (mutation : Mutation) (node : NodeDef) : Option Mutation :=
  match findTransposes graph node with
  | .error .noMatch => some mutation
  | .error .undefined => none
  | .ok (transposeNode0, transposeNode1) =>
    let (mutation, shouldPreserveOutput) := removeOutputTransposes graph nodesToPreserve
      node.name (regularFanout graph ⟨node.name, 0⟩) mutation
    if shouldPreserveOutput then some mutation
    else removeInputTransposes node.name transposeNode0 transposeNode1 mutation

end Rewriting

/-- Nothing where the code goes on with something that is not there; otherwise the graph, or
    no graph if the mutation was refused. -/
def optimize (view : MutableGraphView) (nodesToPreserve : List NodeName) :
    Option (Option (List NodeDef)) := do
  let mutation ← view.graph.foldlM (visitNode view.graph nodesToPreserve) {}
  some (mutation.apply view.graph)

theorem permutations : srcToDst = [0, 3, 1, 2] ∧ dstToSrc = [0, 2, 3, 1] := by decide

variable {permTensor : TensorProto} {first second : List Int}

theorem permEquals_inj {x : ElementType Int} {i : Nat}
    (isFirst : permEquals x permTensor i first = some true)
    (isSecond : permEquals x permTensor i second = some true)
    (lens : first.length = second.length) : first = second := by
  induction first generalizing i second with
  | nil => exact (length_eq_zero_iff.mp lens.symm).symm
  | cons a first ih =>
    cases second with
    | nil => simp at lens
    | cons b second =>
      simp only [permEquals, Option.bind_eq_bind, Option.bind_eq_some_iff] at isFirst isSecond
      obtain ⟨value, read, rest⟩ := isFirst
      obtain ⟨value', read', rest'⟩ := isSecond
      obtain rfl := Option.some.inj (read.symm.trans read')
      split at rest
      · split at rest'
        · rename_i isA isB
          rw [← isA, ← isB, ih rest rest' (Nat.succ.inj lens)]
        · simp at rest'
      · simp at rest

theorem isPerm_inj (isFirst : isPerm permTensor first = some true)
    (isSecond : isPerm permTensor second = some true) : first = second := by
  unfold isPerm at isFirst isSecond
  split at isFirst
  · simp at isFirst
  split at isSecond
  · simp at isSecond
  rename_i shape shape'
  have lens : first.length = second.length := by
    have same := (not_not.mp shape).symm.trans (not_not.mp shape')
    simpa using same
  split at isFirst
  · simp at isFirst
  split at isSecond
  · simp at isSecond
  cases dtype : permTensor.dtype <;> simp only [dtype] at isFirst isSecond
  case int32 => exact permEquals_inj isFirst isSecond lens
  case int64 => exact permEquals_inj isFirst isSecond lens
  all_goals simp at isFirst

variable {perm : List Int} {node : NodeDef}

theorem isLayoutTranspose_eq_true {graph : List NodeDef} :
    isLayoutTranspose graph perm node = some true ↔
      isTranspose node = true ∧ ∃ permNode permTensor, faninNode graph node 1 = some permNode ∧
        isConstant permNode = true ∧ permNode.getAttr "value" = some (.tensor permTensor) ∧
        isPerm permTensor perm = some true := by
  unfold isLayoutTranspose
  constructor
  · intro layout
    split at layout
    · rename_i transposes
      simp only [Option.bind_eq_bind, Option.bind_eq_some_iff] at layout
      obtain ⟨permNode, got, rest⟩ := layout
      split at rest
      · rename_i constant
        split at rest
        · rename_i permTensor isValue
          exact ⟨transposes, permNode, permTensor, got, constant, isValue, rest⟩
        · simp at rest
      · simp at rest
    · simp at layout
  · rintro ⟨transposes, permNode, permTensor, got, constant, isValue, permutes⟩
    simp [transposes, got, constant, isValue, permutes]

theorem isLayoutTranspose_inj {graph : List NodeDef}
    (isFirst : isLayoutTranspose graph first node = some true)
    (isSecond : isLayoutTranspose graph second node = some true) : first = second := by
  obtain ⟨-, permNode, permTensor, got, -, isValue, permutes⟩ :=
    isLayoutTranspose_eq_true.mp isFirst
  obtain ⟨-, permNode', permTensor', got', -, isValue', permutes'⟩ :=
    isLayoutTranspose_eq_true.mp isSecond
  obtain rfl := Option.some.inj (got.symm.trans got')
  obtain rfl := AttrValue.tensor.inj (Option.some.inj (isValue.symm.trans isValue'))
  exact isPerm_inj permutes permutes'

structure Candidate (graph : List NodeDef) (node transposeNode0 transposeNode1 : NodeDef) :
    Prop where
  onDml : isOnDml node = true
  isGrad : isFusedBatchNormGrad node = true
  format : node.getAttr "data_format" = some (.s "NHWC")
  fanin0 : faninNode graph node 0 = some transposeNode0
  fanin1 : faninNode graph node 1 = some transposeNode1
  layout0 : isLayoutTranspose graph dstToSrc transposeNode0 = some true
  layout1 : isLayoutTranspose graph dstToSrc transposeNode1 = some true
  isRead : hasRegularFanouts graph node.name = true
  fanouts : ∀ fanout ∈ regularFanout graph ⟨node.name, 0⟩, ∃ transposeNode,
    node? graph fanout.node = some transposeNode ∧
      isLayoutTranspose graph srcToDst transposeNode = some true

theorem requireLayoutTranspose_eq_ok {graph : List NodeDef} {node : Option NodeDef}
    {result : Unit} : requireLayoutTranspose graph perm node = .ok result ↔
      ∃ got, node = some got ∧ isLayoutTranspose graph perm got = some true := by
  simp [requireLayoutTranspose, bind_eq_ok]

theorem findTransposes_eq_ok {graph : List NodeDef} {transposeNode0 transposeNode1 : NodeDef} :
    findTransposes graph node = .ok (transposeNode0, transposeNode1) ↔
      Candidate graph node transposeNode0 transposeNode1 := by
  simp only [findTransposes, bind_eq_ok, require_eq_ok, defined_eq_ok, Except.ok.injEq,
    requireLayoutTranspose_eq_ok, Lib.forM_eq_ok, decide_eq_true_eq, Prod.mk.injEq]
  constructor
  · rintro ⟨-, onDml, -, isGrad, -, format, -, -, first, fanin0, second, fanin1, -,
      ⟨_, ⟨⟩, layout0⟩, -, ⟨_, ⟨⟩, layout1⟩, -, isRead, ⟨⟩, fanouts, rfl, rfl⟩
    exact ⟨onDml, isGrad, format, fanin0, fanin1, layout0, layout1, isRead, fanouts⟩
  · intro cand
    obtain ⟨fanin, isFanin, -⟩ := faninNode_eq_some.mp cand.fanin1
    have two : 2 ≤ node.regularFanins.length := (List.getElem?_eq_some_iff.mp isFanin).1
    exact ⟨(), cand.onDml, (), cand.isGrad, (), cand.format, (), two, _,
      cand.fanin0, _, cand.fanin1, (), ⟨_, rfl, cand.layout0⟩, (),
      ⟨_, rfl, cand.layout1⟩, (), cand.isRead, (), cand.fanouts, rfl, rfl⟩

section Updates

variable (graph : List NodeDef) (nodesToPreserve : List NodeName)

def reroutedFanouts (name : NodeName) : List FaninView :=
  (regularFanout graph ⟨name, 0⟩).takeWhile (·.node ∉ nodesToPreserve)

structure Rewritten (node transposeNode0 transposeNode1 : NodeDef) : Prop extends
    Candidate graph node transposeNode0 transposeNode1 where
  notPreserved : ∀ fanout ∈ regularFanout graph ⟨node.name, 0⟩, fanout.node ∉ nodesToPreserve

inductive Update (node : NodeDef) : FaninView → TensorId → Prop
  | reroute {transposeNode0 transposeNode1 : NodeDef} {fanout consumer : FaninView}
      (candidate : Candidate graph node transposeNode0 transposeNode1)
      (isRerouted : fanout ∈ reroutedFanouts graph nodesToPreserve node.name)
      (reads : consumer ∈ regularFanout graph ⟨fanout.node, 0⟩) :
      Update node consumer ⟨node.name, 0⟩
  | first {transposeNode0 transposeNode1 : NodeDef} {source : TensorId}
      (rewritten : Rewritten graph nodesToPreserve node transposeNode0 transposeNode1)
      (isSource : transposeNode0.regularFanins[0]? = some source) :
      Update node ⟨node.name, 0⟩ source
  | second {transposeNode0 transposeNode1 : NodeDef} {source : TensorId}
      (rewritten : Rewritten graph nodesToPreserve node transposeNode0 transposeNode1)
      (isSource : transposeNode1.regularFanins[0]? = some source) :
      Update node ⟨node.name, 1⟩ source

end Updates

section Queue

variable {graph : List NodeDef} {nodesToPreserve : List NodeName}

theorem rerouteFanouts_spec (graph : List NodeDef) (name transpose : NodeName)
    (mutation : Mutation) :
    ∃ newer, (rerouteFanouts graph name transpose mutation).regularInputsToUpdate =
        newer ++ mutation.regularInputsToUpdate ∧
      (rerouteFanouts graph name transpose mutation).attrsToAdd = mutation.attrsToAdd ∧
      ∀ input fanin, (input, fanin) ∈ newer ↔
        input ∈ regularFanout graph ⟨transpose, 0⟩ ∧ fanin = ⟨name, 0⟩ := by
  unfold rerouteFanouts
  induction regularFanout graph ⟨transpose, 0⟩ generalizing mutation with
  | nil => exact ⟨[], rfl, rfl, by simp⟩
  | cons consumer rest ih =>
    obtain ⟨newer, queued, attrs, members⟩ :=
      ih (mutation.addOrUpdateRegularFanin consumer ⟨name, 0⟩)
    refine ⟨newer ++ [(consumer, ⟨name, 0⟩)], ?_, attrs, fun input fanin => ?_⟩
    · rw [foldl_cons, queued]
      simp [Mutation.addOrUpdateRegularFanin]
    · simp only [mem_append, members, Prod.mk.injEq, mem_cons]
      tauto

theorem removeOutputTransposes_spec (graph : List NodeDef) (nodesToPreserve : List NodeName)
    (name : NodeName) (fanouts : List FaninView) (mutation : Mutation) :
    ∃ newer, (removeOutputTransposes graph nodesToPreserve name fanouts
          mutation).1.regularInputsToUpdate = newer ++ mutation.regularInputsToUpdate ∧
      (removeOutputTransposes graph nodesToPreserve name fanouts mutation).1.attrsToAdd =
        mutation.attrsToAdd ∧
      ((removeOutputTransposes graph nodesToPreserve name fanouts mutation).2 = false ↔
        ∀ fanout ∈ fanouts, fanout.node ∉ nodesToPreserve) ∧
      ∀ input fanin, (input, fanin) ∈ newer ↔ fanin = ⟨name, 0⟩ ∧
        ∃ fanout ∈ fanouts.takeWhile (·.node ∉ nodesToPreserve),
          input ∈ regularFanout graph ⟨fanout.node, 0⟩ := by
  induction fanouts generalizing mutation with
  | nil => exact ⟨[], rfl, rfl, by simp [removeOutputTransposes], by simp⟩
  | cons fanout rest ih =>
    by_cases preserved : fanout.node ∈ nodesToPreserve
    · simp only [removeOutputTransposes, if_pos preserved]
      exact ⟨[], rfl, trivial, by simp [preserved], by simp [preserved]⟩
    · simp only [removeOutputTransposes, if_neg preserved]
      obtain ⟨later, queued, attrs, met, members⟩ :=
        ih (rerouteFanouts graph name fanout.node mutation)
      obtain ⟨newer, queued', attrs', members'⟩ :=
        rerouteFanouts_spec graph name fanout.node mutation
      refine ⟨later ++ newer, ?_, attrs.trans attrs', ?_, fun input fanin => ?_⟩
      · rw [queued, queued', append_assoc]
      · rw [met, forall_mem_cons]
        exact ⟨fun others => ⟨preserved, others⟩, fun all => all.2⟩
      · rw [mem_append, members, members', takeWhile_cons_of_pos (by simpa)]
        constructor
        · rintro (⟨isName, other, isRerouted, reads⟩ | ⟨reads, isName⟩)
          · exact ⟨isName, other, mem_cons_of_mem _ isRerouted, reads⟩
          · exact ⟨isName, fanout, mem_cons_self, reads⟩
        · rintro ⟨isName, other, isRerouted, reads⟩
          cases isRerouted with
          | head => exact Or.inr ⟨reads, isName⟩
          | tail _ later => exact Or.inl ⟨isName, other, later, reads⟩

variable {node : NodeDef}

theorem Candidate.unique {first second first' second' : NodeDef}
    (cand : Candidate graph node first second)
    (cand' : Candidate graph node first' second') : first' = first ∧ second' = second :=
  ⟨Option.some.inj (cand'.fanin0.symm.trans cand.fanin0),
    Option.some.inj (cand'.fanin1.symm.trans cand.fanin1)⟩

variable {input : FaninView} {fanin : TensorId}

theorem Update.candidate (update : Update graph nodesToPreserve node input fanin) :
    ∃ transposeNode0 transposeNode1, Candidate graph node transposeNode0 transposeNode1 := by
  cases update with
  | reroute cand => exact ⟨_, _, cand⟩
  | first new => exact ⟨_, _, new.toCandidate⟩
  | second new => exact ⟨_, _, new.toCandidate⟩

variable {mutation : Mutation}

theorem visitNode_spec {next : Mutation}
    (seen : visitNode graph nodesToPreserve mutation node = some next) :
    (∃ newer, next.regularInputsToUpdate = newer ++ mutation.regularInputsToUpdate ∧
      ∀ input fanin, (input, fanin) ∈ newer ↔ Update graph nodesToPreserve node input fanin) ∧
    ∃ newer, next.attrsToAdd = newer ++ mutation.attrsToAdd ∧
      ∀ update, update ∈ newer ↔ update = ((node.name, "data_format"), .s "NCHW") ∧
        ∃ transposeNode0 transposeNode1,
          Rewritten graph nodesToPreserve node transposeNode0 transposeNode1 := by
  unfold visitNode at seen
  split at seen
  · rename_i unmatched
    have none {first second : NodeDef} : ¬ Candidate graph node first second := by
      intro cand
      rw [findTransposes_eq_ok.mpr cand] at unmatched
      cases unmatched
    obtain rfl := Option.some.inj seen
    refine ⟨⟨[], rfl, fun input fanin => ?_⟩, [], rfl, fun update => ?_⟩
    · refine iff_of_false not_mem_nil fun update => ?_
      obtain ⟨_, _, cand⟩ := update.candidate
      exact none cand
    · refine iff_of_false not_mem_nil fun ⟨_, _, _, new⟩ => ?_
      exact none new.toCandidate
  · cases seen
  · rename_i first second matched
    have cand := findTransposes_eq_ok.mp matched
    obtain ⟨newer, queued, attrs, met, members⟩ := removeOutputTransposes_spec graph
      nodesToPreserve node.name (regularFanout graph ⟨node.name, 0⟩) mutation
    have rerouted {input : FaninView} {fanin : TensorId} (mem : (input, fanin) ∈ newer) :
        Update graph nodesToPreserve node input fanin := by
      obtain ⟨rfl, fanout, isRerouted, reads⟩ := (members input fanin).mp mem
      exact .reroute cand isRerouted reads
    simp only at seen
    split at seen
    · rename_i preserves
      obtain rfl := Option.some.inj seen
      have none {first second : NodeDef} : ¬ Rewritten graph nodesToPreserve node first second := by
        intro new
        rw [met.mpr new.notPreserved] at preserves
        cases preserves
      refine ⟨⟨newer, queued, fun input fanin => ⟨rerouted, fun update => ?_⟩⟩, [], attrs,
        fun update => ?_⟩
      · cases update with
        | reroute _ isRerouted reads => exact (members _ _).mpr ⟨rfl, _, isRerouted, reads⟩
        | first new => exact absurd new none
        | second new => exact absurd new none
      · exact iff_of_false not_mem_nil fun ⟨_, _, _, new⟩ => none new
    · rename_i preserves
      have new : Rewritten graph nodesToPreserve node first second :=
        ⟨cand, met.mp (Bool.not_eq_true _ ▸ preserves)⟩
      simp only [removeInputTransposes, Option.bind_eq_bind, Option.bind_eq_some_iff,
        Option.some.injEq] at seen
      obtain ⟨src0, isSource0, src1, isSource1, rfl⟩ := seen
      refine ⟨⟨(⟨node.name, 1⟩, src1) :: (⟨node.name, 0⟩, src0) :: newer,
        congrArg (_ :: _ :: ·) queued, fun input fanin => ⟨fun mem => ?_, fun update => ?_⟩⟩,
        [((node.name, "data_format"), .s "NCHW")], congrArg (_ :: ·) attrs, fun update => ?_⟩
      · cases mem with
        | head => exact .second new isSource1
        | tail _ mem =>
          cases mem with
          | head => exact .first new isSource0
          | tail _ mem => exact rerouted mem
      · cases update with
        | reroute _ isRerouted reads =>
          refine mem_cons_of_mem _ (mem_cons_of_mem _ ?_)
          exact (members _ _).mpr ⟨rfl, _, isRerouted, reads⟩
        | first new' isSource =>
          obtain ⟨rfl, rfl⟩ := cand.unique new'.toCandidate
          obtain rfl := Option.some.inj (isSource0.symm.trans isSource)
          exact mem_cons_of_mem _ mem_cons_self
        | second new' isSource =>
          obtain ⟨rfl, rfl⟩ := cand.unique new'.toCandidate
          obtain rfl := Option.some.inj (isSource1.symm.trans isSource)
          exact mem_cons_self
      · rw [mem_singleton]
        exact ⟨fun isUpdate => ⟨isUpdate, first, second, new⟩, fun isUpdate => isUpdate.1⟩

variable (graph nodesToPreserve) in
def LastUpdate (nodes : List NodeDef) (input : FaninView) (fanin : TensorId) : Prop :=
  ∃ (i : Nat) (node : NodeDef), nodes[i]? = some node ∧
    Update graph nodesToPreserve node input fanin ∧
    ∀ j later other, i < j → nodes[j]? = some later →
      ¬ Update graph nodesToPreserve later input other

theorem LastUpdate.cons {nodes : List NodeDef} {input : FaninView} {fanin : TensorId}
    (node : NodeDef) (last : LastUpdate graph nodesToPreserve nodes input fanin) :
    LastUpdate graph nodesToPreserve (node :: nodes) input fanin := by
  obtain ⟨i, got, isFound, update, newest⟩ := last
  refine ⟨i + 1, got, isFound, update, fun j later other after isLater => ?_⟩
  cases j with
  | zero => exact absurd after (Nat.not_lt_zero _)
  | succ j => exact newest j later other (Nat.lt_of_succ_lt_succ after) isLater

variable {nodes : List NodeDef} {result : Mutation}

theorem lookup_visited
    (seen : nodes.foldlM (visitNode graph nodesToPreserve) mutation = some result)
    (input : FaninView) : (∃ fanin, LastUpdate graph nodesToPreserve nodes input fanin ∧
        result.regularInputsToUpdate.lookup input = some fanin) ∨
      (∀ node ∈ nodes, ∀ fanin, ¬ Update graph nodesToPreserve node input fanin) ∧
        result.regularInputsToUpdate.lookup input =
          mutation.regularInputsToUpdate.lookup input := by
  induction nodes generalizing mutation with
  | nil =>
    obtain rfl := Option.some.inj seen
    exact Or.inr ⟨fun _ mem => absurd mem not_mem_nil, rfl⟩
  | cons node rest ih =>
    rw [foldlM_cons, Option.bind_eq_bind, Option.bind_eq_some_iff] at seen
    obtain ⟨next, first, others⟩ := seen
    obtain ⟨⟨newer, queued, members⟩, -⟩ := visitNode_spec first
    rcases ih others with ⟨fanin, last, got⟩ | ⟨untouched, got⟩
    · exact Or.inl ⟨fanin, last.cons node, got⟩
    rw [queued, lookup_append] at got
    cases isNewer : newer.lookup input with
    | none =>
      refine Or.inr ⟨forall_mem_cons.mpr ⟨fun fanin update => ?_, untouched⟩, ?_⟩
      · have mem := (members input fanin).mpr update
        have absent := lookup_eq_none_iff.mp isNewer _ mem
        simp at absent
      · rw [got, isNewer, Option.none_or]
    | some fanin =>
      obtain ⟨front, back, split, -⟩ := lookup_eq_some_iff.mp isNewer
      have update : Update graph nodesToPreserve node input fanin := by
        rw [← members, split]
        exact mem_append_right _ mem_cons_self
      refine Or.inl ⟨fanin, ⟨0, node, rfl, update, fun j later other after isLater => ?_⟩, ?_⟩
      · cases j with
        | zero => exact absurd after (Nat.lt_irrefl _)
        | succ j => exact untouched later (mem_of_getElem? isLater) other
      · rw [got, isNewer, Option.some_or]

theorem attrs_visited
    (seen : nodes.foldlM (visitNode graph nodesToPreserve) mutation = some result)
    (update : (NodeName × String) × AttrValue) :
    update ∈ result.attrsToAdd ↔ update ∈ mutation.attrsToAdd ∨
      ∃ node ∈ nodes, update = ((node.name, "data_format"), .s "NCHW") ∧
        ∃ first second, Rewritten graph nodesToPreserve node first second := by
  induction nodes generalizing mutation with
  | nil =>
    obtain rfl := Option.some.inj seen
    simp
  | cons node rest ih =>
    rw [foldlM_cons, Option.bind_eq_bind, Option.bind_eq_some_iff] at seen
    obtain ⟨next, first, others⟩ := seen
    obtain ⟨-, newer, queued, members⟩ := visitNode_spec first
    rw [ih others, queued, mem_append, members]
    simp only [mem_cons, or_and_right, exists_or, exists_eq_left, or_assoc, or_left_comm]

theorem LastUpdate.update (last : LastUpdate graph nodesToPreserve nodes input fanin) :
    ∃ node ∈ nodes, Update graph nodesToPreserve node input fanin := by
  obtain ⟨i, node, isNode, update, -⟩ := last
  exact ⟨node, mem_of_getElem? isNode, update⟩

end Queue

section View

variable {view : MutableGraphView} {nodesToPreserve : List NodeName}

variable {node first second : NodeDef} {index : Nat}

theorem Candidate.fanin_layout (cand : Candidate view.graph node first second)
    (mem : node ∈ view.graph) (lt : index < 2) :
    ∃ fanin transpose, regularFanin view.graph ⟨node.name, index⟩ = some fanin ∧
      faninNode view.graph node index = some transpose ∧
      node? view.graph fanin.node = some transpose ∧
      isLayoutTranspose view.graph dstToSrc transpose = some true := by
  have isNode := node?_of_mem view.unique mem
  have read {i : Nat} {transpose : NodeDef}
      (isFanin : faninNode view.graph node i = some transpose) :
      ∃ fanin, regularFanin view.graph ⟨node.name, i⟩ = some fanin ∧
        node? view.graph fanin.node = some transpose := by
    obtain ⟨fanin, got, isTranspose⟩ := faninNode_eq_some.mp isFanin
    exact ⟨fanin, by simp [regularFanin, isNode, got], isTranspose⟩
  obtain rfl | rfl : index = 0 ∨ index = 1 := by omega
  · obtain ⟨fanin, got, isTranspose⟩ := read cand.fanin0
    exact ⟨fanin, first, got, cand.fanin0, isTranspose, cand.layout0⟩
  · obtain ⟨fanin, got, isTranspose⟩ := read cand.fanin1
    exact ⟨fanin, second, got, cand.fanin1, isTranspose, cand.layout1⟩

theorem Candidate.rerouted_layout {fanout : FaninView}
    (cand : Candidate view.graph node first second)
    (isRerouted : fanout ∈ reroutedFanouts view.graph nodesToPreserve node.name) :
    regularFanin view.graph fanout = some ⟨node.name, 0⟩ ∧ ∃ transpose,
      node? view.graph fanout.node = some transpose ∧
      isLayoutTranspose view.graph srcToDst transpose = some true := by
  have mem := (takeWhile_sublist _).subset isRerouted
  exact ⟨(mem_regularFanout view.unique).mp mem, cand.fanouts fanout mem⟩

variable {name : NodeName}

theorem not_both_layouts (isFirst : node? view.graph name = some first)
    (toSrc : isLayoutTranspose view.graph dstToSrc first = some true)
    (isSecond : node? view.graph name = some second)
    (toDst : isLayoutTranspose view.graph srcToDst second = some true) : False := by
  obtain rfl := Option.some.inj (isFirst.symm.trans isSecond)
  have same := isLayoutTranspose_inj toSrc toDst
  rw [permutations.1, permutations.2] at same
  exact absurd same (by decide)

variable {input : FaninView} {fanin fanin' : TensorId}

theorem Update.unique (mem : node ∈ view.graph)
    (update : Update view.graph nodesToPreserve node input fanin)
    (update' : Update view.graph nodesToPreserve node input fanin') : fanin = fanin' := by
  -- the first two inputs are never rerouted, as they read transposes of the other kind
  have apart {index : Nat} (lt : index < 2) {first second : NodeDef} {fanout : FaninView}
      (cand : Candidate view.graph node first second)
      (isRerouted : fanout ∈ reroutedFanouts view.graph nodesToPreserve node.name)
      (reads : ⟨node.name, index⟩ ∈ regularFanout view.graph ⟨fanout.node, 0⟩) : False := by
    obtain ⟨fanin, transpose, got, -, isTranspose, layout⟩ := cand.fanin_layout mem lt
    obtain ⟨-, output, out, layout'⟩ := cand.rerouted_layout isRerouted
    rw [mem_regularFanout view.unique, got, Option.some.injEq] at reads
    subst reads
    exact not_both_layouts isTranspose layout out layout'
  cases update with
  | reroute cand isRerouted reads =>
    cases update' with
    | reroute => rfl
    | first => exact (apart two_pos cand isRerouted reads).elim
    | second => exact (apart Nat.one_lt_two cand isRerouted reads).elim
  | first new isSource =>
    cases update' with
    | reroute cand isRerouted reads => exact (apart two_pos cand isRerouted reads).elim
    | first new' isSource' =>
      obtain ⟨rfl, rfl⟩ := new.toCandidate.unique new'.toCandidate
      exact Option.some.inj (isSource.symm.trans isSource')
  | second new isSource =>
    cases update' with
    | reroute cand isRerouted reads => exact (apart Nat.one_lt_two cand isRerouted reads).elim
    | second new' isSource' =>
      obtain ⟨rfl, rfl⟩ := new.toCandidate.unique new'.toCandidate
      exact Option.some.inj (isSource.symm.trans isSource')

theorem LastUpdate.unique (last : LastUpdate view.graph nodesToPreserve view.graph input fanin)
    (last' : LastUpdate view.graph nodesToPreserve view.graph input fanin') : fanin = fanin' := by
  obtain ⟨i, node, isNode, update, newest⟩ := last
  obtain ⟨j, node', isNode', update', newest'⟩ := last'
  rcases Nat.lt_trichotomy i j with pre | rfl | after
  · exact absurd update' (newest j node' fanin' pre isNode')
  · obtain rfl := Option.some.inj (isNode.symm.trans isNode')
    exact update.unique (mem_of_getElem? isNode) update'
  · exact absurd update (newest' i node fanin after isNode)

theorem fanin_ne (isNode : node? view.graph name = some node)
    (got : node.regularFanins[index]? = some fanin) : fanin.node ≠ name := by
  obtain ⟨mem, rfl⟩ := node?_some isNode
  exact view.noSelfCycle node mem fanin (mem_of_getElem? got)

theorem Update.moves (mem : node ∈ view.graph)
    (update : Update view.graph nodesToPreserve node input fanin) :
    ∃ old, regularFanin view.graph input = some old ∧ fanin.node ≠ old.node := by
  cases update with
  | @reroute _ _ fanout _ cand isRerouted reads =>
    obtain ⟨readsNode, transpose, isTranspose, -⟩ := cand.rerouted_layout isRerouted
    rw [regularFanin, isTranspose, Option.bind_some] at readsNode
    exact ⟨⟨fanout.node, 0⟩, (mem_regularFanout view.unique).mp reads,
      fanin_ne isTranspose readsNode⟩
  | first new isSource =>
    obtain ⟨old, transpose, got, isFanin, isTranspose, -⟩ :=
      new.toCandidate.fanin_layout mem two_pos
    obtain rfl := Option.some.inj (isFanin.symm.trans new.fanin0)
    exact ⟨old, got, fanin_ne isTranspose isSource⟩
  | second new isSource =>
    obtain ⟨old, transpose, got, isFanin, isTranspose, -⟩ :=
      new.toCandidate.fanin_layout mem Nat.one_lt_two
    obtain rfl := Option.some.inj (isFanin.symm.trans new.fanin1)
    exact ⟨old, got, fanin_ne isTranspose isSource⟩

variable {output : List NodeDef}

theorem optimize_eq_some (opt : optimize view nodesToPreserve = some (some output)) :
    ∃ mutation : Mutation, view.graph.foldlM (visitNode view.graph nodesToPreserve) {} =
      some mutation ∧ output = view.graph.map mutation.updateNode := by
  simp only [optimize, Option.bind_eq_bind, Option.bind_eq_some_iff, Option.some.injEq]
    at opt
  obtain ⟨mutation, seen, applied⟩ := opt
  exact ⟨mutation, seen, apply_eq_some applied⟩

theorem optimize_fanin (opt : optimize view nodesToPreserve = some (some output))
    (input : FaninView) : (∃ fanin, LastUpdate view.graph nodesToPreserve view.graph input fanin ∧
        regularFanin output input = some fanin) ∨
      (∀ node ∈ view.graph, ∀ fanin, ¬ Update view.graph nodesToPreserve node input fanin) ∧
        regularFanin output input = regularFanin view.graph input := by
  obtain ⟨mutation, seen, rfl⟩ := optimize_eq_some opt
  rw [regularFanin_updated]
  rcases lookup_visited seen input with ⟨fanin, last, got⟩ | ⟨untouched, got⟩
  · obtain ⟨node, mem, update⟩ := last.update
    obtain ⟨old, isOld, -⟩ := update.moves mem
    exact Or.inl ⟨fanin, last, by rw [got, isOld]; rfl⟩
  · refine Or.inr ⟨untouched, ?_⟩
    rw [got]
    exact Option.map_id'

theorem optimize_node (opt : optimize view nodesToPreserve = some (some output))
    (mem : node ∈ view.graph) :
    ∃ updated, node? output node.name = some updated ∧ updated.op = node.op ∧
      updated.controllingFanins = node.controllingFanins ∧
      updated.regularFanins.length = node.regularFanins.length ∧
      ((∃ first second, Rewritten view.graph nodesToPreserve node first second) →
        updated.attr = setAttr node.attr "data_format" (.s "NCHW")) ∧
      ((¬ ∃ first second, Rewritten view.graph nodesToPreserve node first second) →
        updated.attr = node.attr) := by
  obtain ⟨mutation, seen, rfl⟩ := optimize_eq_some opt
  have queued (update : (NodeName × String) × AttrValue) := attrs_visited seen update
  simp only [not_mem_nil, false_or] at queued
  have same {other : NodeDef} (isOther : other ∈ view.graph) (named : other.name = node.name) :
      other = node := inj_on_of_nodup_map view.unique isOther mem named
  refine ⟨mutation.updateNode node, ?_, rfl, rfl, length_mapIdx, fun new => ?_, fun kept => ?_⟩
  · rw [node?_updated, node?_of_mem view.unique mem, Option.map_some]
  · refine attr_updated_of_mem ((queued _).mpr ⟨node, mem, rfl, new⟩) ?_
    intro update isUpdate named
    obtain ⟨other, isOther, rfl, -⟩ := (queued update).mp isUpdate
    rw [same isOther named]
  · refine attr_updated_of_absent fun update isUpdate named => ?_
    obtain ⟨other, isOther, rfl, new⟩ := (queued update).mp isUpdate
    exact kept (same isOther named ▸ new)

theorem optimize_names (opt : optimize view nodesToPreserve = some (some output)) :
    output.map NodeDef.name = view.graph.map NodeDef.name := by
  obtain ⟨mutation, -, rfl⟩ := optimize_eq_some opt
  rw [List.map_map]
  rfl

end View

end TfDml.Optimizer.TransposeRemover
