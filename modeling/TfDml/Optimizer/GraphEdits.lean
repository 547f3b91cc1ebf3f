import TfDml.Optimizer.GraphView

/-! # Building and editing a view

How a graph becomes a view, a node that takes the place of the one of its name, and nodes
that are removed. A view that comes out of an edit passes the checks of a new one.
-/

namespace TfDml.Optimizer

open List

def lastFirst {α : Type} (as : List α) : List α := as.getLast?.toList ++ as.dropLast

theorem lastFirst_perm {α : Type} (as : List α) : (lastFirst as).Perm as := by
  cases isLast : as.getLast? with
  | none =>
    obtain rfl := getLast?_eq_none_iff.mp isLast
    rfl
  | some last =>
    obtain ⟨front, rfl⟩ := getLast?_eq_some_iff.mp isLast
    rw [lastFirst, isLast, dropLast_concat]
    exact perm_append_comm

theorem lookup_setAttr_self (attr : List (String × AttrValue)) (attrName : String)
    (value : AttrValue) : (setAttr attr attrName value).lookup attrName = some value := by
  simp [setAttr]

theorem lookup_setAttr_of_ne {attrName other : String} (differ : attrName ≠ other)
    (attr : List (String × AttrValue)) (value : AttrValue) :
    (setAttr attr other value).lookup attrName = attr.lookup attrName := by
  rw [setAttr, lookup_cons, beq_false_of_ne differ]
  show (attr.filter (·.1 != other)).lookup attrName = attr.lookup attrName
  induction attr with
  | nil => rfl
  | cons entry rest ih =>
    obtain ⟨name, old⟩ := entry
    by_cases isOther : name = other
    · subst isOther
      rw [filter_cons_of_neg (by simp), lookup_cons, beq_false_of_ne differ]
      exact ih
    · rw [filter_cons_of_pos (by simpa using isOther), lookup_cons, lookup_cons, ih]

theorem lookup_of_mapM {names : List String} {values : String → Option AttrValue}
    {copied : List (String × AttrValue)}
    (mapped : names.mapM (fun name => (values name).map fun value => (name, value)) = some copied)
    {name : String} (mem : name ∈ names) : copied.lookup name = values name := by
  induction names generalizing copied with
  | nil => cases mem
  | cons first rest ih =>
    simp only [mapM_cons, Option.pure_def, Option.bind_eq_bind, Option.bind_eq_some_iff,
      Option.map_eq_some_iff, Option.some.injEq] at mapped
    obtain ⟨_, ⟨value, isValue, rfl⟩, others, isOthers, rfl⟩ := mapped
    by_cases same : name = first
    · rw [same, lookup_cons_self, isValue]
    · rw [lookup_cons, beq_false_of_ne same]
      exact ih isOthers ((mem_cons.mp mem).resolve_left same)

/-- The loop over the controlling fanins: one that was observed gives its place to the last
    one, which is looked at next. -/
def dropRepeats (observed : List NodeName) : Nat → List NodeName → List NodeName
  | remaining + 1, control :: rest =>
    if control ∈ observed then dropRepeats observed remaining (lastFirst rest)
    else control :: dropRepeats (control :: observed) remaining rest
  | _, _ => []

variable {observed controls : List NodeName} {remaining : Nat} {control : NodeName}

theorem mem_dropRepeats (all : controls.length = remaining) :
    control ∈ dropRepeats observed remaining controls ↔
      control ∈ controls ∧ control ∉ observed := by
  induction remaining generalizing observed controls with
  | zero =>
    obtain rfl := length_eq_zero_iff.mp all
    simp [dropRepeats]
  | succ remaining ih =>
    obtain ⟨first, rest, rfl⟩ := exists_cons_of_length_eq_add_one all
    have restLength : rest.length = remaining := Nat.succ.inj all
    rw [dropRepeats]
    split
    · rename_i seen
      rw [ih ((lastFirst_perm rest).length_eq.trans restLength), (lastFirst_perm rest).mem_iff]
      grind
    · rename_i unseen
      rw [mem_cons, ih restLength]
      grind

theorem dropRepeats_of_nodup (all : controls.length = remaining) (nodup : controls.Nodup)
    (unseen : ∀ control ∈ controls, control ∉ observed) :
    dropRepeats observed remaining controls = controls := by
  induction remaining generalizing observed controls with
  | zero =>
    obtain rfl := length_eq_zero_iff.mp all
    rfl
  | succ remaining ih =>
    obtain ⟨first, rest, rfl⟩ := exists_cons_of_length_eq_add_one all
    obtain ⟨fresh, restNodup⟩ := nodup_cons.mp nodup
    rw [dropRepeats, if_neg (unseen first mem_cons_self), ih (Nat.succ.inj all) restNodup]
    intro control mem
    have other : control ≠ first := fun same => fresh (same ▸ mem)
    exact not_mem_cons_of_ne_of_not_mem other
      (unseen control (mem_cons_of_mem _ mem))

def addFanins (node : NodeDef) : NodeDef :=
  { node with
    controllingFanins := dropRepeats [] node.controllingFanins.length node.controllingFanins }

@[simp] theorem addFanins_name (node : NodeDef) : (addFanins node).name = node.name := rfl

@[simp] theorem map_name_addFanins (graph : List NodeDef) :
    (graph.map addFanins).map NodeDef.name = graph.map NodeDef.name := by
  rw [map_map]
  rfl

variable {node : NodeDef}

theorem mem_addFanins :
    control ∈ (addFanins node).controllingFanins ↔ control ∈ node.controllingFanins := by
  simp only [addFanins, mem_dropRepeats, not_mem_nil, not_false_iff, and_true]

theorem addFanins_of_nodup (nodup : node.controllingFanins.Nodup) : addFanins node = node := by
  rw [addFanins, dropRepeats_of_nodup rfl nodup fun _ _ => not_mem_nil]

namespace MutableGraphView

/-- The inputs of the node are there, and none is the node itself. -/
def IsWellFormed (graph : List NodeDef) (node : NodeDef) : Prop :=
  (∀ fanin ∈ node.regularFanins, fanin.node ≠ node.name ∧ fanin.node ∈ graph.map NodeDef.name) ∧
  ∀ fanin ∈ node.controllingFanins, fanin ≠ node.name ∧ fanin ∈ graph.map NodeDef.name

instance (graph : List NodeDef) (node : NodeDef) : Decidable (IsWellFormed graph node) :=
  inferInstanceAs (Decidable (_ ∧ _))

def Checks (graph : List NodeDef) : Prop :=
  (graph.map NodeDef.name).Nodup ∧ ∀ node ∈ graph, IsWellFormed graph node

instance (graph : List NodeDef) : Decidable (Checks graph) := inferInstanceAs (Decidable (_ ∧ _))

def ofChecks (graph : List NodeDef) (checks : Checks graph) : MutableGraphView where
  graph := graph
  unique := checks.1
  present node mem fanin reads := ((checks.2 node mem).1 fanin reads).2
  controlsPresent node mem fanin reads := ((checks.2 node mem).2 fanin reads).2
  noSelfCycle node mem fanin reads := ((checks.2 node mem).1 fanin reads).1
  noControlSelfCycle node mem fanin reads := ((checks.2 node mem).2 fanin reads).1

theorem checks (view : MutableGraphView) : Checks view.graph :=
  ⟨view.unique, fun node mem =>
    ⟨fun fanin reads => ⟨view.noSelfCycle node mem fanin reads, view.present node mem fanin reads⟩,
    fun fanin reads => ⟨view.noControlSelfCycle node mem fanin reads,
      view.controlsPresent node mem fanin reads⟩⟩⟩

variable {graph : List NodeDef}

theorem Checks.addFanins (checks : Checks graph) : Checks (graph.map addFanins) := by
  refine ⟨map_name_addFanins graph ▸ checks.1, forall_mem_map.mpr fun node mem => ?_⟩
  obtain ⟨regular, controls⟩ := checks.2 node mem
  rw [IsWellFormed, map_name_addFanins]
  exact ⟨regular, fun fanin reads => controls fanin (mem_addFanins.mp reads)⟩

/-- The constructor; nothing where it reports an error. -/
def ofGraph (graph : List NodeDef) : Option MutableGraphView :=
  if checks : Checks graph then some (ofChecks _ checks.addFanins) else none

theorem ofGraph_eq_some {view : MutableGraphView} (made : ofGraph graph = some view) :
    view.graph = graph.map Optimizer.addFanins := by
  unfold ofGraph at made
  split at made
  · exact congrArg MutableGraphView.graph (Option.some.inj made).symm
  · cases made

end MutableGraphView

variable {graph : List NodeDef}

theorem node?_map {change : NodeDef → NodeDef}
    (named : ∀ node ∈ graph, (change node).name = node.name) (name : NodeName) :
    node? (graph.map change) name = (node? graph name).map change := by
  induction graph with
  | nil => rfl
  | cons node rest ih =>
    obtain ⟨sameName, others⟩ := forall_mem_cons.mp named
    simp only [node?, map_cons, find?_cons, sameName]
    split
    · rfl
    · exact ih others

/-- The node overwrites the one of its name, or comes last. -/
def insertNode (graph : List NodeDef) (node : NodeDef) : List NodeDef :=
  if node.name ∈ graph.map NodeDef.name then
    graph.map fun old => if old.name = node.name then node else old
  else graph ++ [node]

theorem map_name_insertNode (present : node.name ∈ graph.map NodeDef.name) :
    (insertNode graph node).map NodeDef.name = graph.map NodeDef.name := by
  rw [insertNode, if_pos present, map_map]
  refine map_congr_left fun old _ => ?_
  by_cases same : old.name = node.name
  · simp [same]
  · simp [same]

theorem mem_map_name_insertNode {name : NodeName} :
    name ∈ (insertNode graph node).map NodeDef.name ↔
      name ∈ graph.map NodeDef.name ∨ name = node.name := by
  by_cases present : node.name ∈ graph.map NodeDef.name
  · rw [map_name_insertNode present]
    exact ⟨Or.inl, fun named => named.elim id fun same => same ▸ present⟩
  · rw [insertNode, if_neg present, map_append, mem_append, map_singleton, mem_singleton]

theorem mem_insertNode {mem : NodeDef} (ins : mem ∈ insertNode graph node) :
    mem ∈ graph ∧ mem.name ≠ node.name ∨ mem = node := by
  unfold insertNode at ins
  split at ins
  · obtain ⟨old, isOld, rfl⟩ := mem_map.mp ins
    split
    · exact Or.inr rfl
    · rename_i other
      exact Or.inl ⟨isOld, other⟩
  · rename_i absent
    rcases mem_append.mp ins with old | new
    · exact Or.inl ⟨old, fun same => absent (same ▸ mem_map_of_mem old)⟩
    · exact Or.inr (mem_singleton.mp new)

theorem nodup_insertNode (unique : (graph.map NodeDef.name).Nodup) :
    ((insertNode graph node).map NodeDef.name).Nodup := by
  by_cases present : node.name ∈ graph.map NodeDef.name
  · rwa [map_name_insertNode present]
  · rw [insertNode, if_neg present, map_append, map_singleton]
    exact List.Nodup.append unique (nodup_singleton _)
      (disjoint_singleton.mpr present)

namespace MutableGraphView

variable {node : NodeDef}

theorem Checks.insertNode {graph : List NodeDef} (checks : Checks graph)
    (wellFormed : IsWellFormed graph node) : Checks (insertNode graph node) := by
  have remains {name : NodeName} (present : name ∈ graph.map NodeDef.name) :
      name ∈ (Optimizer.insertNode graph node).map NodeDef.name :=
    mem_map_name_insertNode.mpr (Or.inl present)
  refine ⟨nodup_insertNode checks.1, fun mem ins => ?_⟩
  have ofMember : IsWellFormed graph mem := by
    rcases mem_insertNode ins with ⟨old, -⟩ | rfl
    · exact checks.2 mem old
    · exact wellFormed
  exact ⟨fun fanin reads => (ofMember.1 fanin reads).imp_right remains,
    fun fanin reads => (ofMember.2 fanin reads).imp_right remains⟩

/-- A mutation that adds the node, and its application. -/
def addNode (view : MutableGraphView) (node : NodeDef) : Option MutableGraphView :=
  if wellFormed : IsWellFormed view.graph node then
    some (ofChecks _ (view.checks.insertNode wellFormed))
  else none

theorem addNode_eq_some {view added : MutableGraphView} (isAdded : view.addNode node = some added) :
    IsWellFormed view.graph node ∧ added.graph = Optimizer.insertNode view.graph node := by
  unfold addNode at isAdded
  split at isAdded
  · rename_i wellFormed
    exact ⟨wellFormed, congrArg MutableGraphView.graph (Option.some.inj isAdded).symm⟩
  · cases isAdded

end MutableGraphView

/-- From the last index to the first: a node that goes leaves its place to the last one. -/
def removeNodesInternal (removed : List NodeName) : List NodeDef → List NodeDef
  | [] => []
  | node :: rest =>
    if node.name ∈ removed then lastFirst (removeNodesInternal removed rest)
    else node :: removeNodesInternal removed rest

theorem removeNodesInternal_perm (removed : List NodeName) (graph : List NodeDef) :
    (removeNodesInternal removed graph).Perm
      (graph.filter fun node => node.name ∉ removed) := by
  induction graph with
  | nil => exact .nil
  | cons node rest ih =>
    rw [removeNodesInternal]
    split
    · rename_i goes
      rw [filter_cons_of_neg (by simpa using goes)]
      exact (lastFirst_perm _).trans ih
    · rename_i stays
      rw [filter_cons_of_pos (by simpa using stays)]
      exact ih.cons node

theorem mem_removeNodesInternal {removed : List NodeName} :
    node ∈ removeNodesInternal removed graph ↔ node ∈ graph ∧ node.name ∉ removed := by
  rw [(removeNodesInternal_perm removed graph).mem_iff, mem_filter, decide_eq_true_eq]

namespace MutableGraphView

def FanoutsWellFormed (graph : List NodeDef) (removed : List NodeName) : Prop :=
  ∀ node ∈ graph, node.name ∉ removed → (∀ fanin ∈ node.regularFanins, fanin.node ∉ removed) ∧
    ∀ fanin ∈ node.controllingFanins, fanin ∉ removed

instance (graph : List NodeDef) (removed : List NodeName) :
    Decidable (FanoutsWellFormed graph removed) :=
  inferInstanceAs (Decidable (∀ _ ∈ _, _))

variable {removed : List NodeName}

theorem Checks.removeNodes {graph : List NodeDef} (checks : Checks graph)
    (fanouts : FanoutsWellFormed graph removed) : Checks (removeNodesInternal removed graph) := by
  have remains {name : NodeName} (present : name ∈ graph.map NodeDef.name)
      (stays : name ∉ removed) : name ∈ (removeNodesInternal removed graph).map NodeDef.name := by
    obtain ⟨node, mem, rfl⟩ := mem_map.mp present
    exact mem_map_of_mem (mem_removeNodesInternal.mpr ⟨mem, stays⟩)
  refine ⟨?_, fun node mem => ?_⟩
  · rw [((removeNodesInternal_perm removed graph).map NodeDef.name).nodup_iff]
    exact checks.1.sublist (filter_sublist.map NodeDef.name)
  · obtain ⟨old, stays⟩ := mem_removeNodesInternal.mp mem
    obtain ⟨regular, controls⟩ := checks.2 node old
    obtain ⟨regularStay, controlsStay⟩ := fanouts node old stays
    exact ⟨fun fanin reads => ⟨(regular fanin reads).1,
        remains (regular fanin reads).2 (regularStay fanin reads)⟩,
      fun fanin reads => ⟨(controls fanin reads).1,
        remains (controls fanin reads).2 (controlsStay fanin reads)⟩⟩

/-- A mutation that removes the nodes, and its application. -/
def removeNodes (view : MutableGraphView) (removed : List NodeName) : Option MutableGraphView :=
  if fanouts : FanoutsWellFormed view.graph removed then
    some (ofChecks _ (view.checks.removeNodes fanouts))
  else none

theorem removeNodes_eq_some {view left : MutableGraphView}
    (isLeft : view.removeNodes removed = some left) : FanoutsWellFormed view.graph removed ∧
      left.graph = removeNodesInternal removed view.graph := by
  unfold removeNodes at isLeft
  split at isLeft
  · rename_i fanouts
    exact ⟨fanouts, congrArg MutableGraphView.graph (Option.some.inj isLeft).symm⟩
  · cases isLeft

end MutableGraphView

end TfDml.Optimizer
