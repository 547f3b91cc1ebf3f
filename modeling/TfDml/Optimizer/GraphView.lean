import TfDml.Optimizer.TensorProto
import Mathlib.Data.List.Nodup

/-! # Graphs and their mutation

The part of the graph view that the optimizers use. Nodes are known by their names, and
the inputs of a node are its regular fanins followed by its controlling ones. A mutation
collects updates while the view stays as it is, and applies them together.
-/

namespace TfDml.Optimizer

open List

abbrev NodeName := String

structure TensorId where
  node : NodeName
  index : Nat
  deriving DecidableEq

inductive AttrValue where
  | s (value : String)
  | b (value : Bool)
  | type (value : DataType)
  | listI (values : List Int)
  | tensor (value : TensorProto)
  | shape (dims : List Int)
  deriving DecidableEq

structure NodeDef where
  name : NodeName
  op : String
  device : String := ""
  regularFanins : List TensorId := []
  controllingFanins : List NodeName := []
  attr : List (String × AttrValue) := []
  deriving DecidableEq

def NodeDef.getAttr (node : NodeDef) (attrName : String) : Option AttrValue :=
  node.attr.lookup attrName

def setAttr (attr : List (String × AttrValue)) (attrName : String) (value : AttrValue) :
    List (String × AttrValue) :=
  (attrName, value) :: attr.filter (·.1 != attrName)

def isConstant (node : NodeDef) : Bool := node.op = "Const"

def isConv2D (node : NodeDef) : Bool := node.op = "Conv2D"

def isFusedBatchNormGrad (node : NodeDef) : Bool :=
  node.op = "FusedBatchNormGrad" || node.op = "FusedBatchNormGradV2" ||
    node.op = "FusedBatchNormGradV3"

def isPlaceholder (node : NodeDef) : Bool :=
  node.op = "Placeholder" || node.op = "PlaceholderV2" || node.op = "PlaceholderWithDefault"

def isPad (node : NodeDef) : Bool := node.op = "Pad" || node.op = "PadV2"

def isTranspose (node : NodeDef) : Bool := node.op = "Transpose"

def node? (graph : List NodeDef) (name : NodeName) : Option NodeDef := graph.find? (·.name = name)

structure MutableGraphView where
  graph : List NodeDef
  unique : (graph.map NodeDef.name).Nodup
  present : ∀ node ∈ graph, ∀ fanin ∈ node.regularFanins, fanin.node ∈ graph.map NodeDef.name
  controlsPresent : ∀ node ∈ graph, ∀ fanin ∈ node.controllingFanins, fanin ∈ graph.map NodeDef.name
  noSelfCycle : ∀ node ∈ graph, ∀ fanin ∈ node.regularFanins, fanin.node ≠ node.name
  noControlSelfCycle : ∀ node ∈ graph, ∀ fanin ∈ node.controllingFanins, fanin ≠ node.name

structure FaninView where
  node : NodeName
  index : Nat
  deriving DecidableEq

/-- What an input reads, if the node has it. -/
def regularFanin (graph : List NodeDef) (input : FaninView) : Option TensorId :=
  (node? graph input.node).bind fun node => node.regularFanins[input.index]?

def faninsOf (output : TensorId) (node : NodeDef) : List FaninView :=
  node.regularFanins.zipIdx.filterMap fun (fanin, index) =>
    if fanin = output then some ⟨node.name, index⟩ else none

/-- The inputs that read the output, in the order of the nodes. -/
def regularFanout (graph : List NodeDef) (output : TensorId) : List FaninView :=
  graph.flatMap (faninsOf output)

def faninNode (graph : List NodeDef) (node : NodeDef) (index : Nat) : Option NodeDef :=
  node.regularFanins[index]?.bind fun fanin => node? graph fanin.node

def hasRegularFanouts (graph : List NodeDef) (name : NodeName) : Bool :=
  graph.any fun node => node.regularFanins.any (·.node = name)

def numControlledFanouts (graph : List NodeDef) (name : NodeName) : Nat :=
  (graph.filter fun node => name ∈ node.controllingFanins).length

/-- Why no pattern was found: a check failed, or the code went on with something that is not
    there (a null node, a missing attribute, an element out of range, a sum out of range). -/
inductive Mismatch where
  | noMatch
  | undefined
  deriving DecidableEq

abbrev Matching := Except Mismatch

def require (condition : Bool) : Matching Unit := if condition then .ok () else .error .noMatch

def defined {α : Type} : Option α → Matching α
  | some a => .ok a
  | none => .error .undefined

/-- The newest update first; each is for a regular fanin or an attribute that the node has. -/
structure Mutation where
  regularInputsToUpdate : List (FaninView × TensorId) := []
  attrsToAdd : List ((NodeName × String) × AttrValue) := []

namespace Mutation

def addOrUpdateRegularFanin (mutation : Mutation) (input : FaninView) (fanin : TensorId) :
    Mutation :=
  { mutation with regularInputsToUpdate := (input, fanin) :: mutation.regularInputsToUpdate }

def addOrUpdateNodeAttr (mutation : Mutation) (name : NodeName) (attrName : String)
    (value : AttrValue) : Mutation :=
  { mutation with attrsToAdd := ((name, attrName), value) :: mutation.attrsToAdd }

def updateNode (mutation : Mutation) (node : NodeDef) : NodeDef :=
  { node with
    regularFanins := node.regularFanins.mapIdx fun index fanin =>
      (mutation.regularInputsToUpdate.lookup ⟨node.name, index⟩).getD fanin
    attr := mutation.attrsToAdd.foldr
      (fun update attr =>
        if update.1.1 = node.name then setAttr attr update.1.2 update.2 else attr)
      node.attr }

/-- Nothing is applied if an update would make a node its own input. -/
def apply (mutation : Mutation) (graph : List NodeDef) : Option (List NodeDef) :=
  let updated := graph.map mutation.updateNode
  if updated.any fun node => node.regularFanins.any (·.node = node.name) then none
  else some updated

end Mutation

variable {graph : List NodeDef} {node : NodeDef}

theorem node?_some {name : NodeName} (got : node? graph name = some node) :
    node ∈ graph ∧ node.name = name := by
  refine ⟨mem_of_find?_eq_some got, ?_⟩
  simpa using find?_some got

theorem node?_of_mem (unique : (graph.map NodeDef.name).Nodup) (mem : node ∈ graph) :
    node? graph node.name = some node := by
  cases got : node? graph node.name with
  | none =>
    have absent := find?_eq_none.mp got node mem
    simp at absent
  | some other =>
    obtain ⟨isMember, sameName⟩ := node?_some got
    rw [inj_on_of_nodup_map unique isMember mem sameName]

variable {output : TensorId} {input : FaninView}

theorem mem_faninsOf : input ∈ faninsOf output node ↔
      input.node = node.name ∧ node.regularFanins[input.index]? = some output := by
  simp only [faninsOf, mem_filterMap, mem_zipIdx_iff_getElem?, Prod.exists]
  constructor
  · rintro ⟨fanin, index, got, made⟩
    split at made
    · obtain rfl := Option.some.inj made
      subst fanin
      exact ⟨rfl, got⟩
    · simp at made
  · rintro ⟨named, got⟩
    exact ⟨output, input.index, got, by simp [← named]⟩

theorem mem_regularFanout (unique : (graph.map NodeDef.name).Nodup) :
    input ∈ regularFanout graph output ↔ regularFanin graph input = some output := by
  simp only [regularFanout, mem_flatMap, mem_faninsOf, regularFanin, Option.bind_eq_some_iff]
  constructor
  · rintro ⟨node, mem, named, got⟩
    exact ⟨node, named ▸ node?_of_mem unique mem, got⟩
  · rintro ⟨node, got, fanin⟩
    obtain ⟨mem, named⟩ := node?_some got
    exact ⟨node, mem, named.symm, fanin⟩

theorem faninNode_eq_some {found : NodeDef} {index : Nat} :
    faninNode graph node index = some found ↔
      ∃ fanin, node.regularFanins[index]? = some fanin ∧ node? graph fanin.node = some found := by
  rw [faninNode, Option.bind_eq_some_iff]

variable {mutation : Mutation}

theorem apply_eq_some {output : List NodeDef} (applied : mutation.apply graph = some output) :
    output = graph.map mutation.updateNode := by
  simp only [Mutation.apply] at applied
  split at applied
  · simp at applied
  · exact (Option.some.inj applied).symm

theorem node?_updated (mutation : Mutation) (graph : List NodeDef) (name : NodeName) :
    node? (graph.map mutation.updateNode) name = (node? graph name).map mutation.updateNode := by
  rw [node?, node?, find?_map]
  rfl

theorem regularFanin_updated (mutation : Mutation) (graph : List NodeDef) (input : FaninView) :
    regularFanin (graph.map mutation.updateNode) input = (regularFanin graph input).map
        ((mutation.regularInputsToUpdate.lookup input).getD ·) := by
  rw [regularFanin, regularFanin, node?_updated]
  cases got : node? graph input.node with
  | none => rfl
  | some node =>
    obtain ⟨-, named⟩ := node?_some got
    simp only [Option.map_some, Option.bind_some, Mutation.updateNode, getElem?_mapIdx, named]

theorem setAttr_setAttr (attr : List (String × AttrValue)) (attrName : String)
    (value : AttrValue) :
    setAttr (setAttr attr attrName value) attrName value = setAttr attr attrName value := by
  simp [setAttr]

theorem attr_updated_of_absent (absent : ∀ update ∈ mutation.attrsToAdd, update.1.1 ≠ node.name) :
    (mutation.updateNode node).attr = node.attr := by
  simp only [Mutation.updateNode]
  generalize mutation.attrsToAdd = updates at absent
  induction updates with
  | nil => rfl
  | cons update rest ih =>
    obtain ⟨other, others⟩ := forall_mem_cons.mp absent
    rw [foldr_cons, if_neg other]
    exact ih others

theorem attr_updated_of_mem {attrName : String} {value : AttrValue}
    (queued : ((node.name, attrName), value) ∈ mutation.attrsToAdd)
    (same : ∀ update ∈ mutation.attrsToAdd, update.1.1 = node.name →
      update = ((node.name, attrName), value)) :
    (mutation.updateNode node).attr = setAttr node.attr attrName value := by
  have folded (updates : List ((NodeName × String) × AttrValue))
      (same : ∀ update ∈ updates, update.1.1 = node.name →
        update = ((node.name, attrName), value)) : let attr := updates.foldr (fun update attr =>
        if update.1.1 = node.name then setAttr attr update.1.2 update.2 else attr) node.attr
      attr = setAttr node.attr attrName value ∨
        attr = node.attr ∧ ((node.name, attrName), value) ∉ updates := by
    induction updates with
    | nil => exact Or.inr ⟨rfl, not_mem_nil⟩
    | cons update rest ih =>
      obtain ⟨first, others⟩ := forall_mem_cons.mp same
      rw [foldr_cons]
      by_cases isNode : update.1.1 = node.name
      · rw [if_pos isNode, first isNode]
        rcases ih others with done | ⟨kept, -⟩
        · exact Or.inl (by rw [done, setAttr_setAttr])
        · exact Or.inl (by rw [kept])
      · rw [if_neg isNode]
        refine (ih others).imp_right fun ⟨kept, absent⟩ => ⟨kept, fun mem => ?_⟩
        rcases mem_cons.mp mem with rfl | later
        · exact isNode rfl
        · exact absent later
  rcases folded _ same with done | ⟨-, absent⟩
  · exact done
  · exact absurd queued absent

@[simp] theorem require_eq_ok {cond : Bool} {result : Unit} :
    require cond = .ok result ↔ cond = true := by
  cases cond <;> simp [require]

variable {α : Type} {x : Option α}

@[simp] theorem defined_eq_ok {a : α} : defined x = .ok a ↔ x = some a := by
  cases x <;> simp [defined]

theorem map_defined_eq_ok {β : Type} {f : α → β} {b : β} :
    (defined x).map f = .ok b ↔ ∃ a, x = some a ∧ f a = b := by
  cases x <;> simp [defined, Except.map]

end TfDml.Optimizer
