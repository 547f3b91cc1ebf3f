import TfDml.Optimizer.GraphValues
import TfDml.Optimizer.PaddedConv2D

/-! # Runtimes that pad and convolve

What runs the nodes of a graph is a parameter. It is known to decode constants, to pad with
zeros and to convolve as the kernel does. A runtime over the integers is one.
-/

namespace TfDml.Optimizer.Remapper

open Lib Conv2D Option

/-- What runs the nodes, with the values of constants and the tensors that can be convolved. -/
structure Runtime (V E : Type) [Zero E] where
  eval : Evaluation V
  constant : TensorProto → V
  tensor : V → Option (ZeroExtended E)
  convolve : ConvolutionDesc → ZeroExtended E → ZeroExtended E → Option (List V)

/-- What a pad makes of a tensor. Its amounts are stored in 32 bits, and so are the numbers of
    elements. -/
structure PadsTo {V E : Type} [Zero E] (runtime : Runtime V E) (op : String) (rest : List V)
    (amounts : List Int) (pixels around : ZeroExtended E) : Prop where
  rank : amounts.length = 2 * pixels.shape.length
  nonneg : ∀ a ∈ amounts, 0 ≤ a
  shape : around.shape = (marginsOf amounts).around pixels.shape
  eq_pad : (op = "PadV2" → ∃ fill, rest = [runtime.constant fill] ∧
      constantValue fill = some (.finite 0)) → (∀ a ∈ amounts, a < 2 ^ 32) →
    around.shape.prod < 2 ^ 32 → around = pixels.pad (marginsOf amounts)

/-- A runtime that does what the operations of a match are for. -/
structure Semantics (V E : Type) [Zero E] extends Runtime V E where
  tensor_small : ∀ {value x}, tensor value = some x → x.shape.prod < 2 ^ 32
  eval_const : ∀ {name attr inputs outputs}, eval name "Const" attr inputs = some outputs →
    ∃ proto, attr.lookup "value" = some (.tensor proto) ∧ outputs = [constant proto]
  eval_pad : ∀ {name op attr inputs outputs}, op = "Pad" ∨ op = "PadV2" →
    eval name op attr inputs = some outputs → ∃ input paddings rest padded,
      inputs = input :: paddings :: rest ∧ rest.length = (if op = "Pad" then 0 else 1) ∧
      outputs = [padded] ∧ ∀ around, tensor padded = some around →
        ∃ pixels, tensor input = some pixels ∧ ∀ proto, paddings = constant proto →
          ∃ amounts, paddingAmounts proto = some amounts ∧
            PadsTo toRuntime op rest amounts pixels around
  eval_conv2D : ∀ {name attr inputs outputs}, eval name "Conv2D" attr inputs = some outputs ↔
    ∃ input filter pixels weights, inputs = [input, filter] ∧ tensor input = some pixels ∧
      tensor filter = some weights ∧
      conv2D convolve { name := name, op := "Conv2D", attr := attr } pixels weights = some outputs

section Reading

theorem eq_of_getElem?_singleton {α : Type} {a b : α} {index : Nat}
    (isElement : [a][index]? = some b) : b = a := by
  obtain ⟨lt, rfl⟩ := List.getElem?_eq_some_iff.mp isElement
  exact List.getElem_singleton lt

variable {V E : Type} [Zero E] (semantics : Semantics V E) {graph : List NodeDef}

theorem Semantics.argument_of_const {node src : NodeDef} {arguments : List V}
    (read : Reads (graphNet semantics.eval graph).Evaluates node arguments) {index : Nat}
    (isSource : faninNode graph node index = some src) (isConst : isConstant src = true)
    {proto : TensorProto} (isValue : src.getAttr "value" = some (.tensor proto)) :
    arguments[index]? = some (semantics.constant proto) := by
  obtain ⟨fanin, isFanin, isNode⟩ := faninNode_eq_some.mp isSource
  obtain ⟨argument, values, isArgument, holds, out⟩ := read.each index fanin isFanin
  obtain ⟨node', inputs, isNode', -, eq⟩ := evaluates_reads holds
  obtain rfl := some.inj (isNode.symm.trans isNode')
  rw [of_decide_eq_true isConst] at eq
  obtain ⟨proto', isProto, rfl⟩ := semantics.eval_const eq
  obtain rfl := AttrValue.tensor.inj (some.inj (isValue.symm.trans isProto))
  rw [isArgument, eq_of_getElem?_singleton out]

end Reading

namespace Integers

inductive Value where
  | tensor (elements : ZeroExtended Int)
  | constant (proto : TensorProto)

def tensor : Value → Option (ZeroExtended Int)
  | .tensor elements => if elements.shape.prod < 2 ^ 32 then some elements else none
  | .constant _ => none

/-- The entries of the four dimensions, in the order of the format. -/
def arrange {α : Type} (dataFormat : TensorFormat) (n h w c : α) : List α :=
  if dataFormat = .nchw then [n, c, h, w] else [n, h, w, c]

def convolve (desc : ConvolutionDesc) (pixels filter : ZeroExtended Int) : Option (List Value) :=
  match desc.outputShape, desc.strides, desc.dilations, filter.shape with
  | [n, h, w, c], [strideH, strideW], [dilationH, dilationW], [filterH, filterW, patchDepth, _] =>
    let shape := (arrange desc.dataFormat n h w c).map Int.toNat
    some [.tensor (.ofFn shape fun index =>
      let entry := getTensorDim index desc.dataFormat
      let group := entry DimIndices.c / (c / desc.groupCount)
      ((List.range filterH).map fun i => ((List.range filterW).map fun j =>
        ((List.range patchDepth).map fun k =>
          pixels.get (arrange desc.dataFormat (entry DimIndices.n)
            (entry DimIndices.h * strideH + i * dilationH)
            (entry DimIndices.w * strideW + j * dilationW) (group * patchDepth + k)) *
          filter.get [i, j, k, entry DimIndices.c]).sum).sum).sum)]
  | _, _, _, _ => none

def pad (input paddings : Value) : Option (List Value) :=
  match paddings with
  | .constant proto => do
    let pixels ← tensor input
    let amounts ← paddingAmounts proto
    if amounts.length = 2 * pixels.shape.length ∧ ∀ a ∈ amounts, 0 ≤ a then
      some [.tensor (pixels.pad (marginsOf amounts))]
    else none
  | .tensor _ => none

def eval (feed : NodeName → Option (ZeroExtended Int)) (name : NodeName) (op : String)
    (attr : List (String × AttrValue)) (inputs : List Value) : Option (List Value) :=
  match op, inputs with
  | "Placeholder", [] => (feed name).map fun elements => [.tensor elements]
  | "Const", [] =>
    match attr.lookup "value" with
    | some (.tensor proto) => some [.constant proto]
    | _ => none
  | "Pad", [input, paddings] => pad input paddings
  | "PadV2", [input, paddings, .constant fill] =>
    if constantValue fill = some (.finite 0) then pad input paddings else none
  | "Conv2D", [input, filter] => do
    conv2D convolve { name := name, op := "Conv2D", attr := attr } (← tensor input)
      (← tensor filter)
  | _, _ => none

variable {feed : NodeName → Option (ZeroExtended Int)} {name : NodeName} {op : String}
  {attr : List (String × AttrValue)} {inputs outputs : List Value}

theorem eval_const (eq : eval feed name "Const" attr inputs = some outputs) :
    ∃ proto, attr.lookup "value" = some (.tensor proto) ∧ outputs = [.constant proto] := by
  cases inputs with
  | nil =>
    simp only [eval] at eq
    split at eq
    · rename_i proto isValue
      exact ⟨proto, isValue, (some.inj eq).symm⟩
    · cases eq
  | cons => cases eq

theorem pad_eq_some {input paddings : Value} (eq : pad input paddings = some outputs) :
    ∃ pixels proto amounts, tensor input = some pixels ∧ paddings = .constant proto ∧
      paddingAmounts proto = some amounts ∧ amounts.length = 2 * pixels.shape.length ∧
      (∀ a ∈ amounts, 0 ≤ a) ∧ outputs = [.tensor (pixels.pad (marginsOf amounts))] := by
  unfold pad at eq
  split at eq
  · rename_i proto
    obtain ⟨pixels, isPixels, eq⟩ := bind_eq_some_iff.mp eq
    obtain ⟨amounts, isAmounts, eq⟩ := bind_eq_some_iff.mp eq
    obtain ⟨valid, eq⟩ := ite_none_right_eq_some.mp eq
    exact ⟨pixels, proto, amounts, isPixels, rfl, isAmounts, valid.1, valid.2, (some.inj eq).symm⟩
  · cases eq

theorem eval_pad (isOp : op = "Pad" ∨ op = "PadV2")
    (eq : eval feed name op attr inputs = some outputs) :
    ∃ input paddings rest, inputs = input :: paddings :: rest ∧
      rest.length = (if op = "Pad" then 0 else 1) ∧ pad input paddings = some outputs := by
  rcases isOp with rfl | rfl
  · match inputs with
    | [input, paddings] => exact ⟨input, paddings, [], rfl, rfl, eq⟩
    | [] | [_] | _ :: _ :: _ :: _ => cases eq
  · match inputs with
    | [input, paddings, .constant fill] =>
      simp only [eval, ite_none_right_eq_some] at eq
      exact ⟨input, paddings, [.constant fill], rfl, rfl, eq.2⟩
    | [] | [_] | [_, _] | _ :: _ :: .tensor _ :: _ | _ :: _ :: .constant _ :: _ :: _ =>
      cases eq

theorem eval_conv2D : eval feed name "Conv2D" attr inputs = some outputs ↔
    ∃ input filter pixels weights, inputs = [input, filter] ∧ tensor input = some pixels ∧
      tensor filter = some weights ∧
      conv2D convolve { name := name, op := "Conv2D", attr := attr } pixels weights =
        some outputs := by
  constructor
  · intro eq
    match inputs with
    | [input, filter] =>
      obtain ⟨pixels, isPixels, eq⟩ := bind_eq_some_iff.mp eq
      obtain ⟨weights, isWeights, eq⟩ := bind_eq_some_iff.mp eq
      exact ⟨input, filter, pixels, weights, rfl, isPixels, isWeights, eq⟩
    | [] | [_] | _ :: _ :: _ :: _ => cases eq
  · rintro ⟨input, filter, pixels, weights, rfl, isPixels, isWeights, eq⟩
    exact bind_eq_some_iff.mpr
      ⟨pixels, isPixels, bind_eq_some_iff.mpr ⟨weights, isWeights, eq⟩⟩

/-- The integers as a runtime, for tensors that are fed to the placeholders. -/
def semantics (feed : NodeName → Option (ZeroExtended Int)) : Semantics Value Int where
  eval := eval feed
  constant := .constant
  tensor := tensor
  convolve := convolve
  tensor_small {value} x isTensor := by
    cases value with
    | tensor elements =>
      obtain ⟨small, same⟩ := ite_none_right_eq_some.mp isTensor
      exact some.inj same ▸ small
    | constant proto => cases isTensor
  eval_const := eval_const
  eval_pad isOp computed := by
    obtain ⟨input, paddings, rest, rfl, restLength, padded⟩ := eval_pad isOp computed
    obtain ⟨pixels, proto, amounts, isPixels, rfl, isAmounts, rank, nonneg, rfl⟩ :=
      pad_eq_some padded
    refine ⟨input, _, rest, _, rfl, restLength, rfl, fun around isAround => ?_⟩
    obtain ⟨-, same⟩ := ite_none_right_eq_some.mp isAround
    obtain rfl := some.inj same
    refine ⟨pixels, isPixels, ?_⟩
    rintro _ ⟨⟩
    exact ⟨amounts, isAmounts, rank, nonneg, rfl, fun _ _ _ => rfl⟩
  eval_conv2D := eval_conv2D

end Integers

end TfDml.Optimizer.Remapper
