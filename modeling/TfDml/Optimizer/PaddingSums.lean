import TfDml.Optimizer.RemapperPass
import TfDml.Optimizer.SamePadding

/-! # The paddings of a `VALID` or `EXPLICIT` convolution

The amounts of the pad are stored in 32 bits, and the paddings of the convolution are added
to them there. What is written is the sum exactly where it fits.
-/

namespace TfDml.Optimizer.Remapper

open List

def IsValidOrExplicit (conv : NodeDef) : Prop :=
  conv.getAttr "padding" = some (.s "VALID") ∨ conv.getAttr "padding" = some (.s "EXPLICIT")

/-- The paddings of the convolution itself, two for each dimension. -/
def ownPaddings (conv : NodeDef) : List Int :=
  if conv.getAttr "padding" = some (.s "EXPLICIT") then
    ((conv.getAttr "explicit_paddings").map listOfAttr).getD []
  else replicate 8 0

theorem addPaddings_ok {values sums paddings : List Int} {n : Nat} (lt : n ≤ values.length)
    (added : (range n).foldlM
      (fun values i => addPadding values i (paddings.getD i 0)) values = .ok sums) :
    sums.length = values.length ∧ ∀ j, sums.getD j 0 =
      if j < n then toInt32 (values.getD j 0 + paddings.getD j 0) else values.getD j 0 := by
  induction n generalizing sums with
  | zero =>
    obtain rfl := Except.ok.inj added
    simp
  | succ n ih =>
    rw [range_succ, foldlM_append, bind_eq_ok] at added
    obtain ⟨front, isFront, last⟩ := added
    obtain ⟨length, get⟩ := ih (by omega) isFront
    rw [foldlM_cons, bind_eq_ok] at last
    obtain ⟨next, isNext, done⟩ := last
    obtain rfl := Except.ok.inj done
    obtain ⟨nextLength, nextGet⟩ := addPadding_ok isNext (by omega)
    refine ⟨nextLength.trans length, fun j => ?_⟩
    rw [nextGet, get, get]
    grind

theorem addConvPadding_eq {ctx : RemapperContext} {conv : NodeDef} {indices : DimIndices}
    {amounts sums : List Int} (win : IsValidOrExplicit conv) (eight : amounts.length = 8)
    (added : addConvPadding ctx conv indices (amounts.map toInt32) = .ok sums) :
    sums = (zipWith (· + ·) amounts (ownPaddings conv)).map toInt32 := by
  rcases win with isValid | isExplicit
  · have own : ownPaddings conv = replicate 8 0 := by simp [ownPaddings, isValid]
    simp only [addConvPadding, isValid, Except.ok.injEq] at added
    have same : zipWith (· + ·) amounts (ownPaddings conv) = amounts := by
      rw [own]
      apply ext_getElem
      · simp [eight]
      · intro i _ _
        simp only [getElem_zipWith, getElem_replicate, add_zero]
    rw [same, ← added]
  · simp only [addConvPadding, isExplicit, bind_eq_ok, defined_eq_ok, require_eq_ok,
      decide_eq_true_eq] at added
    obtain ⟨attr, isAttr, -, length, added⟩ := added
    have own : ownPaddings conv = listOfAttr attr := by simp [ownPaddings, isExplicit, isAttr]
    obtain ⟨sumsLength, get⟩ := addPaddings_ok (by rw [length_map, eight]) added
    rw [length_map, eight] at sumsLength
    apply ext_getElem
    · simp [own, length, eight, sumsLength]
    · intro i lt lt'
      have small : i < 8 := by omega
      have entry := get i
      rw [if_pos small, getD_map_toInt32, toInt32_toInt32_add] at entry
      simpa [getD_eq_getElem?_getD, own, lt, eight, length, small] using entry

namespace Fusion

variable {graph : List NodeDef} {nodesToPreserve : List NodeName} {found : PadWithConv2D}
  (fusion : Fusion graph nodesToPreserve found)

/-- The amounts of the pad and the paddings of the convolution, added up. -/
def sums (amounts : List Int) : List Int := zipWith (· + ·) amounts (ownPaddings fusion.conv)

/-- The paddings written are the sums, for what the constant of the pad decodes to. -/
def Exact : Prop := ∀ amounts, paddingAmounts fusion.tensor = some amounts →
  amounts.length = 8 → found.newPaddingValues = fusion.sums amounts

def Fits : Prop := ∀ amounts, paddingAmounts fusion.tensor = some amounts →
  amounts.length = 8 → ∀ sum ∈ fusion.sums amounts, FitsInt32 sum

variable {fusion}

theorem newPaddingValues_eq (win : IsValidOrExplicit fusion.conv) {amounts : List Int}
    (isAmounts : paddingAmounts fusion.tensor = some amounts) (eight : amounts.length = 8) :
    found.newPaddingValues = (fusion.sums amounts).map toInt32 := by
  have summed := fusion.summed
  rw [readPaddings_ok fusion.isValues isAmounts eight] at summed
  exact addConvPadding_eq win eight summed

theorem exact_iff (win : IsValidOrExplicit fusion.conv) : fusion.Exact ↔ fusion.Fits := by
  refine forall₃_congr fun amounts isAmounts eight => ?_
  rw [newPaddingValues_eq win isAmounts eight]
  nth_rewrite 2 [← map_id (fusion.sums amounts)]
  rw [map_inj_left]
  refine forall₂_congr fun sum _ => ?_
  rw [id_eq, toInt32_eq_iff, sub_self]
  exact and_iff_right (dvd_zero _)

end Fusion

end TfDml.Optimizer.Remapper
