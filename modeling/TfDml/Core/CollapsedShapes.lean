import TfDml.Core.BCastRuns
import TfDml.Core.BroadcastShapes
import TfDml.Core.Stop
import Mathlib.Data.List.DropRight
import Mathlib.Data.Nat.Cast.Order.Ring
import Mathlib.Algebra.Order.Ring.Int

/-! # The shapes of an element-wise op

An init helper computes the shape of the output three times: it broadcasts the shapes of the inputs,
collapses them, and broadcasts what they are collapsed to. It does the latter also if the inputs
are not compatible.
-/

namespace TfDml.CollapsedShapes

open Lib BCast
open List hiding merge
open BroadcastShapes (broadcastTensorShapes broadcastedOutputShape walk)
open RangeOp (i64)

/-- A dimension of `BroadcastTensorShape`, if no `CHECK` fails. -/
def checkedDim (inDim0 inDim1 : Int) : Option Int :=
  if inDim0 = inDim1 ∨ inDim0 = 1 ∨ inDim1 = 1 then
    let broadcastedDim := max inDim0 inDim1
    if 0 ≤ broadcastedDim then some (if inDim0 = 0 ∨ inDim1 = 0 then 0 else broadcastedDim)
    else none
  else none

/-- The loop of `BroadcastTensorShape`. -/
def walkSigned : Nat → List Int → List Int → Option (List Int)
  | 0, _, _ => some []
  | rank + 1, rest0, rest1 => do
    let dim ← checkedDim (rest0.headD 1) (rest1.headD 1)
    let inner ← walkSigned rank rest0.tail rest1.tail
    some (dim :: inner)

def broadcastShape (inputShape0 inputShape1 : List Int) : Option (List Int) :=
  if inputShape0 = inputShape1 then some inputShape0
  else
    (walkSigned (max inputShape0.length inputShape1.length) inputShape0.reverse
      inputShape1.reverse).map reverse

/-- `BroadcastTensorShapes` -/
def broadcastShapes : List (List Int) → Option (List Int)
  | [] => none
  | first :: rest => (first :: rest).foldlM broadcastShape first

def compatible (pair : Nat × Nat) : Bool := (classify pair.1 pair.2).isSome

/-- The pairs of dimensions that the constructor of `BCast` gets through, from the innermost one
    outwards. -/
def visited (sx sy : TensorShape) : List (Nat × Nat) := (extended sx sy).rtakeWhile compatible

/-- `x_reshape` and `y_reshape`. Of operands that are not compatible, the constructor leaves what it
    has collected, innermost dimension first. -/
def reshapes (sx sy : TensorShape) : List Int × List Int :=
  match create sx sy true with
  | some bcast => (bcast.xReshape, bcast.yReshape)
  | none =>
    let dims := ((collect true (visited sx sy)).map Loop.dims).getD []
    ((dims.map Dim.x).reverse, (dims.map Dim.y).reverse)

def getCollapsedShapes : List TensorShape → List (List Int)
  | [input] => [[(input.numElements : Int)]]
  | [input0, input1] => [(reshapes input0 input1).1, (reshapes input0 input1).2]
  | inputs => inputs.map fun shape => shape.map Nat.cast

def tooManyDimensions (maxDimCount rank : Nat) : Status :=
  .invalidArgument ("DML doesn't support more than " ++ toString maxDimCount ++
    " dimensions for this operator, but " ++ toString rank ++ " were provided.")

/-- `ElementWiseInitHelper`, with the collapsed shape of the output. The first error that is
    recorded stays. -/
def elementWiseInitHelper (maxDimCount : Nat) (inputs : List TensorShape) :
    Except Stop (List Int) :=
  match broadcastShapes (getCollapsedShapes inputs) with
  | none => .error .fatal
  | some collapsed =>
    match broadcastedOutputShape inputs with
    | .error reported => .error (.status reported)
    | .ok _ =>
      if collapsed.length ≤ maxDimCount then .ok collapsed
      else .error (.status (tooManyDimensions maxDimCount collapsed.length))

/-- It reports exactly what it has to, stops in no other way, and the shape of an accepted output
    has the elements of the broadcast one. -/
structure Validates (maxDimCount : Nat) (inputs : List TensorShape) : Prop where
  reports : (∃ reported, elementWiseInitHelper maxDimCount inputs = .error (.status reported) ∧
      reported.isInvalidArgument = true) ↔ broadcastAll inputs = none ∨
      ∃ collapsed, broadcastShapes (getCollapsedShapes inputs) = some collapsed ∧
        maxDimCount < collapsed.length
  orderly : Stop.Orderly (elementWiseInitHelper maxDimCount inputs)
  elements : ∀ collapsed, elementWiseInitHelper maxDimCount inputs = .ok collapsed →
    ∃ shape, broadcastAll inputs = some shape ∧ collapsed.prod = (shape.prod : Int)

/-- The size of a run of dimensions in which neither shape has ones wraps to a negative number. -/
def Negative (run : Run) : Prop := run.state = .same ∧ i64 run.size < 0
  deriving Decidable

def commonRuns (sx sy : TensorShape) : List Run := merge ((pairRuns (visited sx sy)).getD [])

def Shared (run : Run) : Prop := run.state = .same ∨ i64 run.size = 1
  deriving Decidable

def RunsFit (sx sy : TensorShape) : Prop :=
  (∀ run ∈ commonRuns sx sy, Shared run) ∨ ∀ run ∈ commonRuns sx sy, ¬ Negative run

/-- More than two inputs are compatible, and the runs of two inputs fit. -/
def Checkable : List TensorShape → Prop
  | [] => False
  | [_] => True
  | [sx, sy] => RunsFit sx sy
  | inputs => broadcastAll inputs ≠ none

theorem checkedDim_natCast (x y : Nat) : checkedDim x y = (broadcastDim x y).map Nat.cast := by
  rw [checkedDim, BroadcastShapes.broadcastDim_eq]
  have nat : (0 : Int) ≤ max (x : Int) y := le_max_of_le_left (Int.natCast_nonneg x)
  have fits : ((x : Int) = y ∨ (x : Int) = 1 ∨ (y : Int) = 1) ↔ (x = y ∨ x = 1 ∨ y = 1) := by omega
  have zero : ((x : Int) = 0 ∨ (y : Int) = 0) ↔ (x = 0 ∨ y = 0) := by omega
  simp only [fits, zero, nat, if_true]
  split
  · rw [Option.map_some]
    split
    · rfl
    · rw [Nat.cast_max]
  · rfl

theorem walkSigned_natCast (rank : Nat) (xs ys : List Nat) :
    walkSigned rank (xs.map Nat.cast) (ys.map Nat.cast) =
      (walk rank xs ys).map (List.map Nat.cast) := by
  induction rank generalizing xs ys with
  | zero => rfl
  | succ rank ih =>
    have head (zs : List Nat) :
        (zs.map (Nat.cast : Nat → Int)).headD 1 = ((zs.headD 1 : Nat) : Int) := by
      cases zs with
      | nil => rfl
      | cons z zs => rfl
    rw [walkSigned, BroadcastShapes.walk_succ, head, head, checkedDim_natCast, ← map_tail,
      ← map_tail, ih]
    cases broadcastDim (xs.headD 1) (ys.headD 1) with
    | none => rfl
    | some dim => cases walk rank xs.tail ys.tail <;> rfl

theorem broadcastShape_natCast (x y : TensorShape) :
    broadcastShape (x.map Nat.cast) (y.map Nat.cast) = (broadcast x y).map (List.map Nat.cast) := by
  have same : x.map (Nat.cast : Nat → Int) = y.map Nat.cast ↔ x = y :=
    (map_injective_iff.mpr Nat.cast_injective).eq_iff
  rw [broadcastShape, ← BroadcastShapes.broadcastTensorShape_eq,
    BroadcastShapes.broadcastTensorShape]
  simp only [same]
  split
  case isTrue => rfl
  case isFalse =>
    rw [← map_reverse, ← map_reverse, length_map, length_map,
      walkSigned_natCast, Option.map_map, Option.map_map]
    exact congrArg (Option.map · _) (funext fun dims => map_reverse.symm)

theorem broadcastShapes_natCast (first : TensorShape) (rest : List TensorShape) :
    broadcastShapes ((first :: rest).map fun shape => shape.map Nat.cast) =
      (broadcastAll (first :: rest)).map (List.map Nat.cast) := by
  have fold (shapes : List TensorShape) (start : TensorShape) :
      (shapes.map fun shape => shape.map Nat.cast).foldlM broadcastShape (start.map Nat.cast) =
        (shapes.foldlM broadcast start).map (List.map Nat.cast) := by
    induction shapes generalizing start with
    | nil => rfl
    | cons shape shapes ih =>
      rw [map_cons, foldlM_cons, foldlM_cons, broadcastShape_natCast]
      cases broadcast start shape with
      | none => rfl
      | some next => exact ih next
  rw [← BroadcastShapes.broadcastTensorShapes_eq, map_cons, broadcastShapes, ← map_cons,
    fold, BroadcastShapes.broadcastTensorShapes]
  have step : BroadcastShapes.broadcastTensorShape = broadcast :=
    funext fun x => funext fun y => BroadcastShapes.broadcastTensorShape_eq x y
  rw [step]

/-- What a run is broadcast to, if no `CHECK` fails. -/
def common (run : Run) : Int :=
  if run.state = .same then i64 run.size
  else if i64 run.size = 0 then 0 else max 1 (i64 run.size)

def Known (runs : List Run) : Prop := ∀ run ∈ runs, run.state ≠ .unknown

variable {run : Run}

theorem checkedDim_dim (known : run.state ≠ .unknown) :
    checkedDim run.dim.x run.dim.y = if Negative run then none else some (common run) := by
  obtain ⟨state, size⟩ := run
  simp only [common, Run.dim, Negative]
  generalize i64 size = n
  cases state with
  | unknown => exact absurd rfl known
  | same =>
    simp only [checkedDim, true_and, true_or, if_true, max_self, or_self]
    by_cases nat : 0 ≤ n
    · rw [if_pos nat, if_neg (not_lt.mpr nat)]
      split <;> simp_all
    · rw [if_neg nat, if_pos (not_le.mp nat)]
  | xOne =>
    have nat : 0 ≤ max 1 n := by omega
    simp [checkedDim, nat]
  | yOne => simp [checkedDim, max_comm n 1]

theorem dim_shared (known : run.state ≠ .unknown) :
    (run.dim.x = run.dim.y ↔ Shared run) ∧ (Shared run → run.dim.x = common run) := by
  obtain ⟨state, size⟩ := run
  simp only [Shared, common, Run.dim]
  generalize i64 size = n
  cases state with
  | unknown => exact absurd rfl known
  | same => simp
  | xOne => simp +contextual [eq_comm]
  | yOne => simp +contextual

variable {runs : List Run}

theorem walkSigned_dims (known : Known runs) :
    walkSigned runs.length (runs.map fun run => run.dim.x) (runs.map fun run => run.dim.y) =
      if ∀ run ∈ runs, ¬ Negative run then some (runs.map common) else none := by
  induction runs with
  | nil => rfl
  | cons run rest ih =>
    rw [Known, forall_mem_cons] at known
    rw [length_cons, map_cons, map_cons, walkSigned, headD_cons,
      headD_cons, tail_cons, tail_cons, checkedDim_dim known.1, ih known.2]
    simp only [forall_mem_cons]
    by_cases first : Negative run
    · rw [if_pos first, if_neg (not_and.mpr fun fits => absurd first fits)]
      rfl
    · rw [if_neg first]
      by_cases later : ∀ run ∈ rest, ¬ Negative run
      · rw [if_pos later, if_pos ⟨first, later⟩]
        rfl
      · rw [if_neg later, if_neg (not_and_of_not_right _ later)]
        rfl

theorem broadcastShapes_dims (known : Known runs) :
    broadcastShapes [runs.map fun run => run.dim.x, runs.map fun run => run.dim.y] =
      if (∀ run ∈ runs, Shared run) ∨ ∀ run ∈ runs, ¬ Negative run then some (runs.map common)
      else none := by
  have eq : ((runs.map fun run => run.dim.x) = runs.map fun run => run.dim.y) ↔
      ∀ run ∈ runs, Shared run := by
    rw [map_inj_left]
    exact forall₂_congr fun run mem => (dim_shared (known run mem)).1
  have first (xs ys : List Int) : broadcastShapes [xs, ys] = broadcastShape xs ys := by
    rw [broadcastShapes, foldlM_cons, broadcastShape, if_pos rfl]
    exact Option.bind_fun_some (broadcastShape xs ys)
  rw [first, broadcastShape]
  by_cases shared : ∀ run ∈ runs, Shared run
  · rw [if_pos (eq.mpr shared), if_pos (Or.inl shared), Option.some.injEq, map_inj_left]
    exact fun run mem => (dim_shared (known run mem)).2 (shared run mem)
  · have knownReverse : Known runs.reverse := fun run mem =>
      known run (mem_reverse.mp mem)
    have walked := walkSigned_dims knownReverse
    simp only [mem_reverse, length_reverse] at walked
    rw [if_neg (eq.not.mpr shared), length_map, length_map, max_self,
      ← map_reverse, ← map_reverse, walked]
    simp only [shared, false_or]
    split
    · rw [Option.map_some, ← map_reverse, reverse_reverse]
    · rfl

theorem prod_common (fits : (∀ run ∈ runs, run.size < 2 ^ 63) ∨ (runs.map Run.size).prod = 0) :
    (runs.map common).prod = ((runs.map Run.size).prod : Int) := by
  have entry (run : Run) (lt : run.size < 2 ^ 63) : common run = run.size := by
    have size : i64 run.size = run.size := RangeOp.i64_of_bounds (by omega) (by omega)
    rw [common, size]
    split_ifs <;> omega
  rcases fits with lt | empty
  · rw [map_congr_left fun run mem => entry run (lt run mem), Nat.cast_list_prod, map_map]
    rfl
  · have zero := prod_eq_zero_iff.mp empty
    rw [empty, Nat.cast_zero, prod_eq_zero_iff]
    obtain ⟨run, mem, none_⟩ := mem_map.mp zero
    refine mem_map.mpr ⟨run, mem, ?_⟩
    rw [entry run (by omega), none_]
    rfl

variable {pairs : List (Nat × Nat)}

theorem known_of_pairRuns (got : pairRuns pairs = some runs) : Known runs := by
  induction pairs generalizing runs with
  | nil =>
    obtain rfl := Option.some.inj got
    exact forall_mem_nil _
  | cons pair inner ih =>
    obtain ⟨x, y⟩ := pair
    rw [pairRuns] at got
    obtain ⟨rest, later, got⟩ := Option.bind_eq_some_iff.mp got
    obtain ⟨⟨curr, o, bx, by_⟩, first, same⟩ := Option.bind_eq_some_iff.mp got
    obtain rfl := Option.some.inj same
    refine forall_mem_cons.mpr ⟨?_, ih later⟩
    rw [classify] at first
    split_ifs at first <;> cases first <;> rintro ⟨⟩

theorem state_merge {P : State → Prop} (all : ∀ run ∈ runs, P run.state) :
    ∀ run ∈ merge runs, P run.state := by
  induction runs with
  | nil => exact all
  | cons run rest ih =>
    rw [forall_mem_cons] at all
    have later := ih all.2
    rw [merge]
    cases merged : merge rest with
    | nil =>
      rw [prepend]
      split
      · exact forall_mem_nil _
      · exact forall_mem_singleton.mpr all.1
    | cons group others =>
      rw [merged] at later
      have outer := (forall_mem_cons.mp later).2
      rw [prepend]
      split_ifs
      · exact later
      · exact forall_mem_cons.mpr ⟨all.1, outer⟩
      · exact forall_mem_cons.mpr ⟨all.1, later⟩

theorem known_merge (known : Known runs) : Known (merge runs) :=
  state_merge (P := (· ≠ .unknown)) known

theorem exists_pairRuns (pairs : List (Nat × Nat))
    (fits : ∀ pair ∈ pairs, compatible pair = true) : ∃ runs, pairRuns pairs = some runs := by
  induction pairs with
  | nil => exact ⟨[], rfl⟩
  | cons pair inner ih =>
    rw [forall_mem_cons] at fits
    obtain ⟨runs, later⟩ := ih fits.2
    obtain ⟨⟨curr, o, bx, by_⟩, first⟩ := Option.isSome_iff_exists.mp fits.1
    refine ⟨⟨curr, o⟩ :: runs, ?_⟩
    rw [pairRuns, later, first]
    rfl

theorem compatible_of_pairRuns (got : pairRuns pairs = some runs) :
    ∀ pair ∈ pairs, compatible pair = true := by
  induction pairs generalizing runs with
  | nil => exact fun pair mem => nomatch mem
  | cons pair inner ih =>
    obtain ⟨x, y⟩ := pair
    rw [pairRuns] at got
    obtain ⟨rest, later, got⟩ := Option.bind_eq_some_iff.mp got
    obtain ⟨result, first, -⟩ := Option.bind_eq_some_iff.mp got
    refine forall_mem_cons.mpr ⟨?_, ih later⟩
    rw [compatible, first]
    rfl

variable {sx sy : TensorShape}

theorem visited_of_pairRuns (got : pairRuns (extended sx sy) = some runs) :
    commonRuns sx sy = merge runs := by
  have whole : visited sx sy = extended sx sy :=
    rtakeWhile_eq_self_iff.mpr (compatible_of_pairRuns got)
  rw [commonRuns, whole, got]
  rfl

theorem checked_operandRuns (got : pairRuns (extended sx sy) = some runs) :
    Known (operandRuns sx sy true runs) ∧ (((∀ run ∈ operandRuns sx sy true runs, Shared run) ∨
          ∀ run ∈ operandRuns sx sy true runs, ¬ Negative run) ↔ RunsFit sx sy) := by
  have commons := visited_of_pairRuns got
  rw [RunsFit, commons, operandRuns]
  split
  case isTrue same =>
    obtain ⟨rfl, -⟩ := same
    rw [extended, Nat.max_self, aligned_length, pairRuns_self] at got
    have sames : ∀ run ∈ runs, run.state = .same := by
      obtain rfl := Option.some.inj got
      intro run mem
      obtain ⟨size, -, rfl⟩ := mem_map.mp mem
      rfl
    have merged := state_merge (P := (· = .same)) sames
    refine ⟨forall_mem_singleton.mpr (by rintro ⟨⟩), iff_of_true ?_ ?_⟩
    · exact .inl (forall_mem_singleton.mpr (.inl rfl))
    · exact .inl fun run mem => .inl (merged run mem)
  case isFalse =>
    split
    case isTrue empty =>
      rw [List.isEmpty_iff, collapsed, if_pos rfl] at empty
      rw [empty]
      refine ⟨forall_mem_singleton.mpr (by rintro ⟨⟩), iff_of_true ?_ ?_⟩
      · exact .inl (forall_mem_singleton.mpr (.inl rfl))
      · exact .inl (forall_mem_nil _)
    case isFalse => exact ⟨known_merge (known_of_pairRuns got), Iff.rfl⟩

theorem small_extended (sized : Sized sx) (sized' : Sized sy) :
    ∀ pair ∈ extended sx sy, pair.1 < 2 ^ 63 ∧ pair.2 < 2 ^ 63 := by
  intro pair mem
  obtain ⟨first, snd⟩ := of_mem_zip mem
  exact ⟨lt_of_mem_aligned sized.dims first, lt_of_mem_aligned sized'.dims snd⟩

theorem broadcastShapes_reshapes (sized : Sized sx) (sized' : Sized sy) :
    (broadcastShapes (getCollapsedShapes [sx, sy]) ≠ none ↔ RunsFit sx sy) ∧
      ∀ collapsed shape, broadcastShapes (getCollapsedShapes [sx, sy]) = some collapsed →
        broadcast sx sy = some shape → collapsed.prod = (shape.prod : Int) := by
  rw [getCollapsedShapes, reshapes]
  cases new : create sx sy true with
  | some bcast =>
    obtain ⟨runs, got, spec⟩ := exists_runs sized sized' new
    obtain ⟨known, fit⟩ := checked_operandRuns got
    have entries := broadcastShapes_dims known
    simp only [xReshape, yReshape, spec.dims, map_map, Function.comp_def, entries, ← fit]
    refine ⟨ite_ne_right_iff.trans (and_iff_left (Option.some_ne_none _)), fun collapsed shape some_ output => ?_⟩
    obtain ⟨-, some_⟩ := Option.ite_none_right_eq_some.mp some_
    rw [← Option.some.inj some_, prod_common spec.fits, spec.size,
      Option.some.inj (spec.shape.symm.trans output)]
  | none =>
    have none_ : broadcast sx sy = none := by
      rw [← create_output sx sy true, new]
      rfl
    have suffix : ∀ pair ∈ visited sx sy, pair.1 < 2 ^ 63 ∧ pair.2 < 2 ^ 63 := fun pair mem =>
      small_extended sized sized' pair (rtakeWhile_suffix _ _ |>.subset mem)
    obtain ⟨runs, got⟩ := exists_pairRuns (visited sx sy) fun pair mem =>
      mem_rtakeWhile_imp mem
    have known : Known (merge runs).reverse := fun run mem =>
      known_merge (known_of_pairRuns got) run (mem_reverse.mp mem)
    have entries := broadcastShapes_dims known
    refine ⟨?_, fun _ _ _ output => by cases none_.symm.trans output⟩
    rw [collect_eq suffix, got]
    simp only [Option.map_some, Option.getD_some, map_map, Function.comp_def, collapsed,
      if_true, ← map_reverse, entries, RunsFit, commonRuns, got, mem_reverse]
    exact ite_ne_right_iff.trans (and_iff_left (Option.some_ne_none _))

theorem broadcastedOutputShape_toOption (inputs : List TensorShape) :
    (broadcastedOutputShape inputs).toOption = broadcastAll inputs :=
  BroadcastShapes.foldlM_broadcastInput inputs []

theorem validates_iff {maxDimCount : Nat} {inputs : List TensorShape}
    (xs : ∀ collapsed shape, broadcastShapes (getCollapsedShapes inputs) = some collapsed →
      broadcastAll inputs = some shape → collapsed.prod = (shape.prod : Int)) :
    Validates maxDimCount inputs ↔ broadcastShapes (getCollapsedShapes inputs) ≠ none := by
  have result := broadcastedOutputShape_toOption inputs
  constructor
  · intro valid failed
    have orderly := valid.orderly .fatal (by rw [elementWiseInitHelper, failed])
    obtain ⟨err, other⟩ := orderly
    exact nomatch other
  · intro passed
    obtain ⟨collapsed, some_⟩ := Option.ne_none_iff_exists'.mp passed
    cases output : broadcastedOutputShape inputs with
    | error err =>
      have invalid := BroadcastShapes.broadcastedOutputShape_error output
      have helper : elementWiseInitHelper maxDimCount inputs = .error (.status err) := by
        rw [elementWiseInitHelper, some_, output]
      rw [output] at result
      refine ⟨iff_of_true ⟨err, helper, invalid⟩ (.inl result.symm), ?_, ?_⟩
      · rw [helper]
        exact Stop.orderly_error
      · intro collapsed ok
        exact nomatch helper.symm.trans ok
    | ok shape =>
      rw [output] at result
      have broadcasted : broadcastAll inputs = some shape := result.symm
      by_cases fits : collapsed.length ≤ maxDimCount
      · have helper : elementWiseInitHelper maxDimCount inputs = .ok collapsed := by
          rw [elementWiseInitHelper, some_, output]
          exact if_pos fits
        refine ⟨iff_of_false ?_ ?_, ?_, ?_⟩
        · rintro ⟨err, failed, -⟩
          exact nomatch helper.symm.trans failed
        · rintro (none_ | ⟨other, got, large⟩)
          · exact nomatch none_.symm.trans broadcasted
          · obtain rfl := Option.some.inj (some_.symm.trans got)
            exact absurd fits (Nat.not_le.mpr large)
        · rw [helper]
          exact Stop.orderly_ok
        · intro other ok
          obtain rfl := Except.ok.inj (helper.symm.trans ok)
          exact ⟨shape, broadcasted, xs collapsed shape some_ broadcasted⟩
      · have helper : elementWiseInitHelper maxDimCount inputs =
            .error (.status (tooManyDimensions maxDimCount collapsed.length)) := by
          rw [elementWiseInitHelper, some_, output]
          exact if_neg fits
        refine ⟨iff_of_true ⟨_, helper, rfl⟩ (.inr ⟨collapsed, some_, Nat.not_le.mp fits⟩), ?_, ?_⟩
        · rw [helper]
          exact Stop.orderly_error
        · intro other ok
          exact nomatch helper.symm.trans ok

theorem broadcastAll_pair (sx sy : TensorShape) : broadcastAll [sx, sy] = broadcast sx sy := by
  rw [broadcastAll, foldlM_cons, broadcast_nil]
  exact Option.bind_fun_some (broadcast sx sy)

structure Inputs where
  first : TensorShape
  rest : List TensorShape
  sized : ∀ shape ∈ first :: rest, Sized shape

/-- The shapes are validated without aborting if and only if they are checkable. -/
theorem Inputs.validates_iff_checkable (c : Inputs) (maxDimCount : Nat) :
    Validates maxDimCount (c.first :: c.rest) ↔ Checkable (c.first :: c.rest) := by
  obtain ⟨first, rest, sized⟩ := c
  match rest, sized with
  | [], _ =>
    have collapsed : broadcastShapes (getCollapsedShapes [first]) = some [(first.prod : Int)] := by
      rw [getCollapsedShapes, broadcastShapes, foldlM_cons, broadcastShape, if_pos rfl]
      rfl
    rw [validates_iff, collapsed]
    · exact iff_of_true nofun trivial
    · intro other shape got output
      rw [broadcastAll, foldlM_cons, broadcast_nil] at output
      obtain rfl := Option.some.inj output
      obtain rfl := Option.some.inj (collapsed.symm.trans got)
      exact prod_singleton
  | [second], sized =>
    obtain ⟨fit, xs⟩ := broadcastShapes_reshapes (sized first (by simp))
      (sized second (by simp))
    rw [validates_iff, fit, Checkable]
    intro collapsed shape got output
    exact xs collapsed shape got ((broadcastAll_pair first second).symm.trans output)
  | second :: third :: others, _ =>
    have collapsed : broadcastShapes (getCollapsedShapes (first :: second :: third :: others)) =
        (broadcastAll (first :: second :: third :: others)).map (List.map Nat.cast) :=
      broadcastShapes_natCast first (second :: third :: others)
    have checkable : Checkable (first :: second :: third :: others) ↔
        broadcastAll (first :: second :: third :: others) ≠ none := Iff.rfl
    rw [validates_iff, collapsed, checkable, ne_eq, Option.map_eq_none_iff]
    intro other shape got output
    rw [collapsed, output, Option.map_some, Option.some.injEq] at got
    rw [← got, Nat.cast_list_prod]

/-- Three shapes that are not compatible end the process. -/
theorem incompatible_abort : ¬ Validates 8 [[2], [3], [1]] := by
  intro valid
  obtain ⟨err, other⟩ := valid.orderly .fatal (by decide)
  exact nomatch other

end TfDml.CollapsedShapes
