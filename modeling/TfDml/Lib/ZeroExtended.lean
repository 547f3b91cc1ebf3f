import Mathlib.Algebra.Group.Int.Defs
import Mathlib.Data.List.Forall2
import Mathlib.Data.List.Indexes

/-! # Tensors between zeros

A tensor has a value at every index, which is zero outside of its shape. Padding with zeros
then only moves the indices, so that paddings one after the other add up.
-/

namespace TfDml.Lib

open List

def Inside (shape : List Nat) (index : List Int) : Prop :=
  List.Forall₂ (fun (size : Nat) (i : Int) => 0 ≤ i ∧ i < size) shape index

instance (shape : List Nat) (index : List Int) : Decidable (Inside shape index) :=
  inferInstanceAs (Decidable (List.Forall₂ _ _ _))

@[ext] structure Margins where
  before : Nat → Int
  after : Nat → Int

namespace Margins

instance : Add Margins where
  add m n := ⟨fun d => m.before d + n.before d, fun d => m.after d + n.after d⟩

@[simp] theorem before_add (m n : Margins) (d : Nat) :
    (m + n).before d = m.before d + n.before d := rfl

@[simp] theorem after_add (m n : Margins) (d : Nat) : (m + n).after d = m.after d + n.after d := rfl

structure Nonneg (m : Margins) : Prop where
  before : ∀ d, 0 ≤ m.before d
  after : ∀ d, 0 ≤ m.after d

def around (m : Margins) (shape : List Nat) : List Nat :=
  shape.mapIdx fun d (size : Nat) => (size + m.before d + m.after d).toNat

/-- The index without the margins before it. -/
def within (m : Margins) (index : List Int) : List Int := index.mapIdx fun d i => i - m.before d

theorem around_around {m : Margins} (first : m.Nonneg) (n : Margins) (shape : List Nat) :
    n.around (m.around shape) = (m + n).around shape := by
  simp only [around, mapIdx_mapIdx]
  refine mapIdx_eq_mapIdx_iff.mpr fun d lt => ?_
  have ge := first.before d
  have ge' := first.after d
  simp only [Function.comp_apply, before_add, after_add]
  omega

theorem within_within (m n : Margins) (index : List Int) :
    m.within (n.within index) = (m + n).within index := by
  simp only [within, mapIdx_mapIdx]
  refine mapIdx_eq_mapIdx_iff.mpr fun d lt => ?_
  simp only [Function.comp_apply, before_add]
  omega

theorem inside_around {m : Margins} (ge : m.Nonneg) {shape : List Nat}
    {index : List Int} (lt : Inside shape (m.within index)) : Inside (m.around shape) index := by
  obtain ⟨lens, each⟩ := forall₂_iff_get.mp lt
  rw [within, length_mapIdx] at lens
  refine forall₂_iff_get.mpr ⟨by rw [around, length_mapIdx, lens], ?_⟩
  intro d isSize isIndex
  have bounds := each d (lens ▸ isIndex) (by simpa [within] using isIndex)
  have first := ge.before d
  have snd := ge.after d
  simp only [within, around, get_eq_getElem, getElem_mapIdx] at bounds ⊢
  omega

end Margins

structure ZeroExtended (E : Type*) [Zero E] where
  shape : List Nat
  get : List Int → E
  zero_outside : ∀ index, ¬ Inside shape index → get index = 0

namespace ZeroExtended

variable {E : Type*} [Zero E]

theorem ext_get {x y : ZeroExtended E} (shape : x.shape = y.shape)
    (get : ∀ index, x.get index = y.get index) : x = y := by
  obtain ⟨_, _, _⟩ := x
  obtain ⟨_, _, _⟩ := y
  obtain rfl : _ = _ := shape
  obtain rfl : _ = _ := funext get
  rfl

def ofFn (shape : List Nat) (f : List Int → E) : ZeroExtended E where
  shape := shape
  get index := if Inside shape index then f index else 0
  zero_outside _ outside := if_neg outside

def pad (x : ZeroExtended E) (m : Margins) : ZeroExtended E :=
  ofFn (m.around x.shape) fun index => x.get (m.within index)

theorem get_pad (x : ZeroExtended E) {m : Margins} (ge : m.Nonneg) (index : List Int) :
    (x.pad m).get index = x.get (m.within index) := by
  by_cases lt : Inside (m.around x.shape) index
  · exact if_pos lt
  · have outside : ¬ Inside x.shape (m.within index) := fun within =>
      lt (Margins.inside_around ge within)
    exact (if_neg lt).trans (x.zero_outside _ outside).symm

theorem pad_pad (x : ZeroExtended E) {m n : Margins} (first : m.Nonneg) (snd : n.Nonneg) :
    (x.pad m).pad n = x.pad (m + n) := by
  have both : (m + n).Nonneg :=
    ⟨fun d => Int.add_nonneg (first.before d) (snd.before d),
      fun d => Int.add_nonneg (first.after d) (snd.after d)⟩
  refine ext_get (Margins.around_around first n x.shape) fun index => ?_
  rw [get_pad _ snd, get_pad _ first, get_pad _ both, Margins.within_within]

end ZeroExtended

end TfDml.Lib
