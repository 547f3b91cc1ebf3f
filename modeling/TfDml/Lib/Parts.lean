import TfDml.Lib.Pushforward

/-! # Parts of an array along an axis

A row-major array is cut along one axis. Its parts, one after another, have an element for
each index, which is the element of the whole array.
-/

namespace TfDml.Lib

open List

variable {α : Type*}

/-- The elements whose position on the axis is one of `n` from the offset on. -/
def part (sizes : List Nat) (axis : Nat) (values : List α) (offset n : Nat) : List α :=
  (indices (sizes.set axis n)).filterMap fun index =>
    values[flatten sizes (index.modify axis (offset + ·))]?

def partsFrom (sizes : List Nat) (axis : Nat) (values : List α) : Nat → List Nat → List (List α)
  | _, [] => []
  | offset, n :: rest =>
    part sizes axis values offset n :: partsFrom sizes axis values (offset + n) rest

/-- The element of parts that lie one after another, which are listed with their lengths. -/
def joinedEntry (sizes : List Nat) (axis : Nat) : List (Nat × List α) → List Nat → Option α
  | [], _ => none
  | (n, values) :: rest, index =>
    if index.getD axis 0 < n then values[flatten (sizes.set axis n) index]?
    else joinedEntry sizes axis rest (index.modify axis (· - n))

variable {sizes : List Nat} {axis : Nat} {values : List α}

theorem map_eq_map_some_filterMap {β : Type*} {f : α → Option β} {l : List α}
    (defined : ∀ x ∈ l, (f x).isSome) : l.map f = (l.filterMap f).map some := by
  induction l with
  | nil => rfl
  | cons x rest ih =>
    obtain ⟨y, got⟩ := Option.isSome_iff_exists.mp (defined x mem_cons_self)
    rw [map_cons, filterMap_cons_some got, map_cons, got,
      ih fun z mem => defined z (mem_cons_of_mem x mem)]

variable {n : Nat} {index : List Nat}

theorem modify_mem_indices_set {m : Nat} {g : Nat → Nat}
    (mem : index ∈ indices (sizes.set axis m))
    (below : ∀ h : axis < index.length, g index[axis] < n) :
    index.modify axis g ∈ indices (sizes.set axis n) := by
  have length := length_of_mem_indices mem
  rw [length_set] at length
  refine mem_indices_of_getElem (by rw [length_modify, length_set, length])
    fun d lt lt' => ?_
  rw [length_set] at lt
  have own := getElem_lt_of_mem_indices mem (d := d) (by rwa [length_set]) (by omega)
  rw [getElem_set] at own
  rw [getElem_modify, getElem_set]
  split
  case isTrue here =>
    subst here
    exact below _
  case isFalse elsewhere => rwa [if_neg elsewhere] at own

variable {offset : Nat}

theorem offset_mem_indices (mem : index ∈ indices (sizes.set axis n))
    (fits : ∀ h : axis < sizes.length, offset + n ≤ sizes[axis]) :
    index.modify axis (offset + ·) ∈ indices sizes := by
  have length := length_of_mem_indices mem
  rw [length_set] at length
  by_cases lt : axis < sizes.length
  · have own := getElem_lt_of_mem_indices mem (by rwa [length_set])
      (by rwa [length] : axis < index.length)
    rw [getElem_set_self] at own
    have moved := modify_mem_indices_set (n := sizes[axis]) (g := (offset + ·)) mem
      fun _ => by
        have below := fits lt
        omega
    rwa [set_getElem_self] at moved
  · rw [set_eq_of_length_le (Nat.le_of_not_lt lt)] at mem
    rwa [modify_eq_self (by omega)]

theorem map_part (whole : values.length = sizes.prod)
    (fits : ∀ h : axis < sizes.length, offset + n ≤ sizes[axis]) :
    ((indices (sizes.set axis n)).map fun index =>
      values[flatten sizes (index.modify axis (offset + ·))]?) =
      (part sizes axis values offset n).map some := by
  refine map_eq_map_some_filterMap fun index mem => ?_
  rw [isSome_getElem?, whole]
  exact flatten_lt (offset_mem_indices mem fits)

theorem part_getElem? (whole : values.length = sizes.prod)
    (fits : ∀ h : axis < sizes.length, offset + n ≤ sizes[axis])
    (mem : index ∈ indices (sizes.set axis n)) :
    (part sizes axis values offset n)[flatten (sizes.set axis n) index]? =
      values[flatten sizes (index.modify axis (offset + ·))]? := by
  have got := congrArg (·[flatten (sizes.set axis n) index]?) (map_part whole fits)
  simp only [getElem?_map, getElem?_flatten mem, Option.map_some] at got
  cases inPart : (part sizes axis values offset n)[flatten (sizes.set axis n) index]? with
  | none =>
    rw [inPart] at got
    cases got
  | some x =>
    rw [inPart] at got
    exact (Option.some.inj got).symm

theorem length_part (whole : values.length = sizes.prod)
    (fits : ∀ h : axis < sizes.length, offset + n ≤ sizes[axis]) :
    (part sizes axis values offset n).length = (sizes.set axis n).prod := by
  have lens := congrArg List.length (map_part whole fits)
  rw [length_map, length_map, length_indices] at lens
  exact lens.symm

theorem length_partsFrom (offset : Nat) (ns : List Nat) :
    (partsFrom sizes axis values offset ns).length = ns.length := by
  induction ns generalizing offset with
  | nil => rfl
  | cons n rest ih => rw [partsFrom, length_cons, length_cons, ih]

variable {ns : List Nat}

theorem length_of_mem_partsFrom (whole : values.length = sizes.prod) (lt : axis < sizes.length)
    (fits : offset + ns.sum ≤ sizes[axis]) {entry : Nat × List α}
    (mem : entry ∈ ns.zip (partsFrom sizes axis values offset ns)) :
    entry.2.length = (sizes.set axis entry.1).prod := by
  induction ns generalizing offset with
  | nil => cases mem
  | cons n rest ih =>
    rw [sum_cons] at fits
    rw [partsFrom, zip_cons_cons] at mem
    rcases mem_cons.mp mem with rfl | later
    · exact length_part whole fun _ => by omega
    · exact ih (by omega) later

theorem filter_zip_partsFrom (offset : Nat) (ns : List Nat) :
    (ns.zip (partsFrom sizes axis values offset ns)).filter (fun entry => entry.1 != 0) =
      (ns.filter (· != 0)).zip (partsFrom sizes axis values offset (ns.filter (· != 0))) := by
  induction ns generalizing offset with
  | nil => rfl
  | cons n rest ih =>
    rw [partsFrom, zip_cons_cons]
    cases n with
    | zero => exact ih offset
    | succ n =>
      rw [filter_cons_of_pos (by simp), filter_cons_of_pos (by simp), partsFrom, zip_cons_cons, ih]

theorem part_zero (lt : axis < sizes.length) (offset : Nat) :
    part sizes axis values offset 0 = [] := by
  have empty : indices (sizes.set axis 0) = [] := by
    refine eq_nil_of_length_eq_zero ?_
    rw [length_indices]
    exact prod_eq_zero (mem_set (h := lt) (a := 0))
  rw [part, empty, filterMap_nil]

theorem eq_nil_of_mem_partsFrom (lt : axis < sizes.length) {p : List α}
    (mem : (0, p) ∈ ns.zip (partsFrom sizes axis values offset ns)) : p = [] := by
  induction ns generalizing offset with
  | nil => cases mem
  | cons n rest ih =>
    rw [partsFrom, zip_cons_cons] at mem
    rcases mem_cons.mp mem with here | later
    · obtain ⟨rfl, rfl⟩ := Prod.mk.inj here
      exact part_zero lt offset
    · exact ih later

theorem joinedEntry_partsFrom (whole : values.length = sizes.prod) (lt : axis < sizes.length)
    (fits : offset + ns.sum ≤ sizes[axis]) (mem : index ∈ indices (sizes.set axis ns.sum)) :
    joinedEntry sizes axis (ns.zip (partsFrom sizes axis values offset ns)) index =
      values[flatten sizes (index.modify axis (offset + ·))]? := by
  have length := length_of_mem_indices mem
  rw [length_set] at length
  have here : axis < index.length := length ▸ lt
  have below := getElem_lt_of_mem_indices mem (by rwa [length_set]) here
  rw [getElem_set_self] at below
  induction ns generalizing offset index with
  | nil => exact absurd below (Nat.not_lt_zero _)
  | cons n rest ih =>
    rw [sum_cons] at fits below mem
    rw [partsFrom, zip_cons_cons, joinedEntry, getD_eq_getElem _ _ here]
    split
    case isTrue first =>
      refine part_getElem? whole (fun _ => by omega) ?_
      have moved := modify_mem_indices_set (g := id) mem fun _ => first
      rwa [modify_id] at moved
    case isFalse later =>
      have moved := modify_mem_indices_set (n := rest.sum) (g := (· - n)) mem
        fun _ => by omega
      have rebuilt : (index.modify axis (· - n)).modify axis (offset + n + ·) =
          index.modify axis (offset + ·) := by
        refine ext_getElem (by simp) fun d _ _ => ?_
        simp only [getElem_modify]
        split
        case isTrue here =>
          subst here
          omega
        case isFalse => rfl
      rw [ih (by omega) moved (by simpa using length) (by simpa using here)
        (by rw [getElem_modify_eq]; omega), rebuilt]

theorem find?_zipIdx_of_lt (p : α → Bool) (l : List α) {k i : Nat} (early : i < k) :
    ((l.zipIdx k).find? fun entry => p entry.1 && entry.2 == i) = none := by
  refine find?_eq_none.mpr fun entry mem => ?_
  have later := le_snd_of_mem_zipIdx mem
  rw [Bool.and_eq_true, beq_iff_eq]
  rintro ⟨-, rfl⟩
  omega

theorem find?_zipIdx (p : α → Bool) (l : List α) (k i : Nat) :
    ((l.zipIdx k).find? fun entry => p entry.1 && entry.2 == k + i) =
      (l[i]?.filter p).map (·, k + i) := by
  induction l generalizing k i with
  | nil => rfl
  | cons x rest ih =>
    rw [zipIdx_cons, find?_cons]
    cases i with
    | zero =>
      rw [getElem?_cons_zero, add_zero, find?_zipIdx_of_lt p rest (Nat.lt_succ_self k)]
      cases holds : p x with
      | true => simp [holds]
      | false => simp [holds]
    | succ i =>
      have other : (k == k + (i + 1)) = false := beq_eq_false_iff_ne.mpr (by omega)
      rw [other, Bool.and_false, getElem?_cons_succ, ← Nat.succ_add_eq_add_succ, ih]

theorem map_fst_filter_zipIdx (p : α → Bool) (l : List α) (k : Nat) :
    ((l.zipIdx k).filter fun entry => p entry.1).map Prod.fst = l.filter p := by
  have mapped := List.filter_map (f := Prod.fst) (p := p) (l := l.zipIdx k)
  rw [zipIdx_map_fst] at mapped
  exact mapped.symm

end TfDml.Lib
