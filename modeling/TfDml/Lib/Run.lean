import Mathlib.Data.List.Forall2

/-! # Finite runs of a partial step function

A component is a state type with a step function `σ → α → Option σ`; `none`
means that the action is not enabled there. Its runs are finite lists of
actions, so a fact about every interleaving is a fact about every list.
-/

namespace TfDml.Lib

open List Option

variable {σ α : Type*} {step : σ → α → Option σ}

/-- Perform the actions in order, failing at the first one that is not enabled. -/
def run (step : σ → α → Option σ) (s : σ) (actions : List α) : Option σ := actions.foldlM step s

@[simp] theorem run_nil (s : σ) : run step s [] = some s := rfl

theorem run_cons (s : σ) (a : α) (rest : List α) :
    run step s (a :: rest) = (step s a).bind fun t => run step t rest := rfl

theorem run_cons_iff {s u : σ} {a : α} {rest : List α} :
    run step s (a :: rest) = some u ↔ ∃ t, step s a = some t ∧ run step t rest = some u := by
  rw [run_cons, bind_eq_some_iff]

theorem run_append_iff {s u : σ} {first snd : List α} : run step s (first ++ snd) = some u ↔
      ∃ t, run step s first = some t ∧ run step t snd = some u := by
  induction first generalizing s with
  | nil => simp
  | cons a rest ih =>
    simp only [cons_append, run_cons_iff, ih]
    constructor
    · rintro ⟨m, hm, t, ht, hu⟩
      exact ⟨t, ⟨m, hm, ht⟩, hu⟩
    · rintro ⟨t, ⟨m, hm, ht⟩, hu⟩
      exact ⟨m, hm, t, ht, hu⟩

theorem run_invariant_of {I : σ → Prop} {ok : α → Prop}
    (keep : ∀ s a t, ok a → I s → step s a = some t → I t) {s u : σ} {actions : List α}
    (allowed : ∀ a ∈ actions, ok a) (start : I s) (reached : run step s actions = some u) :
    I u := by
  induction actions generalizing s with
  | nil =>
    simp only [run_nil, Option.some.injEq] at reached
    exact reached ▸ start
  | cons a rest ih =>
    obtain ⟨t, taken, later⟩ := run_cons_iff.mp reached
    exact ih (fun b mem => allowed b (mem_cons_of_mem a mem))
      (keep s a t (allowed a mem_cons_self) start taken) later

theorem run_invariant {I : σ → Prop} (keep : ∀ s a t, I s → step s a = some t → I t)
    {s u : σ} {actions : List α} (start : I s) (reached : run step s actions = some u) : I u :=
  run_invariant_of (fun s a t (_ : True) => keep s a t) (fun _ _ => trivial) start reached

/-- Every step that the run takes satisfies `P`, a relation between the state
    before the step, the action and the state after it. -/
def EveryStep (step : σ → α → Option σ) (P : σ → α → σ → Prop) : σ → List α → Prop
  | _, [] => True
  | s, a :: rest => ∀ t, step s a = some t → P s a t ∧ EveryStep step P t rest

theorem EveryStep.cons {P : σ → α → σ → Prop} {s t : σ} {a : α} {rest : List α}
    (taken : step s a = some t) (holds : P s a t) (later : EveryStep step P t rest) :
    EveryStep step P s (a :: rest) := by
  intro t' taken'
  obtain rfl := some.inj (taken.symm.trans taken')
  exact ⟨holds, later⟩

theorem EveryStep.and {P Q : σ → α → σ → Prop} {s : σ} {actions : List α}
    (first : EveryStep step P s actions) (snd : EveryStep step Q s actions) :
    EveryStep step (fun s a t => P s a t ∧ Q s a t) s actions := by
  induction actions generalizing s with
  | nil => exact trivial
  | cons a rest ih =>
    intro t taken
    obtain ⟨p, later⟩ := first t taken
    obtain ⟨q, later'⟩ := snd t taken
    exact ⟨⟨p, q⟩, ih later later'⟩

theorem run_everyStep {I : σ → Prop} {C : σ → α → σ → Prop}
    (keep : ∀ s a t, I s → step s a = some t → C s a t → I t) {s u : σ} {actions : List α}
    (every : EveryStep step C s actions) (start : I s) (reached : run step s actions = some u) :
    I u := by
  induction actions generalizing s with
  | nil =>
    simp only [run_nil, Option.some.injEq] at reached
    exact reached ▸ start
  | cons a rest ih =>
    obtain ⟨t, taken, later⟩ := run_cons_iff.mp reached
    obtain ⟨met, onward⟩ := every t taken
    exact ih onward (keep s a t start taken met) later

theorem everyStep_of {I : σ → Prop} {P C : σ → α → σ → Prop}
    (keep : ∀ s a t, I s → step s a = some t → C s a t → I t ∧ P s a t)
    {s : σ} (start : I s) {actions : List α} (every : EveryStep step C s actions) :
    EveryStep step P s actions := by
  induction actions generalizing s with
  | nil => exact trivial
  | cons a rest ih =>
    intro t taken
    obtain ⟨met, later⟩ := every t taken
    obtain ⟨next, holds⟩ := keep s a t start taken met
    exact ⟨holds, ih next later⟩

theorem everyStep_invariant {I : σ → Prop} {P : σ → α → σ → Prop}
    (keep : ∀ s a t, I s → step s a = some t → I t ∧ P s a t) {s : σ} (start : I s)
    (actions : List α) : EveryStep step P s actions := by
  induction actions generalizing s with
  | nil => exact trivial
  | cons a rest ih =>
    intro t taken
    obtain ⟨next, holds⟩ := keep s a t start taken
    exact ⟨holds, ih next⟩

theorem everyStep_iff {I : σ → Prop} {P C : σ → α → σ → Prop}
    (keep : ∀ s a t, I s → step s a = some t → C s a t → I t ∧ P s a t)
    (breaks : ∀ s a t, I s → step s a = some t → ¬ C s a t → ¬ P s a t)
    {s : σ} (start : I s) (actions : List α) :
    EveryStep step P s actions ↔ EveryStep step C s actions := by
  refine ⟨?_, everyStep_of keep start⟩
  induction actions generalizing s with
  | nil => exact fun _ => trivial
  | cons a rest ih =>
    intro every t taken
    obtain ⟨holds, later⟩ := every t taken
    have met : C s a t := by
      by_contra unmet
      exact breaks s a t start taken unmet holds
    exact ⟨met, ih (keep s a t start taken met).1 later⟩

theorem run_good_or_bad {good bad : σ → Prop} {C : σ → α → σ → Prop}
    (keep : ∀ s a t, good s → step s a = some t → C s a t → good t)
    (breaks : ∀ s a t, good s → step s a = some t → ¬ C s a t → bad t)
    (stays : ∀ s a t, bad s → step s a = some t → bad t)
    {s u : σ} (start : good s) {actions : List α} (reached : run step s actions = some u) :
    EveryStep step C s actions ∧ good u ∨ ¬ EveryStep step C s actions ∧ bad u := by
  induction actions generalizing s with
  | nil =>
    simp only [run_nil, Option.some.injEq] at reached
    exact Or.inl ⟨trivial, reached ▸ start⟩
  | cons a rest ih =>
    obtain ⟨t, taken, later⟩ := run_cons_iff.mp reached
    by_cases met : C s a t
    · rcases ih (keep s a t start taken met) later with ⟨every, ends⟩ | ⟨broken, ends⟩
      · exact Or.inl ⟨.cons taken met every, ends⟩
      · exact Or.inr ⟨fun every => broken (every t taken).2, ends⟩
    · have ends := run_invariant stays (breaks s a t start taken met) later
      exact Or.inr ⟨fun every => met (every t taken).1, ends⟩

theorem foldlM_invariant {ε α β : Type*} {f : β → α → Except ε β} {I : β → Prop}
    (keep : ∀ b a c, I b → f b a = .ok c → I c) {as : List α} {b c : β} (start : I b)
    (folded : as.foldlM f b = .ok c) : I c := by
  induction as generalizing b with
  | nil =>
    simp only [foldlM_nil, pure, Except.pure, Except.ok.injEq] at folded
    exact folded ▸ start
  | cons a rest ih =>
    rw [foldlM_cons] at folded
    cases taken : f b a with
    | error e => simp [taken, bind, Except.bind] at folded
    | ok next =>
      rw [taken] at folded
      exact ih (keep b a next start taken) folded

theorem foldlM_range_ok {ε β : Type*} {f : β → Nat → Except ε β} {I : β → Nat → Prop} {n : Nat}
    {b : β} (start : I b 0)
    (step : ∀ i < n, ∀ b, I b i → ∃ c, f b i = .ok c ∧ I c (i + 1)) :
    ∃ c, (List.range n).foldlM f b = .ok c ∧ I c n := by
  induction n with
  | zero => exact ⟨b, rfl, start⟩
  | succ n ih =>
    obtain ⟨c, folded, holds⟩ := ih fun i less => step i (Nat.lt_succ_of_lt less)
    obtain ⟨d, taken, next⟩ := step n (Nat.lt_succ_self n) c holds
    refine ⟨d, ?_, next⟩
    rw [range_succ, foldlM_append, folded]
    simp [taken, bind, Except.bind, pure, Except.pure]

theorem forM_eq_ok {ε α : Type*} {f : α → Except ε Unit} {l : List α} {result : Unit} :
    l.forM f = .ok result ↔ ∀ x ∈ l, f x = .ok () := by
  induction l with
  | nil => simp [pure, Except.pure]
  | cons x rest ih =>
    have step : (x :: rest).forM f = (f x >>= fun _ => rest.forM f) := rfl
    rw [step, forall_mem_cons, ← ih]
    cases f x with
    | error e => simp [bind, Except.bind]
    | ok taken => simp [bind, Except.bind]

theorem forall₂_of_mapM {α β : Type*} {f : α → Option β} {xs : List α} {ys : List β}
    (mapped : xs.mapM f = some ys) : List.Forall₂ (fun x y => f x = some y) xs ys := by
  induction xs generalizing ys with
  | nil =>
    simp only [mapM_nil, Option.pure_def, Option.some.injEq] at mapped
    exact mapped ▸ .nil
  | cons x rest ih =>
    simp only [mapM_cons, Option.pure_def, bind_eq_bind, bind_eq_some_iff] at mapped
    obtain ⟨y, first, tail, mapped, same⟩ := mapped
    exact some.inj same ▸ .cons first (ih mapped)

theorem exists_of_mapM {α β : Type*} {f : α → Option β} {xs : List α} {ys : List β} {x : α}
    (mapped : xs.mapM f = some ys) (mem : x ∈ xs) : ∃ y, f x = some y := by
  induction forall₂_of_mapM mapped with
  | nil => cases mem
  | cons first rest ih =>
    cases mem_cons.mp mem with
    | inl same => exact ⟨_, same ▸ first⟩
    | inr later =>
      rw [mapM_cons] at mapped
      simp only [bind_eq_bind, bind_eq_some_iff] at mapped
      obtain ⟨_, -, _, mappedRest, same⟩ := mapped
      obtain ⟨rfl, rfl⟩ := List.cons.inj (some.inj same)
      exact ih mappedRest later

theorem forall₂_of_mapM_ok {ε α β : Type*} {f : α → Except ε β} {xs : List α} {ys : List β}
    (mapped : xs.mapM f = .ok ys) : List.Forall₂ (fun x y => f x = .ok y) xs ys := by
  induction xs generalizing ys with
  | nil =>
    obtain rfl := Except.ok.inj mapped
    exact .nil
  | cons x rest ih =>
    rw [mapM_cons] at mapped
    cases first : f x with
    | error e => simp [first, bind, Except.bind] at mapped
    | ok y =>
      cases later : rest.mapM f with
      | error e => simp [first, later, bind, Except.bind] at mapped
      | ok tail =>
        simp only [first, later, bind, Except.bind, pure, Except.pure, Except.ok.injEq] at mapped
        exact mapped ▸ .cons first (ih later)

theorem mapM_eq_ok {ε α β : Type*} {f : α → Except ε β} {P : α → Prop} {g : α → β}
    (spec : ∀ x y, f x = .ok y ↔ P x ∧ g x = y) {l : List α} {result : List β} :
    l.mapM f = .ok result ↔ (∀ x ∈ l, P x) ∧ l.map g = result := by
  induction l generalizing result with
  | nil => simp [pure, Except.pure]
  | cons x rest ih =>
    rw [mapM_cons, forall_mem_cons, map_cons]
    cases first : f x with
    | error e =>
      have fails : ¬P x := fun holds => by simpa [first] using (spec x (g x)).mpr ⟨holds, rfl⟩
      simp [bind, Except.bind, fails]
    | ok y =>
      obtain ⟨holds, rfl⟩ := (spec x y).mp first
      cases later : rest.mapM f with
      | error e =>
        have none_ : ¬∀ x ∈ rest, P x := fun each => by simpa [later] using ih.mpr ⟨each, rfl⟩
        simp [bind, Except.bind, holds, none_]
      | ok ys =>
        obtain ⟨each, rfl⟩ := ih.mp later
        simpa [bind, Except.bind, pure, Except.pure, holds] using fun _ => each

theorem mapM_ok {ε α β : Type*} {f : α → Except ε β} {g : α → β} {l : List α}
    (each : ∀ x ∈ l, f x = .ok (g x)) : l.mapM f = .ok (l.map g) := by
  induction l with
  | nil => rfl
  | cons x rest ih =>
    obtain ⟨first, later⟩ := forall_mem_cons.mp each
    rw [mapM_cons, first, ih later]
    rfl

theorem mapM_eq_some {α β : Type*} {f : α → Option β} {g : α → β} {l : List α}
    (each : ∀ x ∈ l, f x = some (g x)) : l.mapM f = some (l.map g) := by
  induction l with
  | nil => rfl
  | cons x rest ih =>
    obtain ⟨first, later⟩ := forall_mem_cons.mp each
    rw [mapM_cons, first, ih later]
    rfl

theorem mapM_congr_left {α β : Type*} {f g : α → Option β} {l : List α}
    (same : ∀ x ∈ l, f x = g x) : l.mapM f = l.mapM g := by
  induction l with
  | nil => rfl
  | cons x rest ih =>
    rw [forall_mem_cons] at same
    rw [mapM_cons, mapM_cons, same.1, ih same.2]

theorem exists_mapM_eq_some {α β : Type*} {f : α → Option β} {l : List α}
    (each : ∀ x ∈ l, ∃ y, f x = some y) : ∃ ys, l.mapM f = some ys ∧ ys.length = l.length ∧
      ∀ (i : Nat) (x : α), l[i]? = some x → ys[i]? = f x := by
  induction l with
  | nil => exact ⟨[], rfl, rfl, fun i x got => by simp at got⟩
  | cons x rest ih =>
    obtain ⟨⟨y, first⟩, later⟩ := forall_mem_cons.mp each
    obtain ⟨ys, mapped, length, same⟩ := ih later
    refine ⟨y :: ys, ?_, congrArg Nat.succ length, fun i x' got => ?_⟩
    · rw [mapM_cons, first, mapped]
      rfl
    · cases i with
      | zero =>
        obtain rfl := some.inj got
        exact first.symm
      | succ i => exact same i x' got

end TfDml.Lib
