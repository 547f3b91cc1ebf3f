import TfDml.Core.OpKernelContext

/-! # How a function stops

A function that checks its arguments returns, reports a status, or stops in a way that no caller
can handle: a failed `CHECK` ends the process, and some operations have no defined result.
-/

namespace TfDml

/-- How a function stops without a result. -/
inductive Stop where
  /-- It reports the status to its caller. -/
  | status (status : Status)
  /-- A `CHECK` fails, or `LogFatal` is reached. -/
  | fatal
  | overflow
  | divisionByZero
  /-- It reads an element that a list does not have. -/
  | outOfRange
  deriving DecidableEq

namespace Stop

/-- `OP_REQUIRES` in a function that may also stop in other ways. -/
def require (condition : Bool) (reported : Status) : Except Stop Unit :=
  if condition then .ok () else .error (.status reported)

def check (condition : Bool) : Except Stop Unit := if condition then .ok () else .error .fatal

/-- `OP_REQUIRES_OK`. -/
def requireOk {α : Type} : Except Status α → Except Stop α
  | .ok a => .ok a
  | .error reported => .error (.status reported)

/-- `OP_REQUIRES_OK` of a function whose arithmetic may overflow. -/
def requireChecked {α : Type} : Option (Except Status α) → Except Stop α
  | some result => requireOk result
  | none => .error .overflow

def Reports {α : Type} (result : Except Stop α) : Prop :=
  ∃ reported, result = .error (.status reported)

/-- The function returns, or it reports an error. -/
def Orderly {α : Type} (result : Except Stop α) : Prop :=
  ∀ stop, result = .error stop → ∃ reported, stop = .status reported

section Bind

variable {α β : Type} {x : Except Stop α} {f : α → Except Stop β}

theorem ok_bind {a : α} : ((.ok a : Except Stop α) >>= f) = f a := rfl

variable {stop : Stop}

theorem error_bind : ((.error stop : Except Stop α) >>= f) = .error stop := rfl

theorem bind_eq_error :
    (x >>= f) = .error stop ↔ x = .error stop ∨ ∃ a, x = .ok a ∧ f a = .error stop := by
  cases x with
  | error e => simp [bind, Except.bind]
  | ok a => simp [bind, Except.bind]

theorem bind_ne_error (first : x ≠ .error stop) (next : ∀ a, x = .ok a → f a ≠ .error stop) :
    (x >>= f) ≠ .error stop := by
  intro err
  cases bind_eq_error.mp err with
  | inl early => exact first early
  | inr late =>
    obtain ⟨a, isOk, err⟩ := late
    exact next a isOk err

theorem orderly_bind (first : Orderly x) (next : ∀ a, x = .ok a → Orderly (f a)) :
    Orderly (x >>= f) := by
  intro stop err
  cases bind_eq_error.mp err with
  | inl early => exact first stop early
  | inr late =>
    obtain ⟨a, isOk, err⟩ := late
    exact next a isOk stop err

theorem Orderly.reports_iff {result : Except Stop α} (orderly : Orderly result) :
    Reports result ↔ ¬∃ a, result = .ok a := by
  cases result with
  | ok a => simp [Reports]
  | error stop =>
    obtain ⟨reported, rfl⟩ := orderly stop rfl
    simp [Reports]

end Bind

section Ends

variable {α : Type} {condition : Bool} {reported : Status}

@[simp] theorem require_eq_ok {result : Unit} :
    require condition reported = .ok result ↔ condition = true := by
  cases condition with
  | true => simp [require]
  | false => simp [require]

variable {stop : Stop}

@[simp] theorem require_eq_error :
    require condition reported = .error stop ↔ condition = false ∧ stop = .status reported := by
  cases condition with
  | true => simp [require]
  | false => simp [require, eq_comm]

@[simp] theorem orderly_require : Orderly (require condition reported) := by
  intro stop err
  exact ⟨reported, (require_eq_error.mp err).2⟩

variable {a : α}

@[simp] theorem orderly_ok : Orderly (.ok a : Except Stop α) := by
  intro stop err
  cases err

@[simp] theorem orderly_error {reported : Status} :
    Orderly (.error (.status reported) : Except Stop α) := by
  intro stop err
  exact ⟨reported, (Except.error.inj err).symm⟩

variable {result : Except Status α}

@[simp] theorem orderly_requireOk : Orderly (requireOk result) := by
  cases result with
  | error reported => exact orderly_error
  | ok a => exact orderly_ok

@[simp] theorem check_eq_ok {result : Unit} : check condition = .ok result ↔ condition = true := by
  cases condition with
  | true => simp [check]
  | false => simp [check]

@[simp] theorem check_eq_error :
    check condition = .error stop ↔ condition = false ∧ stop = .fatal := by
  cases condition with
  | true => simp [check]
  | false => simp [check, eq_comm]

@[simp] theorem requireOk_eq_ok : requireOk result = .ok a ↔ result = .ok a := by
  cases result with
  | error reported => simp [requireOk]
  | ok b => simp [requireOk]

@[simp] theorem requireChecked_eq_ok {result : Option (Except Status α)} :
    requireChecked result = .ok a ↔ result = some (.ok a) := by
  cases result with
  | none => simp [requireChecked]
  | some result => simp [requireChecked]

theorem require_ne_divisionByZero : require condition reported ≠ .error .divisionByZero := by simp

theorem requireOk_ne_divisionByZero : requireOk result ≠ .error .divisionByZero := by
  intro err
  obtain ⟨_, other⟩ := orderly_requireOk _ err
  cases other

theorem requireChecked_ne_divisionByZero {result : Option (Except Status α)} :
    requireChecked result ≠ .error .divisionByZero := by
  cases result with
  | none => simp [requireChecked]
  | some result => exact requireOk_ne_divisionByZero

theorem require_bind_congr {f g : Unit → Except Stop α}
    (same : condition = true → f () = g ()) :
    (require condition reported >>= f) = (require condition reported >>= g) := by
  cases condition with
  | true => exact same rfl
  | false => rfl

theorem requireOk_bind {β : Type} {x : Except Status β} {f : β → Except Status α} :
    requireOk (x >>= f) = (requireOk x >>= fun b => requireOk (f b)) := by
  cases x with
  | error reported => rfl
  | ok b => rfl

theorem requireOk_opRequires : requireOk (opRequires condition reported) =
    require condition reported := by
  cases condition with
  | true => rfl
  | false => rfl

end Ends

end Stop

end TfDml
