import Mathlib.Logic.Basic

/-!
Inversion of `Except.bind`, the sequencing of the Go-style `if err != nil { return err }`
chains in the model: a bound computation succeeds exactly when both steps do, and fails with
the first step's error or with the second's.
-/

namespace Blade.Lib

variable {ε α β : Type}

@[simp] theorem bind_ok (a : α) (f : α → Except ε β) : (Except.ok a).bind f = f a := rfl

@[simp] theorem bind_error (e : ε) (f : α → Except ε β) :
    (Except.error e : Except ε α).bind f = .error e := rfl

@[simp] theorem ok_bind (a : α) (f : α → Except ε β) : (Except.ok a >>= f) = f a := rfl

@[simp] theorem error_bind (e : ε) (f : α → Except ε β) : (Except.error e >>= f) = .error e := rfl

@[simp] theorem map_ok (f : α → β) (a : α) : (Except.ok a : Except ε α).map f = .ok (f a) := rfl

@[simp] theorem mapError_ok {ε' : Type} (f : ε → ε') (a : α) :
    (Except.ok a : Except ε α).mapError f = .ok a := rfl

theorem bind_eq_ok {x : Except ε α} {f : α → Except ε β} {b : β} :
    x.bind f = .ok b ↔ ∃ a, x = .ok a ∧ f a = .ok b := by
  cases x <;> simp

theorem bind_eq_error {x : Except ε α} {f : α → Except ε β} {e : ε} :
    x.bind f = .error e ↔ x = .error e ∨ ∃ a, x = .ok a ∧ f a = .error e := by
  cases x <;> simp

theorem ite_error_eq_ok {c : Prop} [Decidable c] {e : ε} {x : Except ε α} {a : α} :
    (if c then .error e else x) = .ok a ↔ ¬c ∧ x = .ok a := by
  by_cases h : c <;> simp [h]

theorem bindM_eq_ok {x : Except ε α} {f : α → Except ε β} {b : β} :
    (x >>= f) = .ok b ↔ ∃ a, x = .ok a ∧ f a = .ok b :=
  bind_eq_ok

theorem mapM_map_eq_ok {f : β → Except ε α} {g : α → β} :
    ∀ {l : List α}, (∀ x ∈ l, f (g x) = .ok x) → (l.map g).mapM f = .ok l
  | [], _ => rfl
  | x :: xs, h => by
    rw [List.map_cons, List.mapM_cons, h x List.mem_cons_self,
      mapM_map_eq_ok fun y hy => h y (List.mem_cons_of_mem x hy)]
    rfl

def resultValue? {σ : Type} : EStateM.Result ε σ α → Option α
  | .ok a _ => some a
  | .error _ _ => none

end Blade.Lib
