import Mathlib.Data.List.Induction

/-!
An undo log: a list of entries, each able to undo the change it records. Reverting to a mark
replays the undos of the entries after the mark, the last first, and cuts the log there.

`Undoes s entries s'` says that the log, started in state `s`, has led to `s'` with every entry
undoing exactly the change made when it was appended. Reverting then restores `s`, and
reverting to any mark inside the log restores the state at that mark: the chain of inverses
splits at every point.
-/

namespace Blade.Lib

variable {σ ε : Type} (undo : ε → σ → σ)

def undoAll (entries : List ε) (s : σ) : σ := entries.foldr undo s

@[simp] theorem undoAll_nil (s : σ) : undoAll undo [] s = s := rfl

@[simp] theorem undoAll_singleton (e : ε) (s : σ) : undoAll undo [e] s = undo e s := rfl

theorem undoAll_append (l₁ l₂ : List ε) (s : σ) :
    undoAll undo (l₁ ++ l₂) s = undoAll undo l₁ (undoAll undo l₂ s) :=
  List.foldr_append

inductive Undoes : σ → List ε → σ → Prop
  | nil (s : σ) : Undoes s [] s
  | snoc {s mid s' : σ} {entries : List ε} {e : ε} :
      Undoes s entries mid → undo e s' = mid → Undoes s (entries ++ [e]) s'

variable {undo}

theorem Undoes.undoAll_eq {s s' : σ} {entries : List ε} (h : Undoes undo s entries s') :
    undoAll undo entries s' = s := by
  induction h with
  | nil => rfl
  | snoc _ he ih => rw [undoAll_append, undoAll_singleton, he, ih]

theorem Undoes.append {s mid s' : σ} {l₁ l₂ : List ε} (h₁ : Undoes undo s l₁ mid)
    (h₂ : Undoes undo mid l₂ s') : Undoes undo s (l₁ ++ l₂) s' := by
  induction h₂ with
  | nil => simpa using h₁
  | snoc _ he ih =>
    rw [← List.append_assoc]
    exact .snoc ih he

theorem Undoes.dropLast {s s' : σ} {l : List ε} {e : ε} (h : Undoes undo s (l ++ [e]) s') :
    Undoes undo s l (undo e s') := by
  generalize hl : l ++ [e] = l' at h
  cases h with
  | nil => simp at hl
  | snoc hmid he =>
    obtain ⟨rfl, he'⟩ := List.append_inj' hl rfl
    cases he'
    rwa [he]

theorem Undoes.split {s s' : σ} {l₁ l₂ : List ε} (h : Undoes undo s (l₁ ++ l₂) s') :
    Undoes undo s l₁ (undoAll undo l₂ s') ∧ Undoes undo (undoAll undo l₂ s') l₂ s' := by
  induction l₂ using List.reverseRecOn generalizing s' with
  | nil => exact ⟨by simpa using h, .nil _⟩
  | append_singleton l₂ e ih =>
    rw [← List.append_assoc] at h
    obtain ⟨h₁, h₂⟩ := ih h.dropLast
    rw [undoAll_append, undoAll_singleton]
    exact ⟨h₁, .snoc h₂ rfl⟩

theorem Undoes.revert {s s' : σ} {l : List ε} (h : Undoes undo s l s') (n : ℕ) :
    Undoes undo s (l.take n) (undoAll undo (l.drop n) s') := by
  rw [← List.take_append_drop n l] at h
  exact h.split.1

end Blade.Lib
