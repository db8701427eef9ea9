import Mathlib.Data.Nat.Notation

/-!
A loop that runs a body while the state has not stopped, with fuel for the number of bodies it
may run: Go's `for !s.stop { ... }` where the body may set the flag.

A predicate the body keeps holds after every run (`loop_invariant`). More fuel continues a run
(`loop_add`); a run that has stopped stays where it is, so then it changes nothing
(`loop_add_of_stop`). When a measure falls at every body after which the loop goes on, a fuel of
one more than the measure is enough to stop (`loop_stop_of_measure`), and the result is then the
same for every larger fuel.
-/

namespace Blade.Lib

variable {σ : Type} (stop : σ → Bool) (body : σ → σ)

/-- `for !stop(s) { s = body(s) }`, for at most `fuel` bodies. -/
def loop : ℕ → σ → σ
  | 0, s => s
  | fuel + 1, s => if stop s then s else loop fuel (body s)

@[simp] theorem loop_zero (s : σ) : loop stop body 0 s = s := rfl

theorem loop_succ (fuel : ℕ) (s : σ) :
    loop stop body (fuel + 1) s = if stop s then s else loop stop body fuel (body s) := rfl

variable {stop body}

theorem loop_of_stop {s : σ} (h : stop s = true) (fuel : ℕ) : loop stop body fuel s = s := by
  cases fuel with
  | zero => rfl
  | succ fuel => rw [loop_succ, if_pos h]

theorem loop_of_not_stop {s : σ} (h : stop s = false) (fuel : ℕ) :
    loop stop body (fuel + 1) s = loop stop body fuel (body s) := by
  rw [loop_succ, if_neg (by simp [h])]

theorem loop_invariant (P : σ → Prop) (hstep : ∀ s, stop s = false → P s → P (body s)) :
    ∀ fuel s, P s → P (loop stop body fuel s)
  | 0, _, hs => hs
  | fuel + 1, s, hs => by
    cases h : stop s with
    | false =>
      rw [loop_of_not_stop h]
      exact loop_invariant P hstep fuel (body s) (hstep s h hs)
    | true =>
      rw [loop_of_stop h]
      exact hs

theorem loop_add (a b : ℕ) (s : σ) :
    loop stop body (a + b) s = loop stop body b (loop stop body a s) := by
  induction a generalizing s with
  | zero => rw [Nat.zero_add, loop_zero]
  | succ a ih =>
    rw [Nat.add_right_comm]
    cases hs : stop s with
    | false =>
      rw [loop_of_not_stop hs, loop_of_not_stop hs]
      exact ih (body s)
    | true => simp only [loop_of_stop hs]

theorem loop_add_of_stop {fuel : ℕ} {s : σ} (h : stop (loop stop body fuel s) = true) (k : ℕ) :
    loop stop body (fuel + k) s = loop stop body fuel s := by
  rw [loop_add]
  exact loop_of_stop h k

section Measure

variable (μ : σ → ℕ)
  (hdec : ∀ s, stop s = false → stop (body s) = false → μ (body s) < μ s)
include hdec

theorem loop_stop_of_lt : ∀ fuel s, μ s < fuel → stop (loop stop body fuel s) = true
  | 0, _, h => absurd h (Nat.not_lt_zero _)
  | fuel + 1, s, h => by
    cases hs : stop s with
    | false =>
      rw [loop_of_not_stop hs]
      cases hb : stop (body s) with
      | false =>
        have hlt := hdec s hs hb
        exact loop_stop_of_lt fuel (body s) (by omega)
      | true =>
        rw [loop_of_stop hb]
        exact hb
    | true =>
      rw [loop_of_stop hs]
      exact hs

theorem loop_stop_of_measure (s : σ) : stop (loop stop body (μ s + 1) s) = true :=
  loop_stop_of_lt μ hdec _ s (Nat.lt_succ_self _)

theorem loop_eq_of_measure {s : σ} {fuel : ℕ} (h : μ s < fuel) :
    loop stop body fuel s = loop stop body (μ s + 1) s := by
  obtain ⟨k, rfl⟩ := Nat.exists_eq_add_of_le (Nat.succ_le_of_lt h)
  exact loop_add_of_stop (loop_stop_of_measure μ hdec s) k

end Measure

end Blade.Lib
