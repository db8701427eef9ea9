import Mathlib.Algebra.Order.BigOperators.Group.Finset
import Mathlib.Algebra.BigOperators.Group.Finset.Piecewise
import Mathlib.Tactic.Linarith
import Mathlib.Tactic.Ring

/-!
Smooth weighted round robin over an arbitrary finite set of indices: at every step each
priority grows by its weight and one maximal priority pays the total weight `T`. From zero
priorities every priority stays above `-T`, and after `T` steps the priorities are zero again
and every index has been picked as often as its weight.
-/

namespace Blade.Lib.RoundRobin

open Finset

variable {ι : Type*} [DecidableEq ι]

/-- One step: `m` has a maximal priority once the weights are added, and pays `T`. -/
def IsStep (w : ι → ℤ) (T : ℤ) (p : ι → ℤ) (m : ι) (p' : ι → ℤ) : Prop :=
  (∀ j, p j + w j ≤ p m + w m) ∧ ∀ j, p' j = p j + w j - if j = m then T else 0

/-- A run picks the indices of the list, in order. -/
inductive Run (w : ι → ℤ) (T : ℤ) : (ι → ℤ) → List ι → (ι → ℤ) → Prop
  | nil (p : ι → ℤ) : Run w T p [] p
  | cons {p q r : ι → ℤ} {m : ι} {ms : List ι} :
      IsStep w T p m q → Run w T q ms r → Run w T p (m :: ms) r

variable {w : ι → ℤ} {T : ℤ} {p q r : ι → ℤ} {m : ι} {ms ms' : List ι}

theorem Run.apply (h : Run w T p ms q) (i : ι) :
    q i = p i + ms.length * w i - T * ms.count i := by
  induction h with
  | nil p => simp
  | @cons p q r m ms hs _ ih =>
    rw [ih, hs.2 i, List.length_cons, List.count_cons]
    by_cases him : i = m
    · subst him; simp; ring
    · have hne : (m == i) = false := by simpa using Ne.symm him
      simp [him, hne]; ring

theorem Run.unique (h : Run w T p ms q) (h' : Run w T p ms r) : q = r := by
  funext i
  rw [h.apply i, h'.apply i]

theorem Run.append (h : Run w T p ms q) (h' : Run w T q ms' r) : Run w T p (ms ++ ms') r := by
  induction h with
  | nil p => exact h'
  | cons hs _ ih => exact .cons hs (ih h')

theorem Run.split (h : Run w T p (ms ++ ms') r) : ∃ q, Run w T p ms q ∧ Run w T q ms' r := by
  induction ms generalizing p with
  | nil => exact ⟨p, .nil p, h⟩
  | cons m ms ih =>
    cases h with
    | cons hs ht =>
      obtain ⟨q, h1, h2⟩ := ih ht
      exact ⟨q, .cons hs h1, h2⟩

variable [Fintype ι]

theorem IsStep.sum (h : IsStep w T p m q) : ∑ j, q j = ∑ j, p j + ∑ j, w j - T := by
  simp only [h.2, sum_sub_distrib, sum_add_distrib, sum_ite_eq', mem_univ, if_true]

theorem Run.sum_eq (h : Run w T p ms q) (hT : ∑ j, w j = T) : ∑ j, q j = ∑ j, p j := by
  induction h with
  | nil p => rfl
  | cons hs _ ih => rw [ih, hs.sum, hT, add_sub_cancel_right]

section Bounds

variable (hw : ∀ j, 0 ≤ w j) (hT : ∑ j, w j = T) (hT0 : 0 < T)
include hw hT hT0

/-- A step keeps the sum and the lower bound `-T`: the picked priority is positive before it
pays, since the priorities after the increase sum to `T`. -/
theorem IsStep.lower (h : IsStep w T p m q) (hp0 : ∑ j, p j = 0) (hp : ∀ j, -T < p j) :
    ∑ j, q j = 0 ∧ ∀ j, -T < q j := by
  refine ⟨by rw [h.sum, hp0, hT]; ring, fun j => ?_⟩
  have hpos : 0 < p m + w m := by
    by_contra hle
    have hsum : ∑ j, (p j + w j) ≤ 0 :=
      sum_nonpos fun j _ => le_trans (h.1 j) (not_lt.mp hle)
    rw [sum_add_distrib, hp0, hT] at hsum
    omega
  rw [h.2 j]
  by_cases hjm : j = m
  · subst hjm; simp only [if_true]; omega
  · simp only [hjm, if_false]; have := hw j; have := hp j; omega

theorem Run.lower (h : Run w T p ms q) (hp0 : ∑ j, p j = 0) (hp : ∀ j, -T < p j) :
    ∑ j, q j = 0 ∧ ∀ j, -T < q j := by
  induction h with
  | nil p => exact ⟨hp0, hp⟩
  | cons hs _ ih =>
    obtain ⟨h0, hl⟩ := hs.lower hw hT hT0 hp0 hp
    exact ih h0 hl

theorem Run.period (h : Run w T 0 ms q) (hlen : (ms.length : ℤ) = T) :
    q = 0 ∧ ∀ i, (ms.count i : ℤ) = w i := by
  have hform : ∀ i, q i = T * (w i - ms.count i) := by
    intro i; rw [h.apply i, hlen]; simp; ring
  obtain ⟨hsum, hlow⟩ := h.lower hw hT hT0 (by simp) fun _ => by simpa using hT0
  have hnonneg : ∀ i, 0 ≤ q i := by
    intro i
    have hgt : T * (-1) < T * (w i - ms.count i) := by rw [← hform]; linarith [hlow i]
    have := lt_of_mul_lt_mul_left hgt hT0.le
    rw [hform]
    exact mul_nonneg hT0.le (by omega)
  have hzero : ∀ i, q i = 0 := fun i =>
    (sum_eq_zero_iff_of_nonneg fun j _ => hnonneg j).mp hsum i (mem_univ i)
  refine ⟨funext hzero, fun i => ?_⟩
  have h0 := hzero i
  rw [hform] at h0
  have := (mul_eq_zero.mp h0).resolve_left hT0.ne'
  omega

theorem Run.window {n k : ℕ} (hn : (n : ℤ) = T) (h : Run w T 0 ms q)
    (hpre : Run w T 0 (ms.take (k * n)) 0) (hk : (k + 1) * n ≤ ms.length) :
    Run w T 0 (ms.take ((k + 1) * n)) 0 ∧
      ∀ i, (((ms.drop (k * n)).take n).count i : ℤ) = w i := by
  have htake : ms.take ((k + 1) * n) = ms.take (k * n) ++ (ms.drop (k * n)).take n := by
    rw [Nat.succ_mul, List.take_add]
  have hall : Run w T 0 (ms.take ((k + 1) * n) ++ ms.drop ((k + 1) * n)) q := by
    rwa [List.take_append_drop]
  obtain ⟨q₁, h₁, -⟩ := Run.split hall
  rw [htake] at h₁
  obtain ⟨q₀, h₀, hwin⟩ := Run.split h₁
  have hq₀ : q₀ = 0 := h₀.unique hpre
  subst hq₀
  have hlen : (((ms.drop (k * n)).take n).length : ℤ) = T := by
    rw [← hn, List.length_take, List.length_drop]
    have : n ≤ ms.length - k * n := by rw [Nat.succ_mul] at hk; omega
    rw [Nat.min_eq_left this]
  obtain ⟨hq₁, hcount⟩ := hwin.period hw hT hT0 hlen
  subst hq₁
  exact ⟨by rw [htake]; exact h₁, hcount⟩

theorem Run.windows {n : ℕ} (hn : (n : ℤ) = T) (h : Run w T 0 ms q) :
    ∀ k, k * n ≤ ms.length → Run w T 0 (ms.take (k * n)) 0 ∧
      ((k + 1) * n ≤ ms.length → ∀ i, (((ms.drop (k * n)).take n).count i : ℤ) = w i) := by
  intro k
  induction k with
  | zero =>
    intro _
    have hnil : Run w T 0 (ms.take (0 * n)) 0 := by simpa using Run.nil (w := w) (T := T) 0
    exact ⟨hnil, fun hk => (h.window hw hT hT0 hn hnil hk).2⟩
  | succ k ih =>
    intro hk
    have hpre := (ih (by rw [Nat.succ_mul] at hk; omega)).1
    have hnext := (h.window hw hT hT0 hn hpre hk).1
    exact ⟨hnext, fun hk' => (h.window hw hT hT0 hn hnext hk').2⟩

end Bounds

end Blade.Lib.RoundRobin
