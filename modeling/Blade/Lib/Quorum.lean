import Mathlib.Algebra.Order.BigOperators.Group.Finset
import Mathlib.Tactic.Linarith

/-!
Weighted quorums over an arbitrary carrier. Weights are non-negative and vanish outside a
finite universe `U`; two sets that each gather a supermajority `⌊2T/3⌋ + 1` of the total
`T = ∑ U` then share strictly more than a third of `T`.
-/

namespace Blade.Lib.Quorum

open Finset

variable {α : Type*} [DecidableEq α] (w : α → ℤ) (U : Finset α)

theorem sum_le_sum_universe (hw : ∀ a, 0 ≤ w a) (hU : ∀ a ∉ U, w a = 0) (S : Finset α) :
    ∑ a ∈ S, w a ≤ ∑ a ∈ U, w a := by
  have hsplit : ∑ a ∈ S, w a = ∑ a ∈ S ∩ U, w a := by
    refine (sum_subset inter_subset_left ?_).symm
    intro a _ ha
    exact hU a (fun hu => ha (mem_inter.mpr ⟨‹_›, hu⟩))
  rw [hsplit]
  exact sum_le_sum_of_subset_of_nonneg inter_subset_right (fun a _ _ => hw a)

theorem sum_inter_ge (hw : ∀ a, 0 ≤ w a) (hU : ∀ a ∉ U, w a = 0) (S₁ S₂ : Finset α) :
    ∑ a ∈ S₁, w a + ∑ a ∈ S₂, w a - ∑ a ∈ U, w a ≤ ∑ a ∈ S₁ ∩ S₂, w a := by
  have hunion : ∑ a ∈ S₁ ∪ S₂, w a + ∑ a ∈ S₁ ∩ S₂, w a = ∑ a ∈ S₁, w a + ∑ a ∈ S₂, w a :=
    sum_union_inter
  have hle := sum_le_sum_universe w U hw hU (S₁ ∪ S₂)
  linarith

theorem supermajority_overlap (T q : ℤ) (hq : 2 * T / 3 + 1 ≤ q) :
    T < 3 * (2 * q - T) := by
  omega

theorem quorum_intersection (hw : ∀ a, 0 ≤ w a) (hU : ∀ a ∉ U, w a = 0) (S₁ S₂ : Finset α)
    (h₁ : 2 * (∑ a ∈ U, w a) / 3 + 1 ≤ ∑ a ∈ S₁, w a)
    (h₂ : 2 * (∑ a ∈ U, w a) / 3 + 1 ≤ ∑ a ∈ S₂, w a) :
    ∑ a ∈ U, w a < 3 * ∑ a ∈ S₁ ∩ S₂, w a := by
  have hinter := sum_inter_ge w U hw hU S₁ S₂
  have hover := supermajority_overlap (∑ a ∈ U, w a) (2 * (∑ a ∈ U, w a) / 3 + 1) le_rfl
  omega

end Blade.Lib.Quorum
