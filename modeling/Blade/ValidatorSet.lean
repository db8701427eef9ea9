import Mathlib.Algebra.BigOperators.Group.Finset.Piecewise
import Blade.ValidatorMetadata
import Blade.Lib.Quorum

/-!
`consensus/polybft/validator/validator_set.go`: a validator set indexes voting powers by
address and reaches quorum when the signers' power is at least `⌊2T/3⌋ + 1`.
-/

namespace Blade

open Finset

structure ValidatorSet where
  validators : AccountSet
  votingPowerMap : Address → Option ℤ
  totalVotingPower : ℤ

def newValidatorSet (valz : AccountSet) : ValidatorSet where
  validators := valz
  votingPowerMap := valz.foldl
    (fun m val => Function.update m val.address (some val.votingPower)) fun _ => none
  totalVotingPower := valz.getTotalVotingPower

def getQuorumSize (totalVotingPower : ℤ) : ℤ := totalVotingPower * 2 / 3 + 1

namespace ValidatorSet

def aggregateVotingPower (vs : ValidatorSet) (signers : Finset Address) : ℤ :=
  ∑ address ∈ signers, (vs.votingPowerMap address).getD 0

def hasQuorum (vs : ValidatorSet) (signers : Finset Address) : Bool :=
  decide (getQuorumSize vs.totalVotingPower ≤ vs.aggregateVotingPower signers)

end ValidatorSet

namespace AccountSet

def powerAt (valz : AccountSet) (a : Address) : ℤ :=
  ((valz.find? (·.address == a)).map (·.votingPower)).getD 0

def powerOf (valz : AccountSet) (S : Finset Address) : ℤ :=
  ((valz.filter (fun v => v.address ∈ S)).map (·.votingPower)).sum

theorem votingPowerMap_getD (valz : AccountSet) (h : valz.getAddresses.Nodup) (a : Address) :
    ((newValidatorSet valz).votingPowerMap a).getD 0 = valz.powerAt a := by
  unfold powerAt
  change (valz.foldl (fun (m : Address → Option ℤ) (val : ValidatorMetadata) =>
    Function.update m val.address (some val.votingPower)) (fun _ => none) a).getD 0 = _
  rw [foldl_update_apply (·.votingPower) valz _ a h]
  cases valz.find? (·.address == a) <;> rfl

theorem powerAt_cons (v : ValidatorMetadata) (vs : AccountSet) (hv : v.address ∉ vs.getAddresses)
    (a : Address) :
    powerAt (v :: vs) a = powerAt vs a + if v.address = a then v.votingPower else 0 := by
  unfold powerAt
  rw [List.find?_cons]
  by_cases he : v.address = a
  · subst he
    have hnone : vs.find? (·.address == v.address) = none := by
      rw [List.find?_eq_none]
      intro u hu hb
      exact hv (List.mem_map.mpr ⟨u, hu, beq_iff_eq.mp hb⟩)
    simp [hnone]
  · have hne : (v.address == a) = false := beq_false_of_ne he
    simp [hne, he]

theorem powerOf_eq_sum (valz : AccountSet) (h : valz.getAddresses.Nodup) (S : Finset Address) :
    valz.powerOf S = ∑ a ∈ S, valz.powerAt a := by
  induction valz with
  | nil => simp [powerOf, powerAt]
  | cons v vs ih =>
    simp only [getAddresses, List.map_cons, List.nodup_cons] at h
    have hsum : ∑ a ∈ S, powerAt (v :: vs) a =
        ∑ a ∈ S, powerAt vs a + ∑ a ∈ S, if v.address = a then v.votingPower else 0 := by
      rw [← sum_add_distrib]
      exact sum_congr rfl fun a _ => powerAt_cons v vs h.1 a
    rw [hsum, sum_ite_eq, ← ih h.2]
    unfold powerOf
    by_cases hS : v.address ∈ S
    · simp [hS, add_comm]
    · simp [hS]

theorem powerAt_nonneg (valz : AccountSet) (hnonneg : ∀ v ∈ valz, 0 ≤ v.votingPower)
    (a : Address) : 0 ≤ valz.powerAt a := by
  unfold powerAt
  cases hf : valz.find? (·.address == a) with
  | none => simp
  | some v => exact hnonneg v (List.mem_of_find?_eq_some hf)

theorem powerAt_eq_zero (valz : AccountSet) (a : Address)
    (ha : a ∉ valz.getAddresses.toFinset) : valz.powerAt a = 0 := by
  unfold powerAt
  have hnone : valz.find? (·.address == a) = none := by
    rw [List.find?_eq_none]
    intro u hu hb
    exact ha (List.mem_toFinset.mpr (List.mem_map.mpr ⟨u, hu, beq_iff_eq.mp hb⟩))
  rw [hnone]
  rfl

theorem getTotalVotingPower_eq_sum (valz : AccountSet) (h : valz.getAddresses.Nodup) :
    valz.getTotalVotingPower = ∑ a ∈ valz.getAddresses.toFinset, valz.powerAt a := by
  rw [← powerOf_eq_sum valz h]
  unfold powerOf getTotalVotingPower
  congr 2
  refine (List.filter_eq_self.mpr ?_).symm
  intro v hv
  simpa [getAddresses] using ⟨v, hv, rfl⟩

end AccountSet

namespace ValidatorSet

open AccountSet

theorem aggregateVotingPower_eq (valz : AccountSet) (h : valz.getAddresses.Nodup)
    (signers : Finset Address) :
    (newValidatorSet valz).aggregateVotingPower signers = valz.powerOf signers := by
  rw [powerOf_eq_sum valz h]
  exact sum_congr rfl fun a _ => votingPowerMap_getD valz h a

theorem hasQuorum_iff (valz : AccountSet) (h : valz.getAddresses.Nodup)
    (signers : Finset Address) :
    (newValidatorSet valz).hasQuorum signers = true ↔
      getQuorumSize valz.getTotalVotingPower ≤ valz.powerOf signers := by
  rw [hasQuorum, decide_eq_true_iff, aggregateVotingPower_eq valz h]
  rfl

theorem hasQuorum_intersection (valz : AccountSet) (hdistinct : valz.getAddresses.Nodup)
    (hnonneg : ∀ v ∈ valz, 0 ≤ v.votingPower) :
    (∀ S₁ S₂ : Finset Address,
      (newValidatorSet valz).hasQuorum S₁ = true → (newValidatorSet valz).hasQuorum S₂ = true →
        valz.getTotalVotingPower < 3 * valz.powerOf (S₁ ∩ S₂)) ∧
    (∀ S S' : Finset Address, S ⊆ S' →
      (newValidatorSet valz).hasQuorum S = true → (newValidatorSet valz).hasQuorum S' = true) := by
  have hw : ∀ a, 0 ≤ valz.powerAt a := powerAt_nonneg valz hnonneg
  have hU : ∀ a ∉ valz.getAddresses.toFinset, valz.powerAt a = 0 := powerAt_eq_zero valz
  have hT := AccountSet.getTotalVotingPower_eq_sum valz hdistinct
  refine ⟨?_, ?_⟩
  · intro S₁ S₂ h₁ h₂
    rw [hasQuorum_iff valz hdistinct, getQuorumSize, powerOf_eq_sum valz hdistinct, hT,
      mul_comm] at h₁ h₂
    rw [powerOf_eq_sum valz hdistinct, hT]
    exact Lib.Quorum.quorum_intersection valz.powerAt _ hw hU S₁ S₂ h₁ h₂
  · intro S S' hsub hq
    rw [hasQuorum_iff valz hdistinct] at hq ⊢
    have hle : valz.powerOf S ≤ valz.powerOf S' := by
      rw [powerOf_eq_sum valz hdistinct, powerOf_eq_sum valz hdistinct]
      exact sum_le_sum_of_subset_of_nonneg hsub fun a _ _ => hw a
    exact hq.trans hle

theorem hasQuorum_intersection_pair :
    let valz : AccountSet := [⟨1, none, 1, true⟩, ⟨2, none, 2, true⟩]
    (valz.getAddresses.Nodup ∧ ∀ v ∈ valz, 0 ≤ v.votingPower) ∧
    (∀ S₁ S₂ : Finset Address,
      (newValidatorSet valz).hasQuorum S₁ = true → (newValidatorSet valz).hasQuorum S₂ = true →
        valz.getTotalVotingPower < 3 * valz.powerOf (S₁ ∩ S₂)) ∧
    (∀ S S' : Finset Address, S ⊆ S' →
      (newValidatorSet valz).hasQuorum S = true → (newValidatorSet valz).hasQuorum S' = true) :=
  ⟨⟨by decide, by decide⟩, hasQuorum_intersection _ (by decide) (by decide)⟩

end ValidatorSet

end Blade
