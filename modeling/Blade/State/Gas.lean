import Blade.State.Apply
import Blade.State.Run

/-!
Gas through the frames and the transaction (`applyCall`, `applyCreate`, `apply` and
`ExecutionResult.UpdateGasUsed`). A frame returns at most the gas it was given whenever the
interpreter does: every failure of the frame itself returns the frame's gas or none, the
address lists return what is left of the frame's gas, and the code-store charge only takes.
After `UpdateGasUsed` the gas used and the gas left add up to the limit and the refund is at
most the used gas over the quotient; the used gas before the refund is at least the intrinsic
gas, but after it need not be: a refund can take the used gas below the intrinsic cost.
-/

namespace Blade

open Lib

namespace ExecutionResult

variable (r : ExecutionResult) (gasLimit refund refundQuotient : ℕ)

theorem updateGasUsed_spec (h : r.gasLeft ≤ gasLimit) :
    let r' := r.updateGasUsed gasLimit refund refundQuotient
    r'.gasUsed + r'.gasLeft = gasLimit ∧ r.gasLeft ≤ r'.gasLeft ∧
      r'.gasLeft - r.gasLeft ≤ (gasLimit - r.gasLeft) / refundQuotient := by
  intro r'
  -- the refund actually moved is the capped one
  obtain ⟨m, hm, hleft, hused⟩ : ∃ m ≤ (gasLimit - r.gasLeft) / refundQuotient,
      r'.gasLeft = r.gasLeft + m ∧ r'.gasUsed = gasLimit - r.gasLeft - m := by
    simp only [r', updateGasUsed]
    split_ifs with hr
    · exact ⟨_, le_rfl, rfl, rfl⟩
    · exact ⟨_, Nat.le_of_not_gt hr, rfl, rfl⟩
  have hcap : m ≤ gasLimit - r.gasLeft := hm.trans (Nat.div_le_self _ _)
  refine ⟨by omega, by omega, ?_⟩
  rw [hleft, Nat.add_sub_cancel_left]
  exact hm

end ExecutionResult

namespace Transition

theorem revertTail_gasLeft_le (t : Transition) (s : ℕ) (result : ExecutionResult) (g : ℕ)
    (h : result.gasLeft ≤ g) :
    (if result.failed = true then
      match t.revertToSnapshot s with
      | (t, some e) => (ExecutionResult.ofError g e, t)
      | (t, none) => (result, t)
    else (result, t)).1.gasLeft ≤ g := by
  split_ifs
  · split
    · exact le_rfl
    · exact h
  · exact h

theorem storeCode_gasLeft_le (t : Transition) (c : Contract) (snapshot : ℕ)
    (result : ExecutionResult) (keccak256 : List UInt8 → List UInt8) :
    (t.storeCode c snapshot result keccak256).1.gasLeft ≤ result.gasLeft := by
  unfold storeCode
  dsimp only
  split_ifs
  · split <;> exact Nat.zero_le _
  · split <;> exact Nat.zero_le _
  · split <;> exact Nat.zero_le _
  · exact le_rfl
  · exact Nat.sub_le _ _

section Checks

variable {t t₁ : Transition} {msg : Transaction}

theorem config_of_subGasLimitPrice (h : t.subGasLimitPrice msg = .ok t₁) :
    t₁.config = t.config := by
  unfold subGasLimitPrice at h
  dsimp only at h
  -- the dynamic-fee and the legacy balance checks alike; the upfront cost is then taken
  split_ifs at h
  all_goals
    split at h
    · cases h
    · cases h
    · cases h
      rfl

theorem config_of_checkAndProcessTx (h : t.checkAndProcessTx msg = .ok t₁) :
    t₁.config = t.config := by
  unfold checkAndProcessTx at h
  cases hn : t.nonceCheck msg with
  | error e =>
    rw [hn] at h
    cases h
  | ok _ =>
    rw [hn, bind_ok] at h
    split_ifs at h
    · cases h
      rfl
    · cases hd : t.checkDynamicFees msg with
      | error e =>
        rw [hd] at h
        cases h
      | ok _ =>
        rw [hd, bind_ok] at h
        exact config_of_subGasLimitPrice h

theorem config_of_checked
    (h : (if msg.type = .state then (checkAndProcessStateTx msg).map fun _ => t
      else t.checkAndProcessTx msg) = .ok t₁) : t₁.config = t.config := by
  split_ifs at h
  · cases hs : checkAndProcessStateTx msg with
    | error e =>
      rw [hs] at h
      cases h
    | ok _ =>
      rw [hs] at h
      cases h
      rfl
  · exact config_of_checkAndProcessTx h

end Checks

variable (methods : AddressListMethods)
  (interpret : Contract → Transition → ExecutionResult × Transition)

theorem run_gasLeft_le (hint : ∀ c t, (interpret c t).1.gasLeft ≤ c.gas) (c : Contract)
    (t : Transition) : (t.run methods interpret c).1.gasLeft ≤ c.gas := by
  unfold run
  split
  · next result hl =>
    -- a list's frame is charged its cost out of the frame's gas
    unfold handleAllowBlockListsUpdate at hl
    obtain ⟨l, _, rfl⟩ := Option.map_eq_some_iff.1 hl
    exact Nat.sub_le _ _
  · dsimp only
    split_ifs
    · exact Nat.zero_le _
    · exact hint c t

end Transition

section Frames

variable {run : Contract → Transition → ExecutionResult × Transition}
  (hrun : ∀ c t, (run c t).1.gasLeft ≤ c.gas)
include hrun

namespace Transition

theorem applyCall_gasLeft_le (t : Transition) (c : Contract) (callType : CallType) :
    (t.applyCall run c callType).1.gasLeft ≤ c.gas := by
  unfold applyCall
  by_cases hd : c.depth > 1024 + 1
  · rw [if_pos hd]
    exact le_rfl
  rw [if_neg hd]
  generalize t.snapshot = p
  obtain ⟨s, t₁⟩ := p
  dsimp only
  split
  · exact le_rfl
  · next t₂ _ =>
    have hr := hrun c t₂
    generalize run c t₂ = q at hr
    obtain ⟨result, t₃⟩ := q
    exact revertTail_gasLeft_le t₃ s result c.gas hr

theorem applyCreate_gasLeft_le (keccak256 : List UInt8 → List UInt8) (t : Transition)
    (c : Contract) : (t.applyCreate run keccak256 c).1.gasLeft ≤ c.gas := by
  unfold applyCreate
  dsimp only
  by_cases hd : c.depth > 1024 + 1
  · rw [if_pos hd]
    exact le_rfl
  rw [if_neg hd]
  generalize t.state.incrNonce c.caller = p
  obtain ⟨st, _ | e⟩ := p
  case some => exact le_rfl
  dsimp only
  generalize (if (t.withState st).config.berlin = true then
    (t.withState st).addAddressToAccessList c.address else t.withState st) = t₁
  by_cases hc : t₁.hasCodeOrNonce c.address = true
  · rw [if_pos hc]
    exact Nat.zero_le _
  rw [if_neg hc]
  generalize t₁.snapshot = p
  obtain ⟨s, t₂⟩ := p
  dsimp only
  -- the account's creation, then the transfer: their failures return none or all of the gas
  split
  · exact Nat.zero_le _
  next t₃ _ =>
  split
  · exact le_rfl
  next t₄ _ =>
  by_cases ha : (!t₄.deploymentAllowed c.caller) = true
  · rw [if_pos ha]
    exact Nat.zero_le _
  rw [if_neg ha]
  have hr := hrun c t₄
  generalize run c t₄ = q at hr
  obtain ⟨result, t₅⟩ := q
  dsimp only
  by_cases hf : result.failed = true
  · rw [if_pos hf]
    split
    · exact Nat.zero_le _
    · exact hr
  · rw [if_neg hf]
    exact (storeCode_gasLeft_le _ _ _ _ _).trans hr

variable (keccak256 : List UInt8 → List UInt8) (createAddress : Address → ℕ → Address)

theorem create2_gasLeft_le (t : Transition) (caller : Address) (code : List UInt8) (value : ℤ)
    (gas : ℕ) : (t.create2 run keccak256 createAddress caller code value gas).1.gasLeft ≤ gas :=
  applyCreate_gasLeft_le hrun keccak256 _ _

theorem call2_gasLeft_le (t : Transition) (caller «to» : Address) (input : List UInt8)
    (value : ℤ) (gas : ℕ) : (t.call2 run caller «to» input value gas).1.gasLeft ≤ gas := by
  unfold call2
  generalize t.state.getCode «to» = p
  obtain ⟨code, st⟩ := p
  exact applyCall_gasLeft_le hrun _ _ _

theorem execute_gasLeft_le {t t' : Transition} {msg : Transaction} {value : ℤ} {gas : ℕ}
    {result : ExecutionResult}
    (h : t.execute run keccak256 createAddress msg value gas = .ok result t') :
    result.gasLeft ≤ gas := by
  unfold execute at h
  split at h
  · -- a creation
    have hc := create2_gasLeft_le hrun keccak256 createAddress t msg.«from» msg.input value gas
    generalize t.create2 run keccak256 createAddress msg.«from» msg.input value gas = p at h hc
    obtain ⟨r, t''⟩ := p
    cases h
    exact hc
  · -- a call, after the sender's nonce
    next «to» _ =>
    split at h
    · cases h
    · next st _ =>
      have hc := call2_gasLeft_le hrun (t.withState st) msg.«from» «to» msg.input value gas
      generalize (t.withState st).call2 run msg.«from» «to» msg.input value gas = p at h hc
      obtain ⟨r, t''⟩ := p
      cases h
      exact hc

variable {t t' : Transition} {msg : Transaction} {result : ExecutionResult}

theorem apply_eq_ok (h : t.apply run keccak256 createAddress msg = .ok result t') :
    ∃ (intrinsic : ℕ) (r : ExecutionResult) (refund : ℕ),
      transactionGasCost msg t.config.homestead t.config.istanbul = .ok intrinsic ∧
      intrinsic ≤ msg.gas ∧ r.gasLeft ≤ msg.gas - intrinsic ∧
      result = r.updateGasUsed msg.gas refund (if t'.config.london then 5 else 2) := by
  unfold apply at h
  dsimp only at h
  generalize hc : (if msg.type = .state then (checkAndProcessStateTx msg).map fun _ => t
    else t.checkAndProcessTx msg) = checked at h
  obtain _ | t₁ := checked
  · cases h
  dsimp only at h
  split at h
  · cases h
  next t₂ hpool =>
  -- the checks and the pool keep the fork configuration
  have hcfg : t₂.config = t.config := by
    unfold subGasPool at hpool
    split_ifs at hpool
    cases hpool
    exact (config_of_checked hc :)
  split at h
  · cases h
  next intrinsic hcost =>
  split_ifs at h with hlt
  split at h
  · cases h
  next r t₃ hexec =>
  cases h
  exact ⟨intrinsic, r, t₃.state.getRefund, hcfg ▸ hcost, Nat.le_of_not_lt hlt,
    execute_gasLeft_le hrun keccak256 createAddress hexec, rfl⟩

end Transition

end Frames

end Blade
