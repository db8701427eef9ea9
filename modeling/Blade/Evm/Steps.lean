import Blade.Evm.Keeps

/-!
What each instruction of the interpreter does to the frame, by the relations of `Evm.Keeps`.

Every instruction keeps the code, the message, the forks and the bitmap, never raises the gas once
the host gives back no more than a call was given, and moves the host of a static frame only by
`StaticStep`s: the writes (`SSTORE`, `LOG`, `SELFDESTRUCT`, `CREATE`, a `CALL` with value) stop
a static frame first. All but `PUSHn`, `JUMP` and `JUMPI` leave `ip` where it is. The instructions
that the table charges nothing charge gas themselves or stop (`Spends`).
-/

namespace Blade.Evm

open State Blade.Evm.Frame

variable {H : Type} (host : Host H)

/-! ## Charges -/

namespace KeepsIp

variable {host} {s s' : Frame H}

theorem exitIf (s : Frame H) (b : Bool) (e : VmError) :
    KeepsIp host s (if b = true then s.exit e else s) := by
  split
  · exact exit s e
  · exact refl s

theorem of_accountCharge {b : Prop} [Decidable b] {a : Address} {p : UInt64 × Frame H} {g : UInt64}
    (hp : p.2 = s) (h : (if b then s.calculateGasForEIP2929 host a else p) = (g, s')) :
    KeepsIp host s s' := by
  split at h
  · exact of_calculateGas h
  · rw [h] at hp
    rw [← hp]
    exact refl _

end KeepsIp

theorem memory_of_accountCharge {s s' : Frame H} {b : Prop} [Decidable b] {a : Address}
    {p : UInt64 × Frame H} {g : UInt64} (hp : p.2 = s)
    (h : (if b then s.calculateGasForEIP2929 host a else p) = (g, s')) : s'.st.memory = s.st.memory := by
  split at h
  · exact Frame.memory_calculateGas h
  · rw [h] at hp
    rw [← hp]

theorem calculateGas_pos (s : Frame H) (a : Address) :
    0 < (s.calculateGasForEIP2929 host a).1.toNat := by
  unfold Frame.calculateGasForEIP2929
  split <;> dsimp only <;> decide

theorem accountCharge_pos {s s' : Frame H} {b : Prop} [Decidable b] {a : Address}
    {p : UInt64 × Frame H} {g : UInt64} (hp : 0 < p.1.toNat)
    (h : (if b then s.calculateGasForEIP2929 host a else p) = (g, s')) : 0 < g.toNat := by
  split at h
  · rw [show g = (s.calculateGasForEIP2929 host a).1 by rw [h]]
    exact calculateGas_pos host s a
  · rw [h] at hp
    exact hp

/-! ## Instructions that keep `ip` -/

section Keep

variable {host} (s : Frame H)

theorem keepsIp_opExp : KeepsIp host s (opExp s) := by
  unfold opExp
  split
  next x s₁ h₁ =>
  dsimp only
  have k₁ : KeepsIp host s s₁ := KeepsIp.of_pop h₁
  split
  next s₂ h₂ => exact k₁.trans (KeepsIp.of_consumeGas h₂)
  next s₂ h₂ => exact (k₁.trans (KeepsIp.of_consumeGas h₂)).trans (KeepsIp.setTop _ _)

theorem keepsIp_shiftOp (f : U256 → U256 → U256) : KeepsIp host s (shiftOp f s) := by
  unfold shiftOp
  split
  · exact KeepsIp.exitMem s _
  · exact KeepsIp.mapSt (keeps_binaryOp _ f)

theorem keepsIp_opSelfBalance : KeepsIp host s (opSelfBalance host s) := by
  unfold opSelfBalance
  split
  · exact KeepsIp.exitMem s _
  split
  next v b _ => exact (KeepsIp.exitIf s b _).trans (KeepsIp.push _ v)

theorem keepsIp_opCallValue : KeepsIp host s (opCallValue s) := by
  unfold opCallValue
  split
  next v b _ => exact (KeepsIp.exitIf s b _).trans (KeepsIp.push _ v)

theorem keepsIp_pushIf {b : Prop} [Decidable b] (e : Error) (v : U256) :
    KeepsIp host s (if b then s.exitMem e else s.push v) := by
  split
  · exact KeepsIp.exitMem s e
  · exact KeepsIp.push s v

theorem keepsIp_opBlockHash : KeepsIp host s (opBlockHash host s) := by
  unfold opBlockHash
  dsimp only
  -- every branch writes the top of the stack
  split_ifs <;> exact KeepsIp.setTop s _

theorem keepsIp_opDup (n : ℕ) : KeepsIp host s (opDup n s) := by
  unfold opDup
  split
  · exact KeepsIp.exit s _
  · exact KeepsIp.push s _

theorem keepsIp_opSwap (n : ℕ) : KeepsIp host s (opSwap n s) := by
  unfold opSwap
  split
  · exact KeepsIp.exit s _
  next s' h =>
    unfold Frame.swap at h
    dsimp only at h
    split at h
    · cases h
    · cases h
      exact KeepsIp.mapSt (State.Keeps.of_le rfl le_rfl rfl rfl rfl)

theorem keepsIp_opLog (size : ℕ) : KeepsIp host s (opLog host size s) := by
  unfold opLog
  extract_lets size'
  split
  · exact KeepsIp.exit s _
  rename_i hstatic
  split
  · exact KeepsIp.exit s _
  split
  next mStart s₁ h₁ =>
  split
  next mSize s₂ h₂ =>
  extract_lets topics s₃
  have k₃ : KeepsIp host s s₃ := ((KeepsIp.of_pop h₁).trans (KeepsIp.of_pop h₂)).trans
    (KeepsIp.mapSt (State.Keeps.of_le rfl le_rfl rfl rfl rfl))
  split
  next tmp s₄ h₄ =>
    exact (k₃.trans (KeepsIp.of_get2 h₄)).trans (KeepsIp.mapSt (State.Keeps.of_le rfl le_rfl rfl rfl rfl))
  next tmp s₄ h₄ =>
  have k₄ := k₃.trans (KeepsIp.of_get2 h₄)
  -- the log is written to the host: the frame is not static
  extract_lets c₅ s₅
  have k₅ : KeepsIp host s₄ s₅ := by
    refine (KeepsIp.mapSt (f := fun c => { c with tmp := tmp }) (State.Keeps.of_le rfl le_rfl rfl rfl rfl)).trans
      (KeepsIp.setHost fun hs => ?_)
    change s₄.msg.static = true at hs
    rw [k₄.msg] at hs
    exact absurd hs hstatic
  have k := k₄.trans k₅
  split
  next s₆ h₆ => exact k.trans (KeepsIp.of_consumeGas h₆)
  next s₆ h₆ =>
    exact (k.trans (KeepsIp.of_consumeGas h₆)).trans
      (KeepsIp.of_consumeGas (Prod.mk.eta (p := s₆.consumeGas _)).symm)

end Keep

/-! ## Instructions that charge gas themselves -/

section Spend

variable {host} (s : Frame H)

theorem spends_opStop : Spends host s (opStop s) := Spends.of_stop (KeepsIp.halt s) rfl

theorem spends_opHalt (isRevert : Bool) : Spends host s (s.mapSt (opHalt isRevert)) :=
  Spends.of_stop (KeepsIp.mapSt (keeps_opHalt _ _)) (stop_opHalt _ _)

theorem spends_of_accountCharge {s₁ s₂ : Frame H} {b : Prop} [Decidable b] {a : Address}
    {p : UInt64 × Frame H} {g : UInt64} (k₁ : KeepsIp host s s₁) (hp : p.2 = s₁) (hpos : 0 < p.1.toNat)
    (h₂ : (if b then s₁.calculateGasForEIP2929 host a else p) = (g, s₂)) (f : Frame H → Frame H)
    (hf : ∀ s₃, s₃.st.memory = s₁.st.memory → KeepsIp host s₃ (f s₃)) :
    Spends host s
      (match s₂.consumeGas g with
        | (false, s) => s
        | (true, s) => f s) := by
  have k₂ := k₁.trans (KeepsIp.of_accountCharge hp h₂)
  have hg := accountCharge_pos host hpos h₂
  split
  next s₃ h₃ => exact Spends.keeps_trans k₂ (Spends.of_consumeGas h₃ hg)
  next s₃ h₃ =>
    refine (Spends.keeps_trans k₂ (Spends.of_consumeGas h₃ hg)).trans_keeps (hf s₃ ?_)
    rw [Frame.memory_consumeGas h₃, memory_of_accountCharge host hp h₂]

theorem spends_opBalance : Spends host s (opBalance host s) := by
  unfold opBalance
  split
  next addr s₁ h₁ =>
  split
  next gas s₂ h₂ =>
  refine spends_of_accountCharge s (KeepsIp.of_popAddr h₁) (by split_ifs <;> rfl)
    (by split_ifs <;> dsimp only <;> decide) h₂ _ fun s₃ _ => ?_
  split
  next v b _ => exact (KeepsIp.exitIf s₃ b _).trans (KeepsIp.push _ v)

theorem spends_opExtCodeHash : Spends host s (opExtCodeHash host s) := by
  unfold opExtCodeHash
  split
  · exact Spends.of_stop (KeepsIp.exitMem s _) rfl
  split
  next address s₁ h₁ =>
  split
  next gas s₂ h₂ =>
  exact spends_of_accountCharge s (KeepsIp.of_popAddr h₁) (by split_ifs <;> rfl)
    (by split_ifs <;> dsimp only <;> decide) h₂ _ fun s₃ _ => KeepsIp.push s₃ _

theorem spends_opExtCodeSize : Spends host s (opExtCodeSize host s) := by
  unfold opExtCodeSize
  split
  next addr s₁ h₁ =>
  split
  next gas s₂ h₂ =>
  refine spends_of_accountCharge s (KeepsIp.of_popAddr h₁) (by split_ifs <;> rfl)
    (by split_ifs <;> dsimp only <;> decide) h₂ _ fun s₃ _ => ?_
  split
  next size h h₄ =>
  -- reading the code's size fills the host's code cache
  have k₄ : KeepsIp host s₃ { s₃ with host := h } := by
    refine KeepsIp.setHost_step ?_
    rw [show h = (host.getCodeSize s₃.host addr).2 by rw [h₄]]
    exact .getCodeSize _ _
  exact k₄.trans (KeepsIp.push _ _)

theorem spends_opExtCodeCopy : Spends host s (opExtCodeCopy host s) := by
  unfold opExtCodeCopy
  split
  next address s₁ h₁ =>
  split
  next memOffset s₂ h₂ =>
  split
  next codeOffset s₃ h₃ =>
  split
  next length s₄ h₄ =>
  have k₁ : KeepsIp host s s₁ := KeepsIp.of_popAddr h₁
  have k₄ := ((k₁.trans (KeepsIp.of_pop h₂)).trans (KeepsIp.of_pop h₃)).trans (KeepsIp.of_pop h₄)
  split
  next s₅ h₅ =>
    exact Spends.of_stop (k₄.trans (KeepsIp.of_allocateMemory h₅)) (stop_allocateMemory_of_false h₅)
  next s₅ h₅ =>
  have k₅ := k₄.trans (KeepsIp.of_allocateMemory h₅)
  extract_lets size
  split
  next s₆ h₆ =>
    exact Spends.of_stop (k₅.trans (KeepsIp.of_consumeGas h₆)) (stop_consumeGas_of_false h₆)
  next s₆ h₆ =>
  split
  next gas s₇ h₇ =>
  refine spends_of_accountCharge s (k₅.trans (KeepsIp.of_consumeGas h₆)) (by split_ifs <;> rfl)
    (by split_ifs <;> dsimp only <;> decide) h₇ _ fun s₈ hmem => ?_
  split
  next code h h₉ =>
  -- reading the code fills the host's code cache
  have k₉ : KeepsIp host s₈ { s₈ with host := h } := by
    refine KeepsIp.setHost_step ?_
    rw [show h = (host.getCode s₈.host address).2 by rw [h₉]]
    exact .getCode _ _
  extract_lets s₉
  split
  next hsize =>
    -- the code goes into the range the allocation has covered
    have hcov : (toUint64 memOffset).toNat + (toUint64 length).toNat ≤ s₉.st.memory.length := by
      change _ ≤ s₈.st.memory.length
      rw [hmem, Frame.memory_consumeGas h₆]
      exact Frame.covers_allocateMemory h₅ (val_ne_zero_of_toUint64 hsize)
    exact k₉.trans (KeepsIp.mapSt (State.Keeps.of_le rfl le_rfl rfl rfl (length_take_append_setBytes hcov)))
  · exact k₉

theorem spends_opSload : Spends host s (opSload host s) := by
  unfold opSload
  extract_lets loc
  split
  next gas s₁ h₁ =>
  -- the slot's charge, and the slot made warm from Berlin on
  have hk : KeepsIp host s s₁ ∧ 0 < gas.toNat := by
    split_ifs at h₁ <;> cases h₁
    · exact ⟨KeepsIp.setHost_step (.addSlot _ _ _), by decide⟩
    all_goals exact ⟨KeepsIp.refl s, by decide⟩
  split
  next s₂ h₂ => exact Spends.keeps_trans hk.1 (Spends.of_consumeGas h₂ hk.2)
  next s₂ h₂ => exact (Spends.keeps_trans hk.1 (Spends.of_consumeGas h₂ hk.2)).trans_keeps (KeepsIp.setTop _ _)

theorem sstoreCost_pos {cost : UInt64} (hcost : cost = 0 ∨ cost = coldStorageReadCostEIP2929)
    (status : StorageStatus) (berlin istanbul legacy : Bool) :
    0 < (match status with
      | .unchanged =>
        if berlin = true then cost + warmStorageReadCostEIP2929
        else if istanbul = true then cost + 800
        else if legacy = true then cost + 5000
        else cost + 200
      | .modified => if berlin = true then cost + 5000 - coldStorageReadCostEIP2929 else cost + 5000
      | .modifiedAgain =>
        if berlin = true then cost + warmStorageReadCostEIP2929
        else if istanbul = true then cost + 800
        else if legacy = true then cost + 5000
        else cost + 200
      | .added => cost + 20000
      | .deleted => if berlin = true then cost + 5000 - coldStorageReadCostEIP2929 else cost + 5000 :
        UInt64).toNat := by
  rcases hcost with rfl | rfl <;> cases status <;> split_ifs <;> decide

theorem spends_opSStore : Spends host s (opSStore host s) := by
  unfold opSStore
  split
  · exact Spends.of_stop (KeepsIp.exit s _) rfl
  rename_i hstatic
  split
  · exact Spends.of_stop (KeepsIp.exitMem s _) rfl
  split
  next key s₁ h₁ =>
  split
  next val s₂ h₂ =>
  extract_lets legacyGasMetering
  split
  next status h hw =>
  extract_lets s₃
  -- the write goes to the host of a frame that is not static
  have k₂ : KeepsIp host s s₂ := (KeepsIp.of_pop h₁).trans (KeepsIp.of_pop h₂)
  have k₃ : KeepsIp host s s₃ := k₂.trans (KeepsIp.setHost fun hs => absurd (k₂.msg ▸ hs) hstatic)
  split
  next cost s₄ h₄ =>
  have hk : KeepsIp host s₃ s₄ ∧ (cost = 0 ∨ cost = coldStorageReadCostEIP2929) := by
    split_ifs at h₄ <;> cases h₄
    · exact ⟨KeepsIp.setHost_step (.addSlot _ _ _), Or.inr rfl⟩
    · exact ⟨KeepsIp.refl s₃, Or.inl rfl⟩
  exact Spends.keeps_trans (k₃.trans hk.1) (Spends.of_consumeGas (Prod.mk.eta (p := s₄.consumeGas _)).symm
    (sstoreCost_pos hk.2 status _ _ _))

theorem spends_opSelfDestruct : Spends host s (opSelfDestruct host s) := by
  unfold opSelfDestruct
  split
  · exact Spends.of_stop (KeepsIp.exit s _) rfl
  rename_i hstatic
  split
  next address s₁ h₁ =>
  have k₁ : KeepsIp host s s₁ := KeepsIp.of_popAddr h₁
  extract_lets gas₀
  split
  next gas s₂ h₂ =>
  have k₂ : KeepsIp host s₁ s₂ := by
    split at h₂
    · rw [← (Prod.mk.inj h₂).2]
      exact KeepsIp.setHost_step (.addAddress _ _)
    · rw [← (Prod.mk.inj h₂).2]
      exact KeepsIp.refl s₁
  split
  next s₃ h₃ => exact Spends.of_stop ((k₁.trans k₂).trans (KeepsIp.of_consumeGas h₃)) (stop_consumeGas_of_false h₃)
  next s₃ h₃ =>
  -- the account is destroyed in the host of a frame that is not static, and the frame halts
  have k₃ : KeepsIp host s s₃ := (k₁.trans k₂).trans (KeepsIp.of_consumeGas h₃)
  have k₄ : KeepsIp host s₃ { s₃ with host := host.selfdestruct s₃.host s₃.msg.address address } :=
    KeepsIp.setHost fun hs => absurd (k₃.msg ▸ hs) hstatic
  exact Spends.of_stop (k₃.trans (k₄.trans (KeepsIp.halt _))) rfl

end Spend

/-! ## Instructions that move `ip` -/

section Move

variable {host} (s : Frame H)

/-- Where a jump leaves `ip`: in place, or one before a valid destination, which the loop's
increment then reaches. -/
def JumpsTo (s s' : Frame H) : Prop :=
  s'.ip = s.ip ∨ ∃ dest, s.validJumpdest dest = true ∧ s'.ip = goInt (toUint64 dest - 1)

theorem validJumpdest_of_keeps {s s' : Frame H} (k : Keeps host s s') (dest : U256) :
    s'.validJumpdest dest = s.validJumpdest dest := by
  unfold Frame.validJumpdest
  rw [k.code, k.bitmap]

theorem keeps_jumpTo {s₁ : Frame H} (k : KeepsIp host s s₁) (dest : U256) {s' : Frame H}
    (hs' : s' = if s₁.validJumpdest dest = true then { s₁ with ip := goInt (toUint64 dest - 1) }
      else s₁.exit .invalidJump) :
    Keeps host s s' ∧ JumpsTo s s' := by
  by_cases hv : s₁.validJumpdest dest = true
  · rw [if_pos hv] at hs'
    subst hs'
    refine ⟨k.toKeeps.setIp _, Or.inr ⟨dest, ?_, rfl⟩⟩
    rw [← validJumpdest_of_keeps k.toKeeps]
    exact hv
  · rw [if_neg hv] at hs'
    subst hs'
    exact ⟨(k.trans (KeepsIp.exit _ _)).toKeeps, Or.inl (k.trans (KeepsIp.exit _ _)).ip⟩

theorem keeps_opJump : Keeps host s (opJump s) ∧ JumpsTo s (opJump s) := by
  unfold opJump
  split
  next dest s₁ h₁ => exact keeps_jumpTo s (KeepsIp.of_pop h₁) dest rfl

theorem keeps_opJumpi : Keeps host s (opJumpi s) ∧ JumpsTo s (opJumpi s) := by
  unfold opJumpi
  split
  next dest s₁ h₁ =>
  split
  next cond s₂ h₂ =>
  have k₂ : KeepsIp host s s₂ := (KeepsIp.of_pop h₁).trans (KeepsIp.of_pop h₂)
  split
  · exact keeps_jumpTo s k₂ dest rfl
  · exact ⟨k₂.toKeeps, Or.inl k₂.ip⟩

theorem keeps_opPush (n : ℕ) : Keeps host s (opPush n s) ∧ (opPush n s).ip = s.ip + n :=
  ⟨(KeepsIp.push s _).toKeeps.setIp _, rfl⟩

end Move

/-! ## Calls and creations -/

section Calls

variable (createAddress : Address → ℕ → Address)
  (createAddress2 : Address → Hash → List UInt8 → Address)

theorem buildCreateContract_spec {op : CreateOp} {s s' : Frame H} {r : Option Contract × Bool}
    (h : buildCreateContract host createAddress createAddress2 op s = (r, s')) :
    KeepsIp host s s' ∧
      (r = (none, true) ∨ (r = (none, false) ∧ s'.stop = true) ∨
        ∃ c, r = (some c, false) ∧ (ReturnsGas host → s'.gas.toNat + c.gas ≤ s.gas.toNat) ∧
          (s.config.eip150 = true ∨ op = .create2 → s'.gas.toNat = (s'.gas.toNat + c.gas) / 64)) := by
  unfold buildCreateContract at h
  split at h
  next value s₁ h₁ =>
  split at h
  next offset s₂ h₂ =>
  split at h
  next length s₃ h₃ =>
  split at h
  next salt s₄ h₄ =>
  have k₄ : KeepsIp host s s₄ := by
    have k₃ : KeepsIp host s s₃ := ((KeepsIp.of_pop h₁).trans (KeepsIp.of_pop h₂)).trans (KeepsIp.of_pop h₃)
    split at h₄
    · exact k₃.trans (KeepsIp.of_pop h₄)
    · rw [← (Prod.mk.inj h₄).2]
      exact k₃
  dsimp only at h
  split at h
  next input s₅ h₅ =>
    cases h
    exact ⟨k₄.trans (KeepsIp.of_get2 h₅), Or.inr (Or.inl ⟨rfl, stop_get2_of_false h₅⟩)⟩
  next input s₅ h₅ =>
  have k₅ := k₄.trans (KeepsIp.of_get2 h₅)
  split at h
  next s₆ h₆ =>
    -- only the charge of `CREATE2` for hashing the code can fail
    cases h
    split at h₆
    · exact ⟨k₅.trans (KeepsIp.of_consumeGas h₆), Or.inr (Or.inl ⟨rfl, stop_consumeGas_of_false h₆⟩)⟩
    · cases h₆
  next s₆ h₆ =>
  have k₆ : KeepsIp host s s₆ := by
    split at h₆
    · exact k₅.trans (KeepsIp.of_consumeGas h₆)
    · rw [← (Prod.mk.inj h₆).2]
      exact k₅
  split at h
  · cases h
    exact ⟨k₆, Or.inl rfl⟩
  split at h
  next s₇ h₇ =>
    cases h
    exact ⟨k₆.trans (KeepsIp.of_consumeGas h₇), Or.inr (Or.inl ⟨rfl, stop_consumeGas_of_false h₇⟩)⟩
  next s₇ h₇ =>
    cases h
    have k₇ := k₆.trans (KeepsIp.of_consumeGas h₇)
    -- the contract takes the gas the frame has just paid
    have hpaid := gas_consumeGas_of_true h₇
    refine ⟨k₇, Or.inr (Or.inr ⟨_, rfl, fun hg => ?_, fun he => ?_⟩)⟩
    · have hle := k₆.gas_le hg
      simp only [newContractCall]
      omega
    · -- EIP-150: the frame keeps a 64th of what it had
      rw [← k₆.config] at he
      have hdiv : s₆.st.gas / 64 ≤ s₆.st.gas := by
        rw [UInt64.le_iff_toNat_le, UInt64.toNat_div]
        exact Nat.div_le_self _ _
      simp only [newContractCall, if_pos he, UInt64.toNat_sub_of_le _ _ hdiv, UInt64.toNat_div,
        UInt64.reduceToNat] at hpaid ⊢
      change s'.st.gas.toNat + (s₆.st.gas.toNat - s₆.st.gas.toNat / 64) = s₆.st.gas.toNat at hpaid
      change s'.st.gas.toNat = (s'.st.gas.toNat + (s₆.st.gas.toNat - s₆.st.gas.toNat / 64)) / 64
      omega

theorem callCharge_bounds {s s' : Frame H} {a : Address} {g : UInt64}
    (h : (if s.config.berlin = true then s.calculateGasForEIP2929 host a
      else if s.config.eip150 = true then (700, s) else (40, s)) = (g, s')) :
    40 ≤ g.toNat ∧ g.toNat ≤ 2600 := by
  split_ifs at h
  · unfold Frame.calculateGasForEIP2929 at h
    split at h <;> cases h <;> decide
  all_goals cases h; decide

theorem buildCallContract_spec {op : CallOp} {s s' : Frame H} {r : Option Contract × UInt64 × UInt64 × Bool}
    (h : buildCallContract host op s = (r, s')) :
    KeepsIp host s s' ∧
      ((r.1 = none ∧ r.2.2.2 = false ∧ s'.stop = true) ∨
        ∃ c, r.1 = some c ∧ (s.msg.static = true → c.static = true) ∧
          (ReturnsGas host → s'.gas.toNat + c.gas + 40 ≤ s.gas.toNat) ∧
          (0 < r.2.2.1 → r.2.1.toNat + r.2.2.1.toNat ≤ s'.st.memory.length) ∧
          (s.config.eip150 = true → ∃ child stipend, c.gas = child + stipend ∧
            (stipend = 0 ∨ stipend = 2300 ∧ (op = .call ∨ op = .callCode)) ∧
            (s'.gas.toNat + child) / 64 ≤ s'.gas.toNat)) := by
  unfold buildCallContract at h
  split at h
  next initialGas s₁ h₁ =>
  split at h
  next addr s₂ h₂ =>
  split at h
  next value s₃ h₃ =>
  split at h
  next inOffset s₄ h₄ =>
  split at h
  next inSize s₅ h₅ =>
  split at h
  next retOffset s₆ h₆ =>
  split at h
  next retSize s₇ h₇ =>
  have k₃ : KeepsIp host s s₃ := by
    have k₂ : KeepsIp host s s₂ := (KeepsIp.of_pop h₁).trans (KeepsIp.of_popAddr h₂)
    split at h₃
    · exact k₂.trans (KeepsIp.of_pop h₃)
    · rw [← (Prod.mk.inj h₃).2]
      exact k₂
  have k₇ : KeepsIp host s s₇ := (((k₃.trans (KeepsIp.of_pop h₄)).trans (KeepsIp.of_pop h₅)).trans
    (KeepsIp.of_pop h₆)).trans (KeepsIp.of_pop h₇)
  split at h
  next args s₈ h₈ =>
    cases h
    exact ⟨k₇.trans (KeepsIp.of_get2 h₈), Or.inl ⟨rfl, rfl, stop_get2_of_false h₈⟩⟩
  next args s₈ h₈ =>
  have k₈ := k₇.trans (KeepsIp.of_get2 h₈)
  split at h
  next s₉ h₉ =>
    cases h
    exact ⟨k₈.trans (KeepsIp.of_allocateMemory h₉), Or.inl ⟨rfl, rfl, stop_allocateMemory_of_false h₉⟩⟩
  next s₉ h₉ =>
  have k₉ := k₈.trans (KeepsIp.of_allocateMemory h₉)
  split at h
  next gasCost₀ s₁₀ h₁₀ =>
  have k₁₀ := k₉.trans (KeepsIp.of_accountCharge (by split_ifs <;> rfl) h₁₀)
  have hc₀ := callCharge_bounds host h₁₀
  extract_lets transfersValue gasCost₁ gasCost₂ availableGas₀ availableGas gasOpt at h
  -- the surcharges for a new account and for a transfer of value
  have hc₁ : gasCost₀.toNat ≤ gasCost₁.toNat ∧ gasCost₁.toNat ≤ gasCost₀.toNat + 25000 := by
    simp only [gasCost₁]
    split_ifs <;> simp [UInt64.toNat_add] <;> omega
  have hc₂ : gasCost₂.toNat = gasCost₁.toNat + if transfersValue then 9000 else 0 := by
    simp only [gasCost₂]
    split_ifs
    · simp only [UInt64.toNat_add, UInt64.reduceToNat]
      omega
    · rfl
  -- from EIP-150 on, the call is given at most all but one 64th of what is left after its charge
  have hopt : s₁₀.config.eip150 = true → ∀ g, gasOpt = some g → g ≤ availableGas := by
    intro he g hg
    simp only [gasOpt, he, if_true] at hg
    split_ifs at hg with hlt
    · cases hg
      exact UInt64.le_refl _
    · cases hg
      exact UInt64.not_lt.1 fun h => hlt (Or.inr h)
  have havail : availableGas = availableGas₀ - availableGas₀ / 64 := rfl
  have havail₀ : availableGas₀ = s₁₀.st.gas - gasCost₂ := rfl
  clear_value gasOpt availableGas availableGas₀
  split at h
  · obtain ⟨rfl, rfl⟩ := Prod.mk.inj h
    exact ⟨k₁₀.trans (KeepsIp.exitMem _ _), Or.inl ⟨rfl, rfl, rfl⟩⟩
  next _ gas =>
  split at h
  · obtain ⟨rfl, rfl⟩ := Prod.mk.inj h
    exact ⟨k₁₀.trans (KeepsIp.exit _ _), Or.inl ⟨rfl, rfl, rfl⟩⟩
  next hover =>
  split at h
  next s₁₁ h₁₁ =>
    obtain ⟨rfl, rfl⟩ := Prod.mk.inj h
    exact ⟨k₁₀.trans (KeepsIp.of_consumeGas h₁₁), Or.inl ⟨rfl, rfl, stop_consumeGas_of_false h₁₁⟩⟩
  next s₁₁ h₁₁ =>
  have k₁₁ := k₁₀.trans (KeepsIp.of_consumeGas h₁₁)
  extract_lets gas' at h
  split at h
  next code hh h₁₂ =>
  extract_lets s₁₂ contract at h
  -- reading the callee's code fills the host's code cache
  have k₁₂ : KeepsIp host s s₁₂ := by
    refine k₁₁.trans (KeepsIp.setHost_step ?_)
    rw [show hh = (host.getCode s₁₁.host addr).2 by rw [h₁₂]]
    exact .getCode _ _
  have hcs : s.msg.static = true → contract.static = true := by
    intro hst
    exact static_childContract (k₁₂.msg ▸ hst) _ _ _ _ _
  -- the callee gets what the frame has paid for it, and the stipend for a transfer of value
  have hpaid := gas_consumeGas_of_true h₁₁
  rw [UInt64.toNat_add, Nat.mod_eq_of_lt (by omega)] at hpaid
  have hcg : contract.gas = gas'.toNat := gas_childContract _ _ _ _ _ _ _
  have hg' : gas'.toNat = gas.toNat + if transfersValue then 2300 else 0 := by
    by_cases htv : transfersValue
    · rw [if_pos htv] at hc₂ ⊢
      simp only [gas', if_pos htv, UInt64.toNat_add]
      rw [Nat.mod_eq_of_lt (by simp; omega)]
      rfl
    · rw [if_neg htv]
      exact congrArg UInt64.toNat (if_neg htv)
  -- but not the charge for the call
  have hbound : ReturnsGas host → s₁₂.gas.toNat + contract.gas + 40 ≤ s.gas.toNat := by
    intro hg
    have hle := k₁₀.gas_le hg
    rw [hcg, hg']
    change s₁₁.gas.toNat + _ + 40 ≤ s.gas.toNat
    split_ifs at hc₂ ⊢ <;> omega
  -- EIP-150: beyond the stipend, the callee leaves the frame at least a 64th of what the charge
  -- left
  have h64 : s.config.eip150 = true → ∃ child stipend, contract.gas = child + stipend ∧
      (stipend = 0 ∨ stipend = 2300 ∧ (op = .call ∨ op = .callCode)) ∧
      (s₁₂.gas.toNat + child) / 64 ≤ s₁₂.gas.toNat := by
    intro he
    have hle := UInt64.le_iff_toNat_le.1 (hopt (k₁₀.config ▸ he) gas rfl)
    have hcost : gasCost₂ ≤ s₁₀.st.gas := by
      rw [UInt64.le_iff_toNat_le]
      change gasCost₂.toNat ≤ s₁₀.gas.toNat
      omega
    have hA : availableGas.toNat = (s₁₀.gas.toNat - gasCost₂.toNat) -
        (s₁₀.gas.toNat - gasCost₂.toNat) / 64 := by
      have hdiv : availableGas₀ / 64 ≤ availableGas₀ := by
        rw [UInt64.le_iff_toNat_le, UInt64.toNat_div]
        exact Nat.div_le_self _ _
      rw [havail, UInt64.toNat_sub_of_le _ _ hdiv, UInt64.toNat_div, havail₀,
        UInt64.toNat_sub_of_le _ _ hcost]
      rfl
    refine ⟨gas.toNat, if transfersValue then 2300 else 0, by rw [hcg, hg'], ?_, ?_⟩
    · split_ifs with htv
      · exact .inr ⟨rfl, htv.1⟩
      · exact .inl rfl
    · change (s₁₁.gas.toNat + gas.toNat) / 64 ≤ s₁₁.gas.toNat
      omega
  -- the return range is the one the allocation has covered
  have hcov : 0 < toUint64 retSize →
      (toUint64 retOffset).toNat + (toUint64 retSize).toNat ≤ s₁₂.st.memory.length := by
    intro hpos
    have hs : retSize.val ≠ 0 := val_ne_zero_of_toUint64 fun h0 => by
      rw [h0] at hpos
      exact absurd hpos (by decide)
    change _ ≤ s₁₁.st.memory.length
    rw [Frame.memory_consumeGas h₁₁, memory_of_accountCharge host (by split_ifs <;> rfl) h₁₀]
    exact Frame.covers_allocateMemory h₉ hs
  split at h
  · obtain ⟨rfl, rfl⟩ := Prod.mk.inj h
    exact ⟨k₁₂, Or.inr ⟨contract, rfl, hcs, hbound, fun h0 => absurd h0 (by simp), h64⟩⟩
  · obtain ⟨rfl, rfl⟩ := Prod.mk.inj h
    exact ⟨k₁₂, Or.inr ⟨contract, rfl, hcs, hbound, hcov, h64⟩⟩

/-- EIP-150's rule for the gas of a child frame. From EIP-150 on, a call gives the callee, beyond
the stipend of 2300 that comes with a transfer of value, at most all but one 64th of the gas the
charge for the call has left, so the frame keeps at least that 64th. `CREATE` from EIP-150 on, and
`CREATE2` always, give the new contract all but one 64th of the frame's gas and leave the frame
exactly that 64th. -/
theorem childGas_allButOne64th :
    (∀ (op : CallOp) (s s' : Frame H) (c : Contract) (offset size : UInt64) (short : Bool),
      buildCallContract host op s = ((some c, offset, size, short), s') → s.config.eip150 = true →
      ∃ child stipend, c.gas = child + stipend ∧
        (stipend = 0 ∨ stipend = 2300 ∧ (op = .call ∨ op = .callCode)) ∧
        (s'.gas.toNat + child) / 64 ≤ s'.gas.toNat) ∧
    (∀ (op : CreateOp) (s s' : Frame H) (c : Contract),
      buildCreateContract host createAddress createAddress2 op s = ((some c, false), s') →
      s.config.eip150 = true ∨ op = .create2 → s'.gas.toNat = (s'.gas.toNat + c.gas) / 64) := by
  refine ⟨fun op s s' c offset size short h he => ?_, fun op s s' c h he => ?_⟩
  · obtain ⟨-, hr⟩ := buildCallContract_spec host h
    rcases hr with ⟨hnone, -⟩ | ⟨c', hc, -, -, -, h64⟩
    · cases hnone
    · cases hc
      exact h64 he
  · obtain ⟨-, hr⟩ := buildCreateContract_spec host createAddress createAddress2 h
    rcases hr with hr | ⟨hr, -⟩ | ⟨c', hc, -, h64⟩
    · cases hr
    · cases hr
    · cases hc
      exact h64 he

/-- A `CALL` asking 50000 gas, without value, from a frame of 100000 gas under every fork. -/
theorem childGas_allButOne64th_call :
    let s0 := newFrame (messageTo [] 100000 false) () allForks
    let s : Frame Unit := { s0 with st := { s0.st with stack := [50000, 3, 0, 0, 0, 0, 0] } }
    ∃ c s', buildCallContract nullHost .call s = ((some c, 0, 0, false), s') ∧
      ∃ child stipend, c.gas = child + stipend ∧
        (stipend = 0 ∨ stipend = 2300 ∧ (CallOp.call = .call ∨ CallOp.call = .callCode)) ∧
        (s'.gas.toNat + child) / 64 ≤ s'.gas.toNat := by
  intro s0 s
  have hsome : (buildCallContract nullHost .call s).1.1.isSome = true ∧
      (buildCallContract nullHost .call s).1.2 = (0, 0, false) := by decide +kernel
  generalize hr : buildCallContract nullHost .call s = r at hsome
  obtain ⟨⟨_ | c, offset, size, short⟩, s'⟩ := r
  · simp at hsome
  · obtain ⟨-, hrest⟩ := hsome
    cases hrest
    exact ⟨c, s', rfl, (childGas_allButOne64th nullHost (fun _ _ => 0) (fun _ _ _ => 0)).1 .call
      s s' c 0 0 false hr rfl⟩

section

variable {host}

theorem keepsIp_opCreate (op : CreateOp) (s : Frame H) :
    KeepsIp host s (opCreate host createAddress createAddress2 op s) := by
  unfold opCreate
  split
  · exact KeepsIp.exit s _
  rename_i hstatic
  split
  · exact KeepsIp.exitMem s _
  extract_lets s₀
  have k₀ : KeepsIp host s s₀ := KeepsIp.resetReturnData s
  split
  next contract s₁ h₁ =>
    obtain ⟨k₁, hr⟩ := buildCreateContract_spec host _ _ h₁
    -- a short balance comes with no contract
    have hc : contract = none := by
      rcases hr with h | ⟨h, -⟩ | ⟨c, h, -⟩ <;> cases h
      rfl
    subst hc
    exact (k₀.trans k₁).trans (KeepsIp.push _ _)
  next s₁ h₁ => exact k₀.trans (buildCreateContract_spec host _ _ h₁).1
  next contract s₁ h₁ =>
    obtain ⟨k₁, hr⟩ := buildCreateContract_spec host _ _ h₁
    have hgas : ReturnsGas host → s₁.gas.toNat + contract.gas ≤ s₀.gas.toNat := by
      rcases hr with h | ⟨h, -⟩ | ⟨c, h, hc, -⟩ <;> cases h
      exact hc
    extract_lets contract'
    split
    next result h hcall =>
    extract_lets s₂ v s₃
    -- the creation runs in the host of a frame that is not static
    have k₁' := k₀.trans k₁
    have k₂ : KeepsIp host s s₂ := k₁'.trans (KeepsIp.setHost fun hs => absurd (k₁'.msg ▸ hs) hstatic)
    -- the frame takes back what the creation has left of the gas it was given
    have k₃ : KeepsIp host s s₃ := by
      refine (k₂.trans (KeepsIp.push _ v)).refund (fun _ => ⟨rfl, rfl, rfl, rfl, rfl⟩) fun hg => ?_
      have hleft : result.gasLeft ≤ contract.gas := by
        have := hg s₁.host contract'
        rwa [hcall] at this
      have e : (s₂.push v).gas = s₁.gas := rfl
      rw [e]
      have := hgas hg
      have := k₀.gas_le hg
      exact le_trans (by omega) this
    split
    · exact k₃.trans (KeepsIp.mapSt (State.Keeps.of_le rfl le_rfl rfl rfl rfl))
    · exact k₃

theorem spends_opCall (op : CallOp) (s : Frame H) : Spends host s (opCall host op s) := by
  unfold opCall
  extract_lets s₀ guard
  have k₀ : KeepsIp host s s₀ := KeepsIp.resetReturnData s
  -- the check of a static frame's value ends in an exit
  have hguard : ∀ s', guard = some s' → ∃ e, s' = s₀.exit e := by
    intro s' hs'
    simp only [guard] at hs'
    split at hs'
    · split at hs'
      · exact ⟨_, (Option.some.inj hs').symm⟩
      · split at hs'
        · exact ⟨_, (Option.some.inj hs').symm⟩
        · cases hs'
    · cases hs'
  clear_value guard
  split
  next s' =>
    obtain ⟨e, rfl⟩ := hguard s' rfl
    exact Spends.of_stop (k₀.trans (KeepsIp.exit _ e)) rfl
  split
  · exact Spends.of_stop (k₀.trans (KeepsIp.exitMem _ _)) rfl
  split
  · exact Spends.of_stop (k₀.trans (KeepsIp.exitMem _ _)) rfl
  split
  next contract offset size s₁ h₁ =>
    obtain ⟨k₁, hr⟩ := buildCallContract_spec host h₁
    -- a short balance comes with the contract, whose gas the frame takes back
    rcases hr with ⟨-, h, -⟩ | ⟨c, hc, -, hgas, -, -⟩
    · cases h
    have hc : contract = some c := hc
    subst hc
    extract_lets s₂
    refine Spends.refund ((k₀.trans k₁).trans (KeepsIp.push _ _)) (fun _ => ⟨rfl, rfl, rfl, rfl, rfl⟩)
      fun hg => ?_
    have := hgas hg
    have := k₀.gas_le hg
    change s₁.gas.toNat + c.gas < s.gas.toNat
    omega
  next offset size s₁ h₁ =>
    obtain ⟨k₁, hr⟩ := buildCallContract_spec host h₁
    rcases hr with ⟨-, -, hstop⟩ | ⟨c, hc, -⟩
    · exact Spends.of_stop (k₀.trans k₁) hstop
    · cases hc
  next contract offset size s₁ h₁ =>
    obtain ⟨k₁, hr⟩ := buildCallContract_spec host h₁
    obtain ⟨hcs, hgas, hcov⟩ : (s₀.msg.static = true → contract.static = true) ∧
        (ReturnsGas host → s₁.gas.toNat + contract.gas + 40 ≤ s₀.gas.toNat) ∧
        (0 < size → offset.toNat + size.toNat ≤ s₁.st.memory.length) := by
      rcases hr with ⟨h, -⟩ | ⟨c, hc, hcs, hgas, hcov, -⟩
      · cases h
      · cases hc
        exact ⟨hcs, hgas, hcov⟩
    extract_lets contract'
    split
    next result h hcall =>
    extract_lets s₂ s₃ data s₄
    have k₁' := k₀.trans k₁
    -- the callee runs in the host, and a static frame makes only static calls
    have k₂ : KeepsIp host s s₂ := by
      refine k₁'.trans (KeepsIp.setHost fun hs => .single ?_)
      rw [show h = (host.callx s₁.host contract').2 by rw [hcall]]
      exact .staticCall _ _ (hcs (k₁.msg ▸ hs))
    have k₃ : KeepsIp host s s₃ := k₂.trans (KeepsIp.push _ _)
    have k₄ : KeepsIp host s s₄ := by
      refine k₃.trans ?_
      simp only [s₄]
      split
      next hret =>
        -- what the callee returned goes into the return range, which the memory covers
        refine KeepsIp.mapSt (State.Keeps.of_le rfl le_rfl rfl rfl (length_copySlice ?_))
        have := hcov hret.2.2
        change offset.toNat + (result.returnValue.take size.toNat).length ≤ s₁.st.memory.length
        rw [List.length_take]
        omega
      · exact KeepsIp.refl _
    -- the frame takes back what the callee has left, which is less than it paid
    refine Spends.refund k₄ (fun _ => ⟨rfl, rfl, rfl, rfl, rfl⟩) fun hg => ?_
    have hleft : result.gasLeft ≤ contract.gas := by
      have := hg s₁.host contract'
      rwa [hcall] at this
    have e : s₄.gas = s₁.gas := by
      simp only [s₄]
      split <;> rfl
    rw [e]
    have := hgas hg
    have := k₀.gas_le hg
    omega

end

end Calls

end Blade.Evm
