import Blade.Types.Codec

/-!
The EIP-1559 base fee of `blockchain/blockchain.go`: `CalculateBaseFee` and `calcBaseFeeDelta`,
over what they read of `chain.Chain`, of the consensus (`GetLatestChainConfig`) and of the head
header. Go's `uint64` is `UInt64`, so the product of the base fee and the gas delta and the sum
of the base fee and its delta wrap around `2 ^ 64`; a division by zero is a run-time panic in Go
and `none` here.

`eip1559BaseFee` is the formula of EIP-1559 on unbounded naturals. `CalculateBaseFee` is that
formula with the product and the sum taken modulo `2 ^ 64`, and agrees with it when neither
wraps. The change denominator is the one in force at the head of the chain, not at the parent's
successor, and when the latest chain configuration cannot be read the genesis denominator itself
stands in for the delta.
-/

namespace Blade

/-- The forks of `chain.Forks` that the base fee asks about. -/
inductive ForkName
  | london
  | governance
  deriving DecidableEq, Repr

structure Fork where
  block : UInt64

def Fork.active (f : Fork) (block : UInt64) : Bool := block ≥ f.block

def Forks := ForkName → Option Fork

def Forks.isActive (f : Forks) (name : ForkName) (block : UInt64) : Bool :=
  match f name with
  | some ff => ff.active block
  | none => false

/-- The fields of `chain.Params` that the base fee reads. -/
structure Params where
  forks : Forks
  baseFeeChangeDenom : UInt64
  baseFeeEM : UInt64

structure Genesis where
  baseFee : UInt64

structure Chain where
  genesis : Genesis
  params : Params

def genesisBaseFee : UInt64 := 1000000000

/-- Go's `/` on `uint64`, which panics on a zero divisor. -/
def div? (a b : UInt64) : Option UInt64 := if b = 0 then none else some (a / b)

def Common.max (a b : UInt64) : UInt64 := if a > b then a else b

/-- The base fee of EIP-1559 on unbounded naturals, from the parent's base fee, gas limit and gas
used, the elasticity multiplier and the change denominator `d`. -/
def eip1559BaseFee (baseFee gasLimit gasUsed baseFeeEM d : ℕ) : ℕ :=
  let target := gasLimit / baseFeeEM
  if gasUsed = target then baseFee
  else if target < gasUsed then baseFee + max 1 (baseFee * (gasUsed - target) / target / d)
  else baseFee - baseFee * (target - gasUsed) / target / d

/-- `eip1559BaseFee` with the product of the base fee and the gas delta, and the increased fee,
taken modulo `m`. -/
def eip1559BaseFeeMod (m baseFee gasLimit gasUsed baseFeeEM d : ℕ) : ℕ :=
  let target := gasLimit / baseFeeEM
  if gasUsed = target then baseFee
  else if target < gasUsed then
    (baseFee + max 1 (baseFee * (gasUsed - target) % m / target / d)) % m
  else baseFee - baseFee * (target - gasUsed) % m / target / d

theorem eip1559BaseFeeMod_of_lt {m baseFee gasLimit gasUsed baseFeeEM d : ℕ}
    (hprod : baseFee * (max gasUsed (gasLimit / baseFeeEM) - min gasUsed (gasLimit / baseFeeEM)) < m)
    (hres : eip1559BaseFee baseFee gasLimit gasUsed baseFeeEM d < m) :
    eip1559BaseFeeMod m baseFee gasLimit gasUsed baseFeeEM d =
      eip1559BaseFee baseFee gasLimit gasUsed baseFeeEM d := by
  unfold eip1559BaseFeeMod
  unfold eip1559BaseFee at hres ⊢
  dsimp only at hres ⊢
  split_ifs at hres ⊢ with heq hlt
  · rfl
  · have hdist : max gasUsed (gasLimit / baseFeeEM) - min gasUsed (gasLimit / baseFeeEM) =
        gasUsed - gasLimit / baseFeeEM := by omega
    rw [hdist] at hprod
    rw [Nat.mod_eq_of_lt hprod, Nat.mod_eq_of_lt hres]
  · have hdist : max gasUsed (gasLimit / baseFeeEM) - min gasUsed (gasLimit / baseFeeEM) =
        gasLimit / baseFeeEM - gasUsed := by omega
    rw [hdist] at hprod
    rw [Nat.mod_eq_of_lt hprod]

theorem wrapped_delta_le {m baseFee gasUsedDelta target d : ℕ} (hg : gasUsedDelta ≤ target)
    (ht : 0 < target) : baseFee * gasUsedDelta % m / target / d ≤ baseFee :=
  calc baseFee * gasUsedDelta % m / target / d
      ≤ baseFee * gasUsedDelta % m / target := Nat.div_le_self _ _
    _ ≤ baseFee * gasUsedDelta / target := Nat.div_le_div_right (Nat.mod_le _ _)
    _ ≤ baseFee * target / target := Nat.div_le_div_right (Nat.mul_le_mul_left _ hg)
    _ = baseFee := Nat.mul_div_cancel _ ht

theorem div?_of_ne_zero {a b : UInt64} (hb : b ≠ 0) : div? a b = some (a / b) := by
  simp [div?, hb]

theorem toNat_commonMax (a b : UInt64) : (Common.max a b).toNat = max a.toNat b.toNat := by
  unfold Common.max
  split
  · rename_i h
    rw [gt_iff_lt, UInt64.lt_iff_toNat_lt] at h
    omega
  · rename_i h
    rw [gt_iff_lt, UInt64.lt_iff_toNat_lt] at h
    omega

section Blockchain

variable (genesisConfig : Chain) (latestChainConfig : Except String (Option Params))
  (head : Types.Header)

/-- The denominator of `calcBaseFeeDelta`: that of the latest chain configuration once
governance is active at the head, the genesis one otherwise; `.error` when the latest chain
configuration cannot be read. -/
def baseFeeChangeDenom : Except String UInt64 :=
  if genesisConfig.params.forks.isActive .governance head.number then
    match latestChainConfig with
    | .error e => .error e
    | .ok (some chainConfig) => .ok chainConfig.baseFeeChangeDenom
    | .ok none => .ok genesisConfig.params.baseFeeChangeDenom
  else .ok genesisConfig.params.baseFeeChangeDenom

def calcBaseFeeDelta (gasUsedDelta parentGasTarget baseFee : UInt64) : Option UInt64 :=
  match baseFeeChangeDenom genesisConfig latestChainConfig head with
  -- the source logs the error and returns the genesis denominator as the delta
  | .error _ => some genesisConfig.params.baseFeeChangeDenom
  | .ok d => do
    let y ← div? (baseFee * gasUsedDelta) parentGasTarget
    div? y d

def calculateBaseFee (parent : Types.Header) : Option UInt64 :=
  if !genesisConfig.params.forks.isActive .london parent.number then some 0
  else if parent.baseFee = 0 then
    if genesisConfig.genesis.baseFee > 0 then some genesisConfig.genesis.baseFee
    else some genesisBaseFee
  else do
    let parentGasTarget ← div? parent.gasLimit genesisConfig.params.baseFeeEM
    if parent.gasUsed = parentGasTarget then pure parent.baseFee
    else if parent.gasUsed > parentGasTarget then do
      let baseFeeDelta ← calcBaseFeeDelta genesisConfig latestChainConfig head
        (parent.gasUsed - parentGasTarget) parentGasTarget parent.baseFee
      pure (parent.baseFee + Common.max baseFeeDelta 1)
    else do
      let baseFeeDelta ← calcBaseFeeDelta genesisConfig latestChainConfig head
        (parentGasTarget - parent.gasUsed) parentGasTarget parent.baseFee
      pure (Common.max (parent.baseFee - baseFeeDelta) 0)

variable {genesisConfig latestChainConfig head}

theorem calcBaseFeeDelta_of_ok {d : UInt64}
    (hd : baseFeeChangeDenom genesisConfig latestChainConfig head = .ok d) (hd0 : d ≠ 0)
    {parentGasTarget : UInt64} (ht : parentGasTarget ≠ 0) (gasUsedDelta baseFee : UInt64) :
    (calcBaseFeeDelta genesisConfig latestChainConfig head gasUsedDelta parentGasTarget
        baseFee).map UInt64.toNat =
      some (baseFee.toNat * gasUsedDelta.toNat % 2 ^ 64 / parentGasTarget.toNat / d.toNat) := by
  simp only [calcBaseFeeDelta, hd, div?_of_ne_zero ht, div?_of_ne_zero hd0]
  simp [UInt64.toNat_div, UInt64.toNat_mul]

theorem calculateBaseFee_toNat {parent : Types.Header} {d : UInt64}
    (hLondon : genesisConfig.params.forks.isActive .london parent.number = true)
    (hB : 0 < parent.baseFee) (hEM : 0 < genesisConfig.params.baseFeeEM)
    (hLimit : genesisConfig.params.baseFeeEM ≤ parent.gasLimit)
    (hd : baseFeeChangeDenom genesisConfig latestChainConfig head = .ok d) (hd0 : 0 < d) :
    (calculateBaseFee genesisConfig latestChainConfig head parent).map UInt64.toNat =
      some (eip1559BaseFeeMod (2 ^ 64) parent.baseFee.toNat parent.gasLimit.toNat
        parent.gasUsed.toNat genesisConfig.params.baseFeeEM.toNat d.toNat) := by
  set t := parent.gasLimit / genesisConfig.params.baseFeeEM with ht_def
  have htn : t.toNat = parent.gasLimit.toNat / genesisConfig.params.baseFeeEM.toNat :=
    UInt64.toNat_div _ _
  have htpos : 0 < t.toNat := by
    rw [htn]
    exact Nat.div_pos (UInt64.le_iff_toNat_le.mp hLimit) (UInt64.lt_iff_toNat_lt.mp hEM)
  have ht0 : t ≠ 0 := fun h => by simp [h] at htpos
  have hdelta (g : UInt64) :=
    calcBaseFeeDelta_of_ok hd (UInt64.pos_iff_ne_zero.mp hd0) ht0 g parent.baseFee
  simp only [calculateBaseFee, hLondon, UInt64.pos_iff_ne_zero.mp hB,
    div?_of_ne_zero (UInt64.pos_iff_ne_zero.mp hEM), Bool.not_true, Bool.false_eq_true, if_false,
    Option.bind_eq_bind, Option.bind_some]
  rw [← ht_def]
  unfold eip1559BaseFeeMod
  dsimp only
  rw [← htn]
  by_cases hU : parent.gasUsed = t
  · simp [hU]
  have hUn : parent.gasUsed.toNat ≠ t.toNat := fun h => hU (UInt64.toNat_inj.mp h)
  by_cases hlt : t < parent.gasUsed
  · -- above target: the delta of the wrapped product, at least one, added with wrapping
    obtain ⟨δ, hδ, hδn⟩ := Option.map_eq_some_iff.mp (hdelta (parent.gasUsed - t))
    have hltn := UInt64.lt_iff_toNat_lt.mp hlt
    simp only [hU, if_false, gt_iff_lt, hlt, if_true, hδ, Option.bind_some, Option.pure_def,
      Option.map_some, hUn, hltn]
    rw [UInt64.toNat_add, toNat_commonMax, hδn, UInt64.toNat_sub_of_le _ _ (UInt64.le_iff_toNat_le.mpr hltn.le),
      max_comm]
    rfl
  · -- below target: the wrapped delta is at most the base fee, so nothing wraps
    have hltn : ¬ t.toNat < parent.gasUsed.toNat := fun h => hlt (UInt64.lt_iff_toNat_lt.mpr h)
    obtain ⟨δ, hδ, hδn⟩ := Option.map_eq_some_iff.mp (hdelta (t - parent.gasUsed))
    have hsub : (t - parent.gasUsed).toNat = t.toNat - parent.gasUsed.toNat :=
      UInt64.toNat_sub_of_le _ _ (UInt64.le_iff_toNat_le.mpr (by omega))
    have hδle : δ.toNat ≤ parent.baseFee.toNat := by
      rw [hδn, hsub]
      exact wrapped_delta_le (by omega) htpos
    simp only [hU, if_false, gt_iff_lt, hlt, hδ, Option.bind_some, Option.pure_def,
      Option.map_some, hUn, hltn]
    rw [toNat_commonMax, UInt64.toNat_sub_of_le _ _ (UInt64.le_iff_toNat_le.mpr hδle), hδn, hsub]
    simp

theorem calculateBaseFee_wrapped_eip1559 {parent : Types.Header} {d : UInt64}
    (hLondon : genesisConfig.params.forks.isActive .london parent.number = true)
    (hB : 0 < parent.baseFee) (hEM : 0 < genesisConfig.params.baseFeeEM)
    (hLimit : genesisConfig.params.baseFeeEM ≤ parent.gasLimit)
    (hd : baseFeeChangeDenom genesisConfig latestChainConfig head = .ok d) (hd0 : 0 < d) :
    (calculateBaseFee genesisConfig latestChainConfig head parent).map UInt64.toNat =
        some (eip1559BaseFeeMod (2 ^ 64) parent.baseFee.toNat parent.gasLimit.toNat
          parent.gasUsed.toNat genesisConfig.params.baseFeeEM.toNat d.toNat) ∧
      (parent.baseFee.toNat *
            (max parent.gasUsed.toNat (parent.gasLimit.toNat / genesisConfig.params.baseFeeEM.toNat) -
              min parent.gasUsed.toNat (parent.gasLimit.toNat / genesisConfig.params.baseFeeEM.toNat))
          < 2 ^ 64 →
        eip1559BaseFee parent.baseFee.toNat parent.gasLimit.toNat parent.gasUsed.toNat
            genesisConfig.params.baseFeeEM.toNat d.toNat < 2 ^ 64 →
        (calculateBaseFee genesisConfig latestChainConfig head parent).map UInt64.toNat =
          some (eip1559BaseFee parent.baseFee.toNat parent.gasLimit.toNat parent.gasUsed.toNat
            genesisConfig.params.baseFeeEM.toNat d.toNat)) := by
  have h := calculateBaseFee_toNat hLondon hB hEM hLimit hd hd0
  refine ⟨h, fun hprod hres => ?_⟩
  rw [h, eip1559BaseFeeMod_of_lt hprod hres]

/-- A congested block at a base fee of 2000 gwei, with the default elasticity multiplier and
denominator: the product of the base fee and the gas delta wraps, and the base fee rises by
about 96 gwei where EIP-1559 raises it by 250. -/
theorem calculateBaseFee_wrapped_eip1559_congested :
    let genesisConfig : Chain := ⟨⟨0⟩, ⟨fun _ => some ⟨0⟩, 8, 2⟩⟩
    let parent : Types.Header := ⟨0, 0, [], 0, 0, 0, ⟨List.replicate 256 0, List.length_replicate⟩, 0, 1,
      30000000, 30000000, 0, [], 0, Types.nonceOf 0, 2000000000000⟩
    calculateBaseFee genesisConfig (.ok none) parent parent = some 2096277132719 ∧
      eip1559BaseFee 2000000000000 30000000 30000000 2 8 = 2250000000000 ∧
      ((calculateBaseFee genesisConfig (.ok none) parent parent).map UInt64.toNat =
          some (eip1559BaseFeeMod (2 ^ 64) parent.baseFee.toNat parent.gasLimit.toNat
            parent.gasUsed.toNat genesisConfig.params.baseFeeEM.toNat 8) ∧
        (parent.baseFee.toNat *
              (max parent.gasUsed.toNat (parent.gasLimit.toNat / genesisConfig.params.baseFeeEM.toNat) -
                min parent.gasUsed.toNat
                  (parent.gasLimit.toNat / genesisConfig.params.baseFeeEM.toNat)) < 2 ^ 64 →
          eip1559BaseFee parent.baseFee.toNat parent.gasLimit.toNat parent.gasUsed.toNat
              genesisConfig.params.baseFeeEM.toNat 8 < 2 ^ 64 →
          (calculateBaseFee genesisConfig (.ok none) parent parent).map UInt64.toNat =
            some (eip1559BaseFee parent.baseFee.toNat parent.gasLimit.toNat parent.gasUsed.toNat
              genesisConfig.params.baseFeeEM.toNat 8))) :=
  ⟨by decide, by decide,
    calculateBaseFee_wrapped_eip1559 (d := 8) rfl (by decide) (by decide) (by decide) rfl
      (by decide)⟩

end Blockchain

end Blade
