import Blade.State.Executor
import Blade.Crypto.TxSigner

/-!
A transaction on a `Transition` (`Transition.Write`, `Apply`, `apply` and their checks in
`state/executor.go`). The checks do not change the state before they fail; `apply` can fail
after it has bought the gas and taken it from the block's pool, and `Apply` then reverts the
world state but not the pool.

Results are `EStateM.Result`s: a failure carries the transition as the failing call left it.
-/

namespace Blade

open Lib

inductive TransitionError
  | nonceTooLow
  | nonceTooHigh
  | nonceMax
  | senderNoEOA
  | notEnoughFundsForGas
  | blockLimitReached
  | intrinsicGasOverflow
  | notEnoughIntrinsicGas
  | insufficientFunds
  | tipAboveFeeCap
  | tipVeryHigh
  | feeCapVeryHigh
  | feeCapTooLow
  /-- "gasPrice of state transaction must be zero" -/
  | stateTxGasPrice
  /-- "gas of state transaction must be %d" -/
  | stateTxGas
  /-- "state transaction sender must be %v, but got %v" -/
  | stateTxSender
  /-- "to of state transaction must be specified" -/
  | stateTxTo
  | runtime (e : RuntimeError)
  | signer (msg : String)
  deriving DecidableEq, Repr

/-- `TransactionGasCost`: the base cost, the payload's bytes with the overflow checks of the
source, and the access list, whose terms are added in `uint64`. -/
def transactionGasCost (msg : Transaction) (isHomestead isIstanbul : Bool) :
    Except TransitionError ℕ :=
  let cost := if msg.isContractCreation ∧ isHomestead then txGasContractCreation else txGas
  let payload := msg.input
  let withPayload : Except TransitionError ℕ :=
    if payload.length = 0 then .ok cost
    else
      let zeros := payload.countP (· = 0)
      let nonZeros := payload.length - zeros
      let nonZeroCost := if isIstanbul then 16 else 68
      if (maxUint64 - cost) / nonZeroCost < nonZeros then .error .intrinsicGasOverflow
      else
        let cost := cost + nonZeros * nonZeroCost
        if (maxUint64 - cost) / 4 < zeros then .error .intrinsicGasOverflow
        else .ok (cost + zeros * 4)
  withPayload.map fun cost =>
    let accessList := msg.accessList
    (cost + accessList.length * txAccessListAddressGas +
      (accessList.map (·.storageKeys.length)).sum * txAccessListStorageKeyGas) % 2 ^ 64

def checkAndProcessStateTx (msg : Transaction) : Except TransitionError Unit :=
  if msg.gasPrice.getD 0 ≠ 0 then .error .stateTxGasPrice
  else if msg.gas ≠ stateTransactionGasLimit then .error .stateTxGas
  else if msg.«from» ≠ systemCaller then .error .stateTxSender
  else if msg.«to».getD 0 = 0 then .error .stateTxTo
  else .ok ()

/-- `Precompiled.Addrs`: the addresses `setupContracts` registers, in its order. -/
def Precompiled.addrs : List Address := [1, 2, 3, 4, 5, 6, 7, 8, 9, 0x2020, 0x2030]

namespace Transition

variable (t : Transition) (msg : Transaction)

/-- The transaction's own fields of the context, and its initial access list: empty before
Berlin, prepared from the transaction under it. -/
def withTxContext (gasPrice : ℤ) : Transition :=
  let initialAccessList := if t.config.berlin then
      AccessList.newAccessList.prepareAccessList msg.«from» msg.«to» Precompiled.addrs msg.accessList
    else AccessList.newAccessList
  { t with
    ctx := { t.ctx with gasPrice := bytesToHash (Rlp.toBytesBE gasPrice.natAbs), origin := msg.«from» }
    accessList := initialAccessList }

-- A bare rfl would compare the new context with the old one field by field first; unfolding
-- reduces the projection at once.
@[simp] theorem state_withTxContext (p : ℤ) : (t.withTxContext msg p).state = t.state := by
  unfold withTxContext; rfl
@[simp] theorem config_withTxContext (p : ℤ) : (t.withTxContext msg p).config = t.config := by
  unfold withTxContext; rfl
@[simp] theorem gasPool_withTxContext (p : ℤ) : (t.withTxContext msg p).gasPool = t.gasPool := by
  unfold withTxContext; rfl
@[simp] theorem isL1OriginatedToken_withTxContext (p : ℤ) :
    (t.withTxContext msg p).isL1OriginatedToken = t.isL1OriginatedToken := by
  unfold withTxContext; rfl
@[simp] theorem ctx_withTxContext (p : ℤ) : (t.withTxContext msg p).ctx =
    { t.ctx with gasPrice := bytesToHash (Rlp.toBytesBE p.natAbs), origin := msg.«from» } := rfl

/-- Under Berlin a message starts with its sender, a call's recipient, the precompiles and the
addresses it lists warm, whatever access list the transaction before it left. -/
theorem containsAccessListAddress_withTxContext (hberlin : t.config.berlin = true) {b : Address}
    (h : b = msg.«from» ∨ msg.«to» = some b ∨ b ∈ Precompiled.addrs ∨
      b ∈ msg.accessList.map (·.address)) (p : ℤ) :
    (t.withTxContext msg p).containsAccessListAddress b = true := by
  unfold withTxContext containsAccessListAddress
  simp only [hberlin, if_true]
  exact AccessList.containsAddress_prepareAccessList h

def nonceCheck : Except TransitionError Unit :=
  let currentNonce := t.state.getNonce msg.«from»
  if currentNonce < msg.nonce then .error .nonceTooHigh
  else if currentNonce > msg.nonce then .error .nonceTooLow
  else if currentNonce + 1 = 2 ^ 64 then .error .nonceMax
  else .ok ()

/-- `checkDynamicFees`. A dynamic-fee transaction with both caps zero returns before the
fee-cap check against the base fee. -/
def checkDynamicFees : Except TransitionError Unit :=
  if !t.config.london then .ok ()
  else
    let baseFeeCheck : Except TransitionError Unit :=
      if msg.getGasFeeCap.getD 0 < t.ctx.baseFee then .error .feeCapTooLow else .ok ()
    if msg.type = .dynamicFee then
      let gasFeeCap := msg.gasFeeCap.getD 0
      let gasTipCap := msg.gasTipCap.getD 0
      if gasFeeCap = 0 ∧ gasTipCap = 0 then .ok ()
      else if 2 ^ 256 ≤ gasFeeCap.natAbs then .error .feeCapVeryHigh
      else if 2 ^ 256 ≤ gasTipCap.natAbs then .error .tipVeryHigh
      else if gasFeeCap < gasTipCap then .error .tipAboveFeeCap
      else baseFeeCheck
    else baseFeeCheck

/-- `subGasLimitPrice`: the balance must cover `gas * gasPrice`, and for a dynamic-fee
transaction `gas * gasFeeCap + value`; the upfront cost is then taken. -/
def subGasLimitPrice : Except TransitionError Transition :=
  let upfrontGasCost := msg.gas * msg.getGasPrice t.ctx.baseFee
  let balanceCheck :=
    if msg.type = .dynamicFee then msg.gas * msg.gasFeeCap.getD 0 + msg.value.getD 0
    else upfrontGasCost
  if t.state.getBalance msg.«from» < balanceCheck then .error .insufficientFunds
  else
    match t.state.subBalance msg.«from» upfrontGasCost with
    | .error .notEnoughFunds => .error .notEnoughFundsForGas
    | .error e => .error (.runtime e)
    | .ok st => .ok (t.withState st)

def checkAndProcessTx : Except TransitionError Transition :=
  (t.nonceCheck msg).bind fun _ =>
    if t.ctx.nonPayable then .ok t
    else (t.checkDynamicFees msg).bind fun _ => t.subGasLimitPrice msg

/-- `checkSenderAccount` (EIP-3607): the sender has no code. -/
def checkSenderAccount : Bool :=
  let codeHash := t.state.getCodeHash msg.«from»
  !t.config.eip3607 || codeHash == 0 || codeHash == emptyCodeHash

end Transition

section Top

variable (run : Contract → Transition → ExecutionResult × Transition)
  (keccak256 : List UInt8 → List UInt8) (createAddress : Address → ℕ → Address)

namespace Transition

def create2 (t : Transition) (caller : Address) (code : List UInt8) (value : ℤ) (gas : ℕ) :
    ExecutionResult × Transition :=
  let address := createAddress caller (t.state.getNonce caller)
  t.applyCreate run keccak256 (newContractCall 1 caller caller address value gas code [])

def call2 (t : Transition) (caller «to» : Address) (input : List UInt8) (value : ℤ) (gas : ℕ) :
    ExecutionResult × Transition :=
  let (code, st) := t.state.getCode «to»
  (t.withState st).applyCall run (newContractCall 1 caller caller «to» value gas code input) .call

/-- The message itself: a creation, or the sender's nonce bump and a call. -/
def execute (t : Transition) (msg : Transaction) (value : ℤ) (gasLeft : ℕ) :
    EStateM.Result TransitionError Transition ExecutionResult :=
  match msg.«to» with
  | none =>
    let (result, t) := t.create2 run keccak256 createAddress msg.«from» msg.input value gasLeft
    .ok result t
  | some «to» =>
    match t.state.incrNonce msg.«from» with
    | (st, some e) => .error (.runtime e) (t.withState st)
    | (st, none) =>
      let (result, t) := (t.withState st).call2 run msg.«from» «to» msg.input value gasLeft
      .ok result t

/-- After the message: the refund cap, the unused gas back to the sender, the coinbase fee,
the burn and the gas back to the pool. -/
def settle (t : Transition) (msg : Transaction) (gasPrice : ℤ) (result : ExecutionResult) :
    ExecutionResult × Transition :=
  let refundQuotient := if t.config.london then 5 else 2
  let result := result.updateGasUsed msg.gas t.state.getRefund refundQuotient
  let st := t.state.addBalance msg.«from» (result.gasLeft * gasPrice)
  let effectiveTip :=
    if t.config.london then (msg.effectiveGasTip (some t.ctx.baseFee)).getD 0 else gasPrice
  let st := st.addBalance t.ctx.coinbase (result.gasUsed * effectiveTip)
  let st :=
    if t.isL1OriginatedToken ∧ t.config.london ∧ msg.type ≠ .state then
      st.addBalance t.ctx.burnContract (result.gasUsed * t.ctx.baseFee)
    else st
  (result, (t.withState st).addGasPool result.gasLeft)

def apply (t : Transition) (msg : Transaction) :
    EStateM.Result TransitionError Transition ExecutionResult :=
  let checked :=
    if msg.type = .state then (checkAndProcessStateTx msg).map fun _ => t
    else t.checkAndProcessTx msg
  match checked with
  | .error e => .error e t
  | .ok t =>
    match t.subGasPool msg.gas with
    | none => .error .blockLimitReached t
    | some t =>
      match transactionGasCost msg t.config.homestead t.config.istanbul with
      | .error e => .error e t
      | .ok intrinsicGasCost =>
        if msg.gas < intrinsicGasCost then .error .notEnoughIntrinsicGas t
        else
          let gasPrice := msg.getGasPrice t.ctx.baseFee
          let t := t.withTxContext msg gasPrice
          match t.execute run keccak256 createAddress msg (msg.value.getD 0)
              (msg.gas - intrinsicGasCost) with
          | .error e t => .error e t
          | .ok result t =>
            let (result, t) := t.settle msg gasPrice result
            .ok result t

/-- `Apply`: a failed `apply` is reverted to the snapshot taken before it. -/
def applyTx (t : Transition) (msg : Transaction) :
    EStateM.Result TransitionError Transition ExecutionResult :=
  if !t.checkSenderAccount msg then .error .senderNoEOA t
  else
    let (s, t) := t.snapshot
    match t.apply run keccak256 createAddress msg with
    | .ok result t => .ok result t
    | .error e t =>
      match t.revertToSnapshot s with
      | (t, some e') => .error (.runtime e') t
      | (t, none) => .error e t

section Write

variable (rlp : RlpOps) (ecrecover : List UInt8 → List UInt8 → Except String (List UInt8))

/-- `Write`: recover a missing sender, apply, and record the receipt; the self-destructed
accounts are deleted for the next transaction. -/
def write (t : Transition) (txn : Transaction) : EStateM.Result TransitionError Transition Unit :=
  let recovered : Except TransitionError Transaction :=
    if txn.«from» = 0 ∧ txn.type ≠ .state then
      let signer := newSigner t.config.toForksInTime (UInt64.ofNat (t.ctx.chainID % 2 ^ 64).toNat)
      match signer.sender rlp keccak256 ecrecover txn with
      | .error msg => .error (.signer msg)
      | .ok «from» => .ok (txn.setFrom «from»)
    else .ok txn
  match recovered with
  | .error e => .error e t
  | .ok txn =>
    match t.applyTx run keccak256 createAddress txn with
    | .error e t => .error e t
    | .ok result t =>
      let totalGas := t.totalGas + result.gasUsed
      let receipt : Receipt :=
        { cumulativeGasUsed := totalGas
          transactionType := txn.type
          gasUsed := result.gasUsed
          status := if result.failed then .failed else .success
          contractAddress := if txn.«to».isNone then some (createAddress txn.«from» txn.nonce)
            else none }
      let t := { t with totalGas := totalGas, receipts := t.receipts ++ [receipt] }
      .ok () (t.withState (t.state.cleanDeleteObjects true))

end Write

end Transition

end Top

/-! ## A dynamic-fee transaction with both caps zero -/

section ZeroCaps

variable {tx : DynamicFeeTx}

theorem getGasPrice_zeroCaps (hfee : tx.gasFeeCap = some 0) (htip : tx.gasTipCap = some 0)
    (baseFee : ℕ) : (Transaction.dynamicFeeTx tx).getGasPrice baseFee = 0 := by
  simp [Transaction.getGasPrice, Transaction.getGasPrice.eip1559Price, Transaction.gasPrice,
    Transaction.gasFeeCap, Transaction.gasTipCap, hfee, htip]

theorem effectiveGasTip_zeroCaps (hfee : tx.gasFeeCap = some 0) (htip : tx.gasTipCap = some 0)
    {baseFee : ℤ} (hb : 0 < baseFee) :
    (Transaction.dynamicFeeTx tx).effectiveGasTip (some baseFee) = some (-baseFee) := by
  simp [Transaction.effectiveGasTip, Transaction.getGasTipCap, Transaction.getGasFeeCap,
    Transaction.type, Transaction.gasFeeCap, Transaction.gasTipCap, hfee, htip, hb.ne', bigMin]
  omega

namespace Transition

variable {t : Transition}

theorem checkAndProcessTx_zeroCaps (hfee : tx.gasFeeCap = some 0) (htip : tx.gasTipCap = some 0)
    (hvalue : tx.value = some 0) (hnonce : t.state.getNonce tx.«from» = tx.nonce)
    (hmax : tx.nonce + 1 < 2 ^ 64) :
    t.checkAndProcessTx (.dynamicFeeTx tx) = .ok t := by
  have hn : t.nonceCheck (.dynamicFeeTx tx) = .ok () := by
    simp only [nonceCheck, Transaction.from, Transaction.nonce, Transaction.base, hnonce]
    rw [if_neg (lt_irrefl _), if_neg (lt_irrefl _), if_neg (by omega)]
  have hd : t.checkDynamicFees (.dynamicFeeTx tx) = .ok () := by
    simp [checkDynamicFees, Transaction.type, Transaction.gasFeeCap, Transaction.gasTipCap,
      hfee, htip]
  have hs : t.subGasLimitPrice (.dynamicFeeTx tx) = .ok t := by
    have hb := t.state.getBalance_nonneg (a := tx.«from»)
    simp [subGasLimitPrice, getGasPrice_zeroCaps hfee htip, Transaction.type,
      Transaction.gasFeeCap, Transaction.value, Transaction.base, hfee, hvalue, Txn.subBalance]
    omega
  unfold checkAndProcessTx
  rw [hn]
  split
  · rfl
  · rw [bind_ok, hd, bind_ok, hs]

theorem transactionGasCost_call {msg : Transaction} {«to» : Address} (hto : msg.«to» = some «to»)
    (hinput : msg.input = []) (hacc : msg.accessList = []) (isHomestead isIstanbul : Bool) :
    transactionGasCost msg isHomestead isIstanbul = .ok txGas := by
  simp only [Transaction.«to», Transaction.input] at hto hinput
  simp [transactionGasCost, Transaction.isContractCreation, hto, hinput, hacc, txGas, Except.map]

section Fresh

variable (run : Contract → Transition → ExecutionResult × Transition)

theorem call2_fresh {«to» : Address}
    (hrun : ∀ c t, c.address = «to» → c.code = [] → run c t = (⟨[], c.gas, 0, none, 0⟩, t))
    (hto : t.state.getStateObject «to» = none) (caller : Address) (gas : ℕ) :
    t.call2 run caller «to» [] 0 gas = (⟨[], gas, 0, none, 0⟩,
      t.snapshot.2.withState ((t.state.snapshot.2.touchAccount «to»).addBalance «to» 0)) := by
  simp only [call2, Txn.getCode_of_none hto, withState_state, applyCall, newContractCall]
  rw [if_neg (by omega)]
  simp only [if_true, state_withState, transfer_zero]
  rw [hrun _ _ rfl rfl]
  rfl

variable (keccak256 : List UInt8 → List UInt8) (createAddress : Address → ℕ → Address)

theorem apply_zeroCaps {«to» : Address}
    (hrun : ∀ c t, c.address = «to» → c.code = [] → run c t = (⟨[], c.gas, 0, none, 0⟩, t))
    (hfee : tx.gasFeeCap = some 0) (htip : tx.gasTipCap = some 0) (hvalue : tx.value = some 0)
    (hto : tx.«to» = some «to») (hinput : tx.input = [])
    (hacc : tx.accessList = []) (hnonce : t.state.getNonce tx.«from» = tx.nonce)
    (hmax : tx.nonce + 1 < 2 ^ 64) (hgas : txGas ≤ tx.gas) (hpool : tx.gas ≤ t.gasPool)
    (hfresh : t.state.getStateObject «to» = none) (hne : «to» ≠ tx.«from») :
    let t₂ : Transition :=
      ({ t with gasPool := t.gasPool - tx.gas } : Transition).withTxContext (.dynamicFeeTx tx) 0
    let t₃ := t₂.withState (t₂.state.incrNonce tx.«from»).1
    let t₄ := t₃.snapshot.2.withState ((t₃.state.snapshot.2.touchAccount «to»).addBalance «to» 0)
    let settled := t₄.settle (.dynamicFeeTx tx) 0 ⟨[], tx.gas - txGas, 0, none, 0⟩
    t.apply run keccak256 createAddress (.dynamicFeeTx tx) = .ok settled.1 settled.2 := by
  intro t₂ t₃ t₄
  obtain ⟨st₃, hst₃⟩ : ∃ st, t₂.state.incrNonce tx.«from» = (st, none) :=
    ⟨_, Txn.incrNonce_of_lt (by simpa [t₂, hnonce] using hmax)⟩
  have ht₃ : t₃ = t₂.withState st₃ := by simp [t₃, hst₃]
  have hfresh₃ : (t₂.withState st₃).state.getStateObject «to» = none := by
    have hst : st₃ = (t₂.state.incrNonce tx.«from»).1 := by rw [hst₃]
    rw [state_withState, hst, Txn.getStateObject_incrNonce_ne hne]
    exact hfresh
  have hcall := call2_fresh run hrun hfresh₃ tx.«from» (tx.gas - txGas)
  have hexec : t₂.execute run keccak256 createAddress (.dynamicFeeTx tx) 0 (tx.gas - txGas) =
      .ok ⟨[], tx.gas - txGas, 0, none, 0⟩ t₄ := by
    simp only [execute, Transaction.«to», Transaction.«from», Transaction.input, Transaction.base,
      hto, hinput, hst₃, hcall, t₄, ht₃]
  have hcost := @transactionGasCost_call (.dynamicFeeTx tx) _ hto hinput hacc
  simp only [apply, Transaction.type, reduceCtorEq, if_false,
    checkAndProcessTx_zeroCaps hfee htip hvalue hnonce hmax, subGasPool, Transaction.gas,
    Transaction.base, not_lt.2 hpool, hcost, not_lt.2 hgas, Transaction.value, hvalue,
    Option.getD_some, getGasPrice_zeroCaps hfee htip]
  rw [show (({ t with gasPool := t.gasPool - tx.gas } : Transition).withTxContext
    (.dynamicFeeTx tx) 0) = t₂ from rfl, hexec]

end Fresh

theorem settle_zeroCaps (hlondon : t.config.london = true) (hbase : 0 < t.ctx.baseFee)
    (hl1 : t.isL1OriginatedToken = false) (hfee : tx.gasFeeCap = some 0)
    (htip : tx.gasTipCap = some 0) (hrefund : t.state.getRefund = 0) (hgas : txGas ≤ tx.gas) :
    t.settle (.dynamicFeeTx tx) 0 ⟨[], tx.gas - txGas, 0, none, 0⟩ =
      (⟨[], tx.gas - txGas, txGas, none, 0⟩,
        (t.withState ((t.state.addBalance tx.«from» 0).addBalance t.ctx.coinbase
          (txGas * -(t.ctx.baseFee : ℤ)))).addGasPool (tx.gas - txGas)) := by
  have htip' := effectiveGasTip_zeroCaps hfee htip (Int.natCast_pos.2 hbase)
  have hused : tx.gas - (tx.gas - txGas) = txGas := by omega
  simp only [settle, hlondon, if_true, ExecutionResult.updateGasUsed, hrefund, Transaction.gas,
    Transaction.base, hused, htip', Option.getD_some, hl1, Bool.false_eq_true, false_and,
    if_false, mul_zero, Transaction.«from»]
  simp [txGas]

end Transition

theorem write_zeroCaps_coinbase_gains (run : Contract → Transition → ExecutionResult × Transition)
    (keccak256 : List UInt8 → List UInt8) (createAddress : Address → ℕ → Address) (rlp : RlpOps)
    (ecrecover : List UInt8 → List UInt8 → Except String (List UInt8))
    (t : Transition) (tx : DynamicFeeTx) («to» : Address)
    (hrun : ∀ c t, c.address = «to» → c.code = [] → run c t = (⟨[], c.gas, 0, none, 0⟩, t))
    (hlondon : t.config.london = true) (hbase : 0 < t.ctx.baseFee)
    (hl1 : t.isL1OriginatedToken = false)
    (hfee : tx.gasFeeCap = some 0) (htip : tx.gasTipCap = some 0) (hvalue : tx.value = some 0)
    (hto : tx.«to» = some «to») (hinput : tx.input = []) (hacc : tx.accessList = [])
    (hfrom : tx.«from» ≠ 0) (hsender : t.checkSenderAccount (.dynamicFeeTx tx) = true)
    (hnonce : t.state.getNonce tx.«from» = tx.nonce) (hmax : tx.nonce + 1 < 2 ^ 64)
    (hgas : txGas ≤ tx.gas) (hpool : tx.gas ≤ t.gasPool) (hrefund : t.state.getRefund = 0)
    (hfresh : t.state.getStateObject «to» = none) (hne : «to» ≠ tx.«from»)
    (hsuicide : t.state.hasSuicided tx.«from» = false)
    (hcoinbase : t.state.getStateObject t.ctx.coinbase = none)
    (hcf : t.ctx.coinbase ≠ tx.«from») (hct : t.ctx.coinbase ≠ «to») :
    ∃ t', t.write run keccak256 createAddress rlp ecrecover (.dynamicFeeTx tx) = .ok () t' ∧
      t'.state.getBalance tx.«from» = t.state.getBalance tx.«from» ∧
      t'.state.getBalance t.ctx.coinbase = txGas * t.ctx.baseFee ∧
      (t'.state.txn.objects t.ctx.coinbase).map (·.account.balance) =
        some (-((txGas : ℤ) * t.ctx.baseFee)) := by
  -- the transition the call leaves, before the settlement
  let t₂ : Transition := ({ t.snapshot.2 with gasPool := t.snapshot.2.gasPool - tx.gas } :
    Transition).withTxContext (.dynamicFeeTx tx) 0
  let t₃ := t₂.withState (t₂.state.incrNonce tx.«from»).1
  let t₄ := t₃.snapshot.2.withState ((t₃.state.snapshot.2.touchAccount «to»).addBalance «to» 0)
  have happly : t.snapshot.2.apply run keccak256 createAddress (.dynamicFeeTx tx) =
      .ok (t₄.settle (.dynamicFeeTx tx) 0 ⟨[], tx.gas - txGas, 0, none, 0⟩).1
        (t₄.settle (.dynamicFeeTx tx) 0 ⟨[], tx.gas - txGas, 0, none, 0⟩).2 :=
    Transition.apply_zeroCaps run keccak256 createAddress hrun hfee htip hvalue hto hinput hacc
      (by simpa using hnonce) hmax hgas (by simpa using hpool) (by simpa using hfresh) hne
  have hsettle := Transition.settle_zeroCaps (t := t₄) (by simpa [t₄, t₃, t₂] using hlondon)
    (by simpa [t₄, t₃, t₂] using hbase) (by simpa [t₄, t₃, t₂] using hl1) hfee htip
    (by simpa [t₄, t₃, t₂] using hrefund) hgas
  rw [hsettle] at happly
  simp only [Transition.write, Transaction.«from», Transaction.base, hfrom, false_and, if_false,
    Transition.applyTx, hsender, Bool.not_true, Bool.false_eq_true, happly]
  refine ⟨_, rfl, ?_⟩
  simp only [Transition.state_withState, Transition.addGasPool]
  -- the call wrote the sender and the recipient only
  have hst₄ : t₄.state = (((t.state.snapshot.2.incrNonce tx.«from»).1.snapshot.2.touchAccount
      «to»).addBalance «to» 0) := rfl
  have hcoinbase₄ : t₄.state.getStateObject t.ctx.coinbase = none := by
    rw [hst₄, Txn.getStateObject_addBalance_ne hct, Txn.getStateObject_touchAccount_ne hct,
      Txn.getStateObject_snapshot, Txn.getStateObject_incrNonce_ne hcf, Txn.getStateObject_snapshot]
    exact hcoinbase
  have hnonce₀ : t.state.getNonce tx.«from» + 1 < 2 ^ 64 := by omega
  have hsender₄ : t₄.state.getStateObject tx.«from» =
      (t.state.snapshot.2.incrNonce tx.«from»).1.getStateObject tx.«from» := by
    rw [hst₄, Txn.getStateObject_addBalance_ne hne.symm, Txn.getStateObject_touchAccount_ne hne.symm,
      Txn.getStateObject_snapshot]
  -- the coinbase: a new object credited a negative amount
  have hx : (txGas : ℤ) * -(t.ctx.baseFee : ℤ) ≠ 0 := by
    have : (0 : ℤ) < t.ctx.baseFee := by exact_mod_cast hbase
    simp [txGas]
    omega
  set st₄' := t₄.state.addBalance tx.«from» 0
  have hcoinbase₄' : st₄'.getStateObject t.ctx.coinbase = none := by
    rw [Txn.getStateObject_addBalance_ne hcf]
    exact hcoinbase₄
  have hobj := Txn.objects_addBalance_self (t := st₄') (a := t.ctx.coinbase)
    ((txGas : ℤ) * -(t.ctx.baseFee : ℤ))
  simp only [hcoinbase₄', Txn.getBalance, zero_add] at hobj
  have hlive := Txn.getStateObject_addBalance_self (t := st₄') (a := t.ctx.coinbase)
    ((txGas : ℤ) * -(t.ctx.baseFee : ℤ))
  simp only [hcoinbase₄', Option.getD_none, Txn.getBalance, zero_add] at hlive
  have hempty : ∀ o : StateObject, o.account.balance ≠ 0 → o.empty = false := by
    intro o ho
    simp [StateObject.empty, ho]
  -- the call set the gas price and the origin of the context, not its coinbase or base fee
  have hcoinbase_ctx : t₄.ctx.coinbase = t.ctx.coinbase := rfl
  have hbaseFee_ctx : t₄.ctx.baseFee = t.ctx.baseFee := rfl
  rw [hcoinbase_ctx, hbaseFee_ctx]
  set st₅ := st₄'.addBalance t.ctx.coinbase ((txGas : ℤ) * -(t.ctx.baseFee : ℤ))
  refine ⟨?_, ?_, ?_⟩
  · -- the sender: nonce bumped, nothing paid, nothing refunded
    have hsender₅ : st₅.getStateObject tx.«from» = st₄'.getStateObject tx.«from» :=
      Txn.getStateObject_addBalance_ne hcf.symm _
    have hread := Txn.getStateObject_addBalance_self (t := t₄.state) (a := tx.«from») 0
    rw [hsender₄, Txn.getStateObject_incrNonce_self (by simpa using hnonce₀)] at hread
    rw [← hsender₅] at hread
    have hsuicide₀ := Txn.suicide_getD (t := t.state.snapshot.2) (a := tx.«from») hsuicide
    rw [Txn.getBalance_of_getStateObject (Txn.getStateObject_cleanDeleteObjects_of_live hread
      (by simpa using hsuicide₀) (by simp [StateObject.empty]) true)]
    rw [Txn.getBalance_of_getStateObject (hsender₄.trans (Txn.getStateObject_incrNonce_self
      (by simpa using hnonce₀))), add_zero, Txn.balance_getD, Txn.getBalance_snapshot]
    exact Int.natAbs_of_nonneg Txn.getBalance_nonneg
  · -- the coinbase reads the magnitude of the negative credit
    rw [Txn.getBalance_of_getStateObject (Txn.getStateObject_cleanDeleteObjects_of_live hlive rfl
      (hempty _ (by simpa using hx)) true)]
    simp [Int.natAbs_mul, txGas]
  · -- while the tree stores the credit itself
    rw [Txn.objects_cleanDeleteObjects_of_keep hobj rfl (hempty _ (by simpa using hx)) true]
    simp

/-- Base fee one, a sender with no code, a fresh recipient that is not a precompile, and a fresh
coinbase. -/
theorem write_zeroCaps_coinbase_gains_baseFeeOne :
    let snapshot : ReadSnapshot :=
      ⟨fun x => if x = 1 then some ⟨0, 0, emptyRootHash, emptyCodeHash.bytes⟩ else none, fun _ => [],
        fun _ _ _ => 0⟩
    let t : Transition := ⟨⟨⟨true, true, true, true, true⟩, true, true, true, true⟩,
      ⟨1, 1, 3, 0, false, 0, 0⟩, newTxn Lru.ops snapshot, 30000, none, none, none, none, none, none, [], [],
      AccessList.newAccessList, false, [], 0⟩
    let tx : DynamicFeeTx := ⟨⟨0, 21000, some 1000, some 0, [], none, none, none, 1⟩, some 0, some 0,
      some 1, []⟩
    let run : Contract → Transition → ExecutionResult × Transition :=
      fun c t => (⟨[], c.gas, 0, none, 0⟩, t)
    ∃ t', t.write run id (fun _ _ => 0) Rlp.ops (fun _ _ => .ok []) (.dynamicFeeTx tx) = .ok () t' ∧
      t'.state.getBalance 1 = t.state.getBalance 1 ∧
      t'.state.getBalance 3 = 21000 ∧
      (t'.state.txn.objects 3).map (·.account.balance) = some (-21000) := by
  intro snapshot t tx run
  have h := write_zeroCaps_coinbase_gains run id (fun _ _ => 0) Rlp.ops (fun _ _ => .ok []) t tx 1000
    (fun _ _ _ _ => rfl) rfl (by decide) rfl rfl rfl rfl rfl rfl rfl (by decide) (by decide)
    (by decide) (by decide) (by decide) (by decide) rfl (by decide) (by decide) (by decide)
    (by decide) (by decide) (by decide)
  exact h

end ZeroCaps

end Blade
