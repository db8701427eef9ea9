import Blade.State.Txn
import Blade.State.AccessList
import Blade.State.AddressList

/-!
The state transition of one transaction (`state/executor.go`). A `Transition` holds the
block's `Txn`, the fork configuration, the block context and the gas left in the block.
`apply` checks the sender and buys the gas, runs a creation or a call, and settles: the unused
gas back to the sender at the gas price, the used gas to the coinbase at the effective tip and,
for an L1-originated token under London, the base fee to the burn contract.

The interpreter (`Transition.run`: the address-list checks, the precompiles and the EVM) is a
parameter: a function of the contract and the transition, since it calls back into the host.
Failures of `apply` keep the state they leave, as the receiver of a Go method does;
`Apply` reverts it.
-/

namespace Blade

open Lib

/-- `chain.ForksInTime` as the executor reads it. -/
structure TransitionForks extends ForksInTime where
  istanbul : Bool
  eip3607 : Bool
  constantinople : Bool
  petersburg : Bool

def systemCaller : Address := ⟨0xfffffffffffffffffffffffffffffffffffffffe, by decide⟩

def stateTransactionGasLimit : ℕ := 1000000

def txGas : ℕ := 21000

def txGasContractCreation : ℕ := 53000

def txAccessListAddressGas : ℕ := 2400

def txAccessListStorageKeyGas : ℕ := 1900

def spuriousDragonMaxCodeSize : ℕ := 24576

def maxUint64 : ℕ := 2 ^ 64 - 1

inductive CallType
  | call
  | callCode
  | delegateCall
  | staticCall
  | create
  | create2
  deriving DecidableEq, Repr

structure Contract where
  code : List UInt8
  type : CallType
  codeAddress : Address
  address : Address
  origin : Address
  caller : Address
  depth : ℕ
  value : ℤ
  input : List UInt8
  gas : ℕ
  static : Bool

/-- `NewContractCall`; `NewContractCreation` is the same with no input. -/
def newContractCall (depth : ℕ) (origin «from» «to» : Address) (value : ℤ) (gas : ℕ)
    (code input : List UInt8) : Contract :=
  ⟨code, .call, «to», «to», origin, «from», depth, value, input, gas, false⟩

/-- `runtime.ExecutionResult` without the access list. -/
structure ExecutionResult where
  returnValue : List UInt8
  gasLeft : ℕ
  gasUsed : ℕ
  err : Option RuntimeError
  address : Address

namespace ExecutionResult

def failed (r : ExecutionResult) : Bool := r.err.isSome

def ofError (gasLeft : ℕ) (err : RuntimeError) : ExecutionResult := ⟨[], gasLeft, 0, some err, 0⟩

/-- `UpdateGasUsed`: the refund is capped at the used gas over the quotient. -/
def updateGasUsed (r : ExecutionResult) (gasLimit refund refundQuotient : ℕ) : ExecutionResult :=
  let gasUsed := gasLimit - r.gasLeft
  let refund := if refund > gasUsed / refundQuotient then gasUsed / refundQuotient else refund
  { r with gasLeft := r.gasLeft + refund, gasUsed := gasUsed - refund }

end ExecutionResult

/-- `runtime.TxContext` as the executor reads and writes it. -/
structure TxContext where
  chainID : ℤ
  baseFee : ℕ
  coinbase : Address
  burnContract : Address
  nonPayable : Bool
  gasPrice : Hash
  origin : Address

inductive ReceiptStatus
  | failed
  | success
  deriving DecidableEq, Repr

/-- The receipt fields `Write` fills in, without the logs and their bloom. -/
structure Receipt where
  cumulativeGasUsed : ℕ
  transactionType : TxType
  gasUsed : ℕ
  status : ReceiptStatus
  contractAddress : Option Address
  deriving DecidableEq, Repr

structure Transition where
  config : TransitionForks
  ctx : TxContext
  state : Txn
  gasPool : ℕ
  deploymentAllowList : Option AddressList
  deploymentBlockList : Option AddressList
  txnAllowList : Option AddressList
  txnBlockList : Option AddressList
  bridgeAllowList : Option AddressList
  bridgeBlockList : Option AddressList
  journal : List JournalEntry
  journalRevisions : List JournalRevision
  accessList : AccessList
  isL1OriginatedToken : Bool
  receipts : List Receipt
  totalGas : ℕ

namespace Transition

variable (t : Transition)

def withState (st : Txn) : Transition := { t with state := st }

def snapshot : ℕ × Transition :=
  let (id, st) := t.state.snapshot
  (id, { t with state := st, journalRevisions := t.journalRevisions ++ [⟨id, t.journal.length⟩] })

/-- `RevertToSnapshot`: the tree is restored first; the revision stack is then searched for
the snapshot (ids only grow, so the first one at least as large), the journal is replayed
down to the revision's index, and the stack is cut there. -/
def revertToSnapshot (snapshot : ℕ) : Transition × Option RuntimeError :=
  match t.state.revertToSnapshot snapshot with
  | .error e => (t, some e)
  | .ok st =>
    let idx := (t.journalRevisions.findIdx? (snapshot ≤ ·.id)).getD t.journalRevisions.length
    match t.journalRevisions[idx]? with
    | some r =>
      if r.id = snapshot then
        let (accessList, journal) := Journal.revert t.journal t.accessList r.index
        ({ t with state := st, journal, accessList, journalRevisions := t.journalRevisions.take idx },
          none)
      else ({ t with state := st }, some (.journalRevision snapshot))
    | none => ({ t with state := st }, some (.journalRevision snapshot))

def addSlotToAccessList (addr : Address) (slot : Hash) : Transition :=
  { t with journal := t.journal ++ [.accessListAddSlotChange addr slot],
           accessList := t.accessList.addSlot addr [slot] }

def addAddressToAccessList (addr : Address) : Transition :=
  { t with journal := t.journal ++ [.accessListAddAccountChange addr],
           accessList := t.accessList.addAddress [addr] }

def containsAccessListAddress (addr : Address) : Bool := t.accessList.containsAddress addr

def containsAccessListSlot (addr : Address) (slot : Hash) : Bool × Bool :=
  t.accessList.contains addr slot

def transfer («from» «to» : Address) (amount : ℤ) : Except RuntimeError Transition :=
  match t.state.subBalance «from» amount with
  | .error .notEnoughFunds => .error .insufficientBalance
  | .error e => .error e
  | .ok st => .ok (t.withState (st.addBalance «to» amount))

def hasCodeOrNonce (addr : Address) : Bool :=
  let codeHash := t.state.getCodeHash addr
  let storageRoot := t.state.getStorageRoot addr
  t.state.getNonce addr != 0 ||
    (codeHash != emptyCodeHash && codeHash != 0) ||
    (storageRoot != emptyRootHash && storageRoot != 0)

/-- Whether the deployment lists let `caller` create: the allow list takes precedence. -/
def deploymentAllowed (caller : Address) : Bool :=
  match t.deploymentAllowList, t.deploymentBlockList with
  | some allowed, _ => (allowed.getRole t.state caller).enabled
  | none, some blocked => blocked.getRole t.state caller != enabledRole
  | none, none => true

def subGasPool (amount : ℕ) : Option Transition :=
  if t.gasPool < amount then none else some { t with gasPool := t.gasPool - amount }

def addGasPool (amount : ℕ) : Transition := { t with gasPool := t.gasPool + amount }

end Transition

section Frames

-- the interpreter behind `Transition.run`
variable (run : Contract → Transition → ExecutionResult × Transition)

namespace Transition

/-- `applyCall`: a call frame. A failed run is reverted; a failed transfer is not, but it
has moved nothing. -/
def applyCall (t : Transition) (c : Contract) (callType : CallType) : ExecutionResult × Transition :=
  if c.depth > 1024 + 1 then (.ofError c.gas .depth, t)
  else
    let (snapshot, t) := t.snapshot
    let t := t.withState (t.state.touchAccount c.address)
    match (if callType = .call then t.transfer c.caller c.address c.value else .ok t) with
    | .error e => (.ofError c.gas e, t)
    | .ok t =>
      let (result, t) := run c t
      if result.failed then
        match t.revertToSnapshot snapshot with
        | (t, some e) => (.ofError c.gas e, t)
        | (t, none) => (result, t)
      else (result, t)

/-- What `applyCreate` does with a successful run: the code-size and `0xEF` checks, and the
code-store charge. -/
def storeCode (t : Transition) (c : Contract) (snapshot : ℕ) (result : ExecutionResult)
    (keccak256 : List UInt8 → List UInt8) : ExecutionResult × Transition :=
  if t.config.eip158 ∧ result.returnValue.length > spuriousDragonMaxCodeSize then
    match t.revertToSnapshot snapshot with
    | (t, some e) => (.ofError 0 e, t)
    | (t, none) => (.ofError 0 .maxCodeSizeExceeded, t)
  else if result.err = none ∧ result.returnValue.head? = some 0xEF ∧ t.config.london then
    match t.revertToSnapshot snapshot with
    | (t, some e) => (.ofError 0 e, t)
    | (t, none) => (.ofError 0 .invalidCode, t)
  else
    let gasCost := result.returnValue.length * 200
    if result.gasLeft < gasCost then
      let result := { result with err := some .codeStoreOutOfGas, returnValue := [] }
      if t.config.homestead then
        match t.revertToSnapshot snapshot with
        | (t, some e) => (.ofError 0 e, t)
        | (t, none) => ({ result with gasLeft := 0 }, t)
      else (result, t)
    else
      ({ result with gasLeft := result.gasLeft - gasCost, address := c.address },
        t.withState (t.state.setCode c.address keccak256 result.returnValue))

/-- `applyCreate`: a creation frame. The snapshot is taken after the caller's nonce is bumped
and the new address made warm, and before the new account is made; a failed transfer and a rejection by the deployment lists
return without reverting to it. -/
def applyCreate (keccak256 : List UInt8 → List UInt8) (t : Transition) (c : Contract) :
    ExecutionResult × Transition :=
  let gasLimit := c.gas
  if c.depth > 1024 + 1 then (.ofError gasLimit .depth, t)
  else
    match t.state.incrNonce c.caller with
    | (st, some e) => (.ofError gasLimit e, t.withState st)
    | (st, none) =>
      let t := t.withState st
      -- added before the snapshot, so that a failed creation keeps the address warm
      let t := if t.config.berlin then t.addAddressToAccessList c.address else t
      if t.hasCodeOrNonce c.address then (.ofError 0 .contractAddressCollision, t)
      else
        let (snapshot, t) := t.snapshot
        let created : Transition × Option RuntimeError :=
          if t.config.eip158 then
            let (st, err) := (t.state.createAccount c.address).incrNonce c.address
            (t.withState st, err)
          else (t, none)
        match created with
        | (t, some e) => (.ofError 0 e, t)
        | (t, none) =>
          match t.transfer c.caller c.address c.value with
          | .error e => (.ofError gasLimit e, t)
          | .ok t =>
            if !t.deploymentAllowed c.caller then (.ofError 0 .notAuth, t)
            else
              let (result, t) := run c t
              if result.failed then
                match t.revertToSnapshot snapshot with
                | (t, some e) => (.ofError 0 e, t)
                | (t, none) => (result, t)
              else t.storeCode c snapshot result keccak256

end Transition

end Frames

namespace Transition

variable {t : Transition}

@[simp] theorem state_withState (st : Txn) : (t.withState st).state = st := rfl
@[simp] theorem config_withState (st : Txn) : (t.withState st).config = t.config := rfl
@[simp] theorem ctx_withState (st : Txn) : (t.withState st).ctx = t.ctx := rfl
@[simp] theorem gasPool_withState (st : Txn) : (t.withState st).gasPool = t.gasPool := rfl
@[simp] theorem isL1OriginatedToken_withState (st : Txn) :
    (t.withState st).isL1OriginatedToken = t.isL1OriginatedToken := rfl
@[simp] theorem withState_state : t.withState t.state = t := rfl
@[simp] theorem state_addAddressToAccessList (a : Address) :
    (t.addAddressToAccessList a).state = t.state := rfl
@[simp] theorem config_addAddressToAccessList (a : Address) :
    (t.addAddressToAccessList a).config = t.config := rfl
@[simp] theorem state_addSlotToAccessList (a : Address) (k : Hash) :
    (t.addSlotToAccessList a k).state = t.state := rfl
@[simp] theorem state_ite_addAddressToAccessList (b : Bool) (a : Address) :
    (if b = true then t.addAddressToAccessList a else t).state = t.state := by
  split <;> rfl
@[simp] theorem config_ite_addAddressToAccessList (b : Bool) (a : Address) :
    (if b = true then t.addAddressToAccessList a else t).config = t.config := by
  split <;> rfl
@[simp] theorem state_snapshot : t.snapshot.2.state = t.state.snapshot.2 := rfl
@[simp] theorem config_snapshot : t.snapshot.2.config = t.config := rfl
@[simp] theorem ctx_snapshot : t.snapshot.2.ctx = t.ctx := rfl
@[simp] theorem gasPool_snapshot : t.snapshot.2.gasPool = t.gasPool := rfl
@[simp] theorem isL1OriginatedToken_snapshot :
    t.snapshot.2.isL1OriginatedToken = t.isL1OriginatedToken := rfl

theorem transfer_of_lt {«from» «to» : Address} {amount : ℤ}
    (h : t.state.getBalance «from» < amount) :
    t.transfer «from» «to» amount = .error .insufficientBalance := by
  have hb := t.state.getBalance_nonneg (a := «from»)
  unfold transfer Txn.subBalance
  rw [if_neg (by omega), if_pos h]

theorem transfer_zero («from» «to» : Address) :
    t.transfer «from» «to» 0 = .ok (t.withState (t.state.addBalance «to» 0)) := by
  simp [transfer, Txn.subBalance]

theorem hasCodeOrNonce_congr {t' : Transition} {a : Address}
    (h : t'.state.getStateObject a = t.state.getStateObject a) :
    t'.hasCodeOrNonce a = t.hasCodeOrNonce a := by
  simp [hasCodeOrNonce, Txn.getNonce, Txn.getCodeHash, Txn.getStorageRoot, h]

end Transition

section Create

variable (run : Contract → Transition → ExecutionResult × Transition)
  (keccak256 : List UInt8 → List UInt8) {t : Transition} {c : Contract}

/-- What a creation has written when it transfers the value: the caller's nonce bumped, the
address made warm under Berlin, the snapshot taken and, under EIP-158, the new account made
with its nonce bumped. -/
def Transition.createdState (t : Transition) (c : Contract) : Transition :=
  let t₀ := t.withState (t.state.incrNonce c.caller).1
  let t₁ := (if t₀.config.berlin then t₀.addAddressToAccessList c.address else t₀).snapshot.2
  t₁.withState ((t₁.state.createAccount c.address).incrNonce c.address).1

theorem Transition.getBalance_createdState_caller (hnonce : t.state.getNonce c.caller + 1 < 2 ^ 64)
    (hne : c.caller ≠ c.address) :
    (t.createdState c).state.getBalance c.caller = t.state.getBalance c.caller := by
  simp only [createdState, state_withState, state_snapshot, state_ite_addAddressToAccessList]
  rw [Txn.getBalance_congr (Txn.getStateObject_incrNonce_ne hne),
    Txn.getBalance_congr (Txn.getStateObject_createAccount_ne hne), Txn.getBalance_congr
    Txn.getStateObject_snapshot, Txn.getBalance_incrNonce_self hnonce]

theorem Transition.getNonce_createdState_address :
    (t.createdState c).state.getNonce c.address = 1 := by
  simp only [createdState, state_withState, state_snapshot, state_ite_addAddressToAccessList]
  have h₀ : (((t.state.incrNonce c.caller).1.snapshot.2).createAccount c.address).getNonce
      c.address = 0 := by
    rw [Txn.getNonce_of_getStateObject Txn.getStateObject_createAccount_self]
    rfl
  rw [Txn.getNonce_incrNonce_self (by omega), h₀]

theorem Transition.applyCreate_of_transfer_failure (hdepth : c.depth ≤ 1024 + 1)
    (heip158 : t.config.eip158 = true) (hnonce : t.state.getNonce c.caller + 1 < 2 ^ 64)
    (hne : c.caller ≠ c.address) (hfree : t.hasCodeOrNonce c.address = false)
    (hvalue : t.state.getBalance c.caller < c.value) :
    t.applyCreate run keccak256 c = (.ofError c.gas .insufficientBalance, t.createdState c) := by
  obtain ⟨st₁, hst₁⟩ : ∃ st, t.state.incrNonce c.caller = (st, none) :=
    ⟨_, Txn.incrNonce_of_lt hnonce⟩
  -- the transition once the caller's nonce is bumped and the address made warm
  set t₁ := if (t.withState st₁).config.berlin = true then
    (t.withState st₁).addAddressToAccessList c.address else t.withState st₁ with ht₁
  have hstate₁ : t₁.state = st₁ := by rw [ht₁, state_ite_addAddressToAccessList, state_withState]
  have hconfig₁ : t₁.config = t.config := by
    rw [ht₁, config_ite_addAddressToAccessList, config_withState]
  have hfree₁ : t₁.hasCodeOrNonce c.address = false := by
    have hst : st₁ = (t.state.incrNonce c.caller).1 := by rw [hst₁]
    rw [hasCodeOrNonce_congr (t := t) (by
      rw [hstate₁, hst]
      exact Txn.getStateObject_incrNonce_ne hne.symm)]
    exact hfree
  have hnew : (st₁.snapshot.2.createAccount c.address).getNonce c.address = 0 := by
    rw [Txn.getNonce_of_getStateObject Txn.getStateObject_createAccount_self]
    rfl
  obtain ⟨st₂, hst₂⟩ : ∃ st, (st₁.snapshot.2.createAccount c.address).incrNonce c.address =
      (st, none) := ⟨_, Txn.incrNonce_of_lt (by omega)⟩
  -- the state the transfer sees is the one the statement names
  have hcreated : t.createdState c = t₁.snapshot.2.withState st₂ := by
    unfold createdState
    rw [hst₁]
    dsimp only
    rw [← ht₁, state_snapshot, hstate₁, hst₂]
  have htransfer : (t₁.snapshot.2.withState st₂).transfer c.caller c.address
      c.value = .error .insufficientBalance := by
    rw [← hcreated]
    exact transfer_of_lt ((getBalance_createdState_caller hnonce hne).symm ▸ hvalue)
  rw [hcreated]
  simp only [applyCreate]
  rw [if_neg (by omega), hst₁]
  dsimp only
  rw [← ht₁]
  simp only [hfree₁, Bool.false_eq_true, if_false, config_snapshot, hconfig₁, heip158,
    if_true, state_snapshot, hstate₁, hst₂, htransfer]

theorem applyCreate_failed_transfer_keeps_account (t : Transition) (c : Contract)
    (hdepth : c.depth ≤ 1024 + 1) (heip158 : t.config.eip158 = true)
    (hnonce : t.state.getNonce c.caller + 1 < 2 ^ 64) (hne : c.caller ≠ c.address)
    (hfree : t.hasCodeOrNonce c.address = false)
    (hvalue : t.state.getBalance c.caller < c.value) :
    (t.applyCreate run keccak256 c).1.err = some .insufficientBalance ∧
    t.state.getNonce c.address = 0 ∧
    (t.applyCreate run keccak256 c).2.state.getNonce c.address = 1 ∧
    (t.applyCreate run keccak256 c).2.state.empty c.address = false := by
  rw [Transition.applyCreate_of_transfer_failure run keccak256 hdepth heip158 hnonce hne hfree hvalue]
  have hnew := Transition.getNonce_createdState_address (t := t) (c := c)
  refine ⟨rfl, ?_, hnew, ?_⟩
  · -- the collision check passed, so the address had no nonce
    simp only [Transition.hasCodeOrNonce, Bool.or_eq_false_iff, bne_eq_false_iff_eq] at hfree
    exact hfree.1.1
  · -- an account with a nonce is not empty
    unfold Txn.empty
    cases h : (t.createdState c).state.getStateObject c.address with
    | none => simp [Txn.getNonce, h] at hnew
    | some o =>
      rw [Txn.getNonce_of_getStateObject h] at hnew
      simp [StateObject.empty, hnew]

end Create

/-- A caller holding five, a value of ten, and an interpreter that never runs. -/
theorem applyCreate_failed_transfer_keeps_account_five :
    let snapshot : ReadSnapshot :=
      ⟨fun x => if x = 1 then some ⟨0, 5, emptyRootHash, emptyCodeHash.bytes⟩ else none,
        fun _ => [], fun _ _ _ => 0⟩
    let forks : TransitionForks := ⟨⟨true, true, true, true, true⟩, true, true, true, true⟩
    let t : Transition := ⟨forks, ⟨1, 0, 0, 0, false, 0, 0⟩, newTxn Lru.ops snapshot, 0, none, none, none, none,
      none, none, [], [], AccessList.newAccessList, false, [], 0⟩
    let c := newContractCall 1 1 1 2 10 100 [] []
    let run : Contract → Transition → ExecutionResult × Transition :=
      fun c t => (⟨[], c.gas, 0, none, 0⟩, t)
    (t.applyCreate run id c).1.err = some .insufficientBalance ∧
    t.state.getNonce c.address = 0 ∧
    (t.applyCreate run id c).2.state.getNonce c.address = 1 ∧
    (t.applyCreate run id c).2.state.empty c.address = false := by
  intro snapshot forks t c run
  exact applyCreate_failed_transfer_keeps_account run id t c (by decide) rfl (by decide)
    (by decide) (by decide) (by decide)

end Blade
