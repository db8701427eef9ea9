import Blade.Lib.Rlp
import Blade.ValidatorMetadata

/-!
Transactions (`types/transaction.go`, `base_tx.go`, `legacy_tx.go`, `state_tx.go`,
`access_list_tx.go`, `dynamic_fee_tx.go`). The `TxData` interface and its four
implementations become one inductive over four records that extend `BaseTx`; a nil
`*big.Int` is `none`. The cached `Hash` of `BaseTx` is left out: it is written by
`ComputeHash` and read by no modelled function.

The fee accessors follow the source: `GetGasTipCap` and `GetGasFeeCap` fall back on the gas
price for every type but the dynamic-fee one, and `GetGasPrice` derives an EIP-1559 price
only when the gas price is unset or zero.
-/

namespace Blade

open Lib Lib.Rlp

abbrev Hash := Fin (2 ^ 256)

/-! ## Fork configuration (`chain/params.go`) -/

/-- The forks of `chain.ForksInTime` that the modelled functions read. -/
structure ForksInTime where
  homestead : Bool
  london : Bool
  eip158 : Bool
  eip155 : Bool
  berlin : Bool
  deriving DecidableEq, Repr

/-! ## Transaction types -/

inductive TxType
  | legacy
  | accessList
  | dynamicFee
  | state
  deriving DecidableEq, Repr

def TxType.toByte : TxType → UInt8
  | .legacy => 0x0
  | .accessList => 0x01
  | .dynamicFee => 0x02
  | .state => 0x7f

def txTypeFromByte (b : UInt8) : Except String TxType :=
  match [TxType.legacy, .state, .dynamicFee, .accessList].find? (·.toByte == b) with
  | some tt => .ok tt
  | none => .error ("unknown transaction type: " ++ toString b.toNat)

@[simp] theorem txTypeFromByte_toByte (tt : TxType) : txTypeFromByte tt.toByte = .ok tt := by
  cases tt <;> rfl

theorem toByte_of_txTypeFromByte {b : UInt8} {tt : TxType} (h : txTypeFromByte b = .ok tt) :
    tt.toByte = b := by
  unfold txTypeFromByte at h
  split at h
  · rename_i tt' hfind
    obtain rfl : tt' = tt := by simpa using h
    simpa using List.find?_some hfind
  · cases h

/-! ## Transaction data -/

structure AccessTuple where
  address : Address
  storageKeys : List Hash
  deriving DecidableEq, Repr

abbrev TxAccessList := List AccessTuple

structure BaseTx where
  nonce : ℕ
  gas : ℕ
  «to» : Option Address
  value : Option ℤ
  input : List UInt8
  v : Option ℤ
  r : Option ℤ
  s : Option ℤ
  «from» : Address
  deriving DecidableEq, Repr

structure LegacyTx extends BaseTx where
  gasPrice : Option ℤ
  deriving DecidableEq, Repr

structure StateTx extends BaseTx where
  gasPrice : Option ℤ
  deriving DecidableEq, Repr

structure AccessListTxn extends BaseTx where
  gasPrice : Option ℤ
  chainID : Option ℤ
  accessList : TxAccessList
  deriving DecidableEq, Repr

structure DynamicFeeTx extends BaseTx where
  gasTipCap : Option ℤ
  gasFeeCap : Option ℤ
  chainID : Option ℤ
  accessList : TxAccessList
  deriving DecidableEq, Repr

/-- `Transaction` with its `Inner TxData`. -/
inductive Transaction
  | legacyTx (tx : LegacyTx)
  | stateTx (tx : StateTx)
  | accessListTx (tx : AccessListTxn)
  | dynamicFeeTx (tx : DynamicFeeTx)
  deriving DecidableEq, Repr

/-- `deriveChainID` on a non-nil `v`: the EIP-155 chain ID `(v - 35) / 2`, with the
`uint64` subtraction of the short branch wrapping, and `0` for the pre-EIP-155 values
27 and 28. -/
def deriveChainID (v : ℤ) : ℤ :=
  if v.natAbs < 2 ^ 64 then
    if v.natAbs = 27 ∨ v.natAbs = 28 then 0
    else (((v.natAbs + 2 ^ 64 - 35) % 2 ^ 64 / 2 : ℕ) : ℤ)
  else (v - 35) / 2

namespace Transaction

def base : Transaction → BaseTx
  | .legacyTx tx => tx.toBaseTx
  | .stateTx tx => tx.toBaseTx
  | .accessListTx tx => tx.toBaseTx
  | .dynamicFeeTx tx => tx.toBaseTx

def type : Transaction → TxType
  | .legacyTx _ => .legacy
  | .stateTx _ => .state
  | .accessListTx _ => .accessList
  | .dynamicFeeTx _ => .dynamicFee

/-- `ChainID()`. For the two legacy-style types the source dereferences `V`, which
panics when it is nil; the model answers `none` there. -/
def chainID : Transaction → Option ℤ
  | .legacyTx tx => tx.v.map deriveChainID
  | .stateTx tx => tx.v.map deriveChainID
  | .accessListTx tx => tx.chainID
  | .dynamicFeeTx tx => tx.chainID

def gasPrice : Transaction → Option ℤ
  | .legacyTx tx => tx.gasPrice
  | .stateTx tx => tx.gasPrice
  | .accessListTx tx => tx.gasPrice
  | .dynamicFeeTx _ => none

def gasTipCap : Transaction → Option ℤ
  | .legacyTx tx => tx.gasPrice
  | .stateTx tx => tx.gasPrice
  | .accessListTx tx => tx.gasPrice
  | .dynamicFeeTx tx => tx.gasTipCap

def gasFeeCap : Transaction → Option ℤ
  | .legacyTx tx => tx.gasPrice
  | .stateTx tx => tx.gasPrice
  | .accessListTx tx => tx.gasPrice
  | .dynamicFeeTx tx => tx.gasFeeCap

/-- `AccessList()`; the legacy-style types return a nil list, which every caller treats as
the empty one. -/
def accessList : Transaction → TxAccessList
  | .legacyTx _ => []
  | .stateTx _ => []
  | .accessListTx tx => tx.accessList
  | .dynamicFeeTx tx => tx.accessList

@[simp] def nonce (t : Transaction) : ℕ := t.base.nonce
@[simp] def gas (t : Transaction) : ℕ := t.base.gas
@[simp] def «to» (t : Transaction) : Option Address := t.base.«to»
@[simp] def value (t : Transaction) : Option ℤ := t.base.value
@[simp] def input (t : Transaction) : List UInt8 := t.base.input
@[simp] def «from» (t : Transaction) : Address := t.base.«from»
@[simp] def rawSignatureValues (t : Transaction) : Option ℤ × Option ℤ × Option ℤ :=
  (t.base.v, t.base.r, t.base.s)

def isContractCreation (t : Transaction) : Bool := t.«to».isNone

/-- `setChainID`; the legacy-style types derive their chain ID from `V` and ignore it. -/
def setChainID : Transaction → Option ℤ → Transaction
  | .legacyTx tx, _ => .legacyTx tx
  | .stateTx tx, _ => .stateTx tx
  | .accessListTx tx, id => .accessListTx { tx with chainID := id }
  | .dynamicFeeTx tx, id => .dynamicFeeTx { tx with chainID := id }

def setFrom : Transaction → Address → Transaction
  | .legacyTx tx, a => .legacyTx { tx with «from» := a }
  | .stateTx tx, a => .stateTx { tx with «from» := a }
  | .accessListTx tx, a => .accessListTx { tx with «from» := a }
  | .dynamicFeeTx tx, a => .dynamicFeeTx { tx with «from» := a }

section SetChainID

variable (t : Transaction) (id : Option ℤ)

@[simp] theorem type_setChainID : (t.setChainID id).type = t.type := by cases t <;> rfl
@[simp] theorem base_setChainID : (t.setChainID id).base = t.base := by cases t <;> rfl
@[simp] theorem gasPrice_setChainID : (t.setChainID id).gasPrice = t.gasPrice := by cases t <;> rfl
@[simp] theorem gasTipCap_setChainID : (t.setChainID id).gasTipCap = t.gasTipCap := by
  cases t <;> rfl
@[simp] theorem gasFeeCap_setChainID : (t.setChainID id).gasFeeCap = t.gasFeeCap := by
  cases t <;> rfl
@[simp] theorem accessList_setChainID : (t.setChainID id).accessList = t.accessList := by
  cases t <;> rfl

theorem chainID_setChainID (ht : t.type = .accessList ∨ t.type = .dynamicFee) :
    (t.setChainID id).chainID = id := by
  cases t <;> simp_all [type, setChainID, chainID]

end SetChainID

end Transaction

/-! ## Fee accessors -/

def bigMin (x y : ℤ) : ℤ := if x > y then y else x

namespace Transaction

def getGasTipCap (t : Transaction) : Option ℤ :=
  match t.type with
  | .dynamicFee => t.gasTipCap
  | _ => t.gasPrice

def getGasFeeCap (t : Transaction) : Option ℤ :=
  match t.type with
  | .dynamicFee => t.gasFeeCap
  | _ => t.gasPrice

/-- `GetGasPrice(baseFee)`: a set, non-zero gas price wins; otherwise, with a positive base
fee, `min(gasTipCap + baseFee, gasFeeCap)` when one of the caps is non-zero. -/
def getGasPrice (t : Transaction) (baseFee : ℕ) : ℤ :=
  match t.gasPrice with
  | some p => if p ≠ 0 then p else eip1559Price
  | none => eip1559Price
where
  eip1559Price : ℤ :=
    if baseFee = 0 then 0
    else
      let gasFeeCap := t.gasFeeCap.getD 0
      let gasTipCap := t.gasTipCap.getD 0
      if gasFeeCap ≠ 0 ∨ gasTipCap ≠ 0 then bigMin (gasTipCap + baseFee) gasFeeCap else 0

/-- `EffectiveGasTip(baseFee)`: the tip cap when the base fee is nil or zero, otherwise
`min(tipCap, feeCap - baseFee)`. `new(big.Int).Set` of a nil cap panics in the source; the
model reads a nil cap as zero there. -/
def effectiveGasTip (t : Transaction) (baseFee : Option ℤ) : Option ℤ :=
  match baseFee with
  | some b => if b ≠ 0 then some (bigMin (t.getGasTipCap.getD 0) (t.getGasFeeCap.getD 0 - b))
      else t.getGasTipCap
  | none => t.getGasTipCap

end Transaction

/-! ## RLP values of a transaction (`marshalRLPWith`)

The RLP library is a parameter `rlp`: its arena writes the integers, and a byte string or a
nil value is the item of its bytes. -/

def newNull : Item := .bytes []

def newCopyBytes (b : List UInt8) : Item := .bytes b

def Address.bytes (a : Address) : List UInt8 := toBytesFixed 20 a.val

def Hash.bytes (h : Hash) : List UInt8 := toBytesFixed 32 h.val

/-- `BytesToAddress`: the last twenty bytes, right-aligned. -/
def bytesToAddress (b : List UInt8) : Address :=
  ⟨ofBytesBE (b.drop (b.length - 20)) % 2 ^ 160, Nat.mod_lt _ (by positivity)⟩

/-- `BytesToHash`: the last thirty-two bytes, right-aligned. -/
def bytesToHash (b : List UInt8) : Hash :=
  ⟨ofBytesBE (b.drop (b.length - 32)) % 2 ^ 256, Nat.mod_lt _ (by positivity)⟩

@[simp] theorem bytesToHash_bytes (h : Hash) : bytesToHash h.bytes = h := by
  have hw : (256 : ℕ) ^ 32 = 2 ^ 256 := by norm_num
  have hlen : (toBytesFixed 32 h.val).length = 32 := length_toBytesFixed 32 h.val
  apply Fin.ext
  show ofBytesBE ((toBytesFixed 32 h.val).drop ((toBytesFixed 32 h.val).length - 32)) % 2 ^ 256
    = h.val
  rw [hlen, Nat.sub_self, List.drop_zero, ofBytesBE_toBytesFixed, hw, Nat.mod_mod,
    Nat.mod_eq_of_lt h.isLt]

def toItem (addr : Option Address) : Item :=
  match addr with
  | some a => newCopyBytes (Address.bytes a)
  | none => newNull

/-- `TxAccessList.MarshallRLPWith`. -/
def accessListItem (al : TxAccessList) : Item :=
  .list (al.map fun t => .list [newCopyBytes (Address.bytes t.address),
    .list (t.storageKeys.map fun k => newCopyBytes (Hash.bytes k))])

namespace Transaction

variable (rlp : RlpOps)

def marshalRLPWith : Transaction → Item
  | .legacyTx tx => .list [rlp.newUint tx.nonce, rlp.newBigInt tx.gasPrice, rlp.newUint tx.gas,
      toItem tx.«to», rlp.newBigInt tx.value, newCopyBytes tx.input, rlp.newBigInt tx.v,
      rlp.newBigInt tx.r, rlp.newBigInt tx.s]
  | .stateTx tx => .list [rlp.newUint tx.nonce, rlp.newBigInt tx.gasPrice, rlp.newUint tx.gas,
      toItem tx.«to», rlp.newBigInt tx.value, newCopyBytes tx.input, rlp.newBigInt tx.v,
      rlp.newBigInt tx.r, rlp.newBigInt tx.s, newCopyBytes (Address.bytes tx.«from»)]
  | .accessListTx tx => .list [rlp.newBigInt tx.chainID, rlp.newUint tx.nonce,
      rlp.newBigInt tx.gasPrice, rlp.newUint tx.gas, toItem tx.«to», rlp.newBigInt tx.value,
      newCopyBytes tx.input, accessListItem tx.accessList, rlp.newBigInt tx.v, rlp.newBigInt tx.r,
      rlp.newBigInt tx.s]
  | .dynamicFeeTx tx => .list [rlp.newBigInt tx.chainID, rlp.newUint tx.nonce,
      rlp.newBigInt tx.gasTipCap, rlp.newBigInt tx.gasFeeCap, rlp.newUint tx.gas, toItem tx.«to»,
      rlp.newBigInt tx.value, newCopyBytes tx.input, accessListItem tx.accessList,
      rlp.newBigInt tx.v, rlp.newBigInt tx.r, rlp.newBigInt tx.s]

/-- `MarshalRLPTo`: the EIP-2718 type byte for every type but legacy, then the RLP list.
`ComputeHash` hashes these bytes. -/
def marshalRLPTo (t : Transaction) : List UInt8 :=
  (if t.type ≠ .legacy then [t.type.toByte] else []) ++ rlp.marshalTo (t.marshalRLPWith rlp)

end Transaction

end Blade
