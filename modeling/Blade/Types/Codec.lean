import Blade.Types.RlpUnmarshal

/-!
The consensus RLP codec of transactions and blocks: the `unmarshalRLPFrom` of the four
transaction types (`legacy_tx.go`, `state_tx.go`, `access_list_tx.go`, `dynamic_fee_tx.go`),
the header's `MarshalRLPWith` and `unmarshalRLPFrom` and the block's `MarshalRLPWith`
(`rlp_marshal.go`, `rlp_unmarshal.go`). fastrlp is the parameter `rlp : RlpOps`; the round
trips hold for every library with the laws `RlpOps.Lawful`.

The cached hashes that `ComputeHash` writes after decoding are functions of the decoded fields
and are not modelled. `Header` is the full header of the `types` package, next to the
consensus view `Blade.Header` of the fields the block checks read.

Decoding gives back every field that the encoding writes. The sender is not among them for
three of the four types: a decoded legacy, access-list or dynamic-fee transaction has the zero
address as `From`, and only a state transaction carries its sender in the list.
-/

namespace Blade

open Lib Lib.Rlp

/-! ## fastrlp getters

The library's getters, their errors returned as the decoder's. -/

section Getters

variable (rlp : RlpOps)

def getUint64 (v : Item) : Except DecodeError UInt64 := (rlp.getUint64 v).mapError .msg

def getBigInt (v : Item) : Except DecodeError ℤ :=
  ((rlp.getBigInt v).map fun n => (n : ℤ)).mapError .msg

/-- `Value.GetHash(h[:])`: the thirty-two bytes into the hash. -/
def getHash (v : Item) : Except DecodeError Hash :=
  ((rlp.getHash v).map fun b => bytesToHash b.val).mapError .msg

def getBytesOfLength (v : Item) (n : ℕ) : Except DecodeError { b : List UInt8 // b.length = n } :=
  (rlp.getBytesOfLength v n).mapError .msg

end Getters

/-- An address field read with `Bytes()`, its error dropped: twenty bytes are an address,
anything else none (`to` of a contract creation, `from` of a state transaction). -/
def decodeAddress (v : Item) : Option Address :=
  match getBytes v with
  | .ok vv => if vv.length = 20 then some (bytesToAddress vv) else none
  | .error _ => none

/-! ## Transaction data -/

/-- `TxAccessList.UnmarshallRLPFrom` on one tuple; the source indexes the tuple's two
elements without checking that they are there. -/
def AccessTuple.unmarshalRLPFrom (v : Item) : Except DecodeError AccessTuple :=
  (getElems v).bind fun elems =>
    match elems with
    | [] => .error (.indexOutOfRange 0 0)
    | addressVV :: rest =>
      (getBytes addressVV).bind fun addressBytes =>
        match rest with
        | [] => .error (.indexOutOfRange 1 1)
        | storageKeysArrayVV :: _ =>
          (getElems storageKeysArrayVV).bind fun storageKeysElems =>
            (storageKeysElems.mapM fun k => (getBytes k).map bytesToHash).map fun keys =>
              ⟨bytesToAddress addressBytes, keys⟩

def accessListUnmarshalRLPFrom (v : Item) : Except DecodeError TxAccessList :=
  (getElems v).bind fun accessListVV => accessListVV.mapM AccessTuple.unmarshalRLPFrom

section Decoders

variable (rlp : RlpOps)

def LegacyTx.unmarshalRLPFrom (v : Item) : Except DecodeError LegacyTx :=
  (getElems v).bind fun values =>
    match values with
    | [nonce, gasPrice, gas, toVV, value, input, txV, txR, txS] => do
      let nonce ← getUint64 rlp nonce
      let gasPrice ← getBigInt rlp gasPrice
      let gas ← getUint64 rlp gas
      let value ← getBigInt rlp value
      let input ← getBytes input
      let txV ← getBigInt rlp txV
      let txR ← getBigInt rlp txR
      let txS ← getBigInt rlp txS
      pure {
        nonce := nonce.toNat, gas := gas.toNat, «to» := decodeAddress toVV, value := some value,
        input := input, v := some txV, r := some txR, s := some txS, «from» := 0,
        gasPrice := some gasPrice }
    | _ => .error (.msg ("legacy incorrect number of transaction elements, expected 9 but found " ++
        toString values.length))

def StateTx.unmarshalRLPFrom (v : Item) : Except DecodeError StateTx :=
  (getElems v).bind fun values =>
    match values with
    | [nonce, gasPrice, gas, toVV, value, input, txV, txR, txS, fromVV] => do
      let nonce ← getUint64 rlp nonce
      let gasPrice ← getBigInt rlp gasPrice
      let gas ← getUint64 rlp gas
      let value ← getBigInt rlp value
      let input ← getBytes input
      let txV ← getBigInt rlp txV
      let txR ← getBigInt rlp txR
      let txS ← getBigInt rlp txS
      pure {
        nonce := nonce.toNat, gas := gas.toNat, «to» := decodeAddress toVV, value := some value,
        input := input, v := some txV, r := some txR, s := some txS,
        -- the sender of a state transaction is a predefined address, so it is in the list
        «from» := (decodeAddress fromVV).getD 0, gasPrice := some gasPrice }
    | _ => .error (.msg ("incorrect number of transaction elements, expected 10 but found " ++
        toString values.length))

def AccessListTxn.unmarshalRLPFrom (v : Item) : Except DecodeError AccessListTxn :=
  (getElems v).bind fun values =>
    match values with
    | [chainID, nonce, gasPrice, gas, toVV, value, input, accessList, txV, txR, txS] => do
      let chainID ← getBigInt rlp chainID
      let nonce ← getUint64 rlp nonce
      let gasPrice ← getBigInt rlp gasPrice
      let gas ← getUint64 rlp gas
      let value ← getBigInt rlp value
      let input ← getBytes input
      let accessList ← accessListUnmarshalRLPFrom accessList
      let txV ← getBigInt rlp txV
      let txR ← getBigInt rlp txR
      let txS ← getBigInt rlp txS
      pure {
        nonce := nonce.toNat, gas := gas.toNat, «to» := decodeAddress toVV, value := some value,
        input := input, v := some txV, r := some txR, s := some txS, «from» := 0,
        gasPrice := some gasPrice, chainID := some chainID, accessList := accessList }
    | _ => .error (.msg ("incorrect number of transaction elements, expected 11 but found " ++
        toString values.length))

def DynamicFeeTx.unmarshalRLPFrom (v : Item) : Except DecodeError DynamicFeeTx :=
  (getElems v).bind fun values =>
    match values with
    | [chainID, nonce, gasTipCap, gasFeeCap, gas, toVV, value, input, accessList, txV, txR, txS] => do
      let chainID ← getBigInt rlp chainID
      let nonce ← getUint64 rlp nonce
      let gasTipCap ← getBigInt rlp gasTipCap
      let gasFeeCap ← getBigInt rlp gasFeeCap
      let gas ← getUint64 rlp gas
      let value ← getBigInt rlp value
      let input ← getBytes input
      let accessList ← accessListUnmarshalRLPFrom accessList
      let txV ← getBigInt rlp txV
      let txR ← getBigInt rlp txR
      let txS ← getBigInt rlp txS
      pure {
        nonce := nonce.toNat, gas := gas.toNat, «to» := decodeAddress toVV, value := some value,
        input := input, v := some txV, r := some txR, s := some txS, «from» := 0,
        gasTipCap := some gasTipCap, gasFeeCap := some gasFeeCap, chainID := some chainID,
        accessList := accessList }
    | _ => .error (.msg ("incorrect number of transaction elements, expected 12 but found " ++
        toString values.length))

namespace Transaction

/-- `NewTxWithType(txType)` followed by the inner data's `unmarshalRLPFrom`. -/
def unmarshalRLPFrom (txType : TxType) (v : Item) : Except DecodeError Transaction :=
  match txType with
  | .accessList => (AccessListTxn.unmarshalRLPFrom rlp v).map .accessListTx
  | .state => (StateTx.unmarshalRLPFrom rlp v).map .stateTx
  | .legacy => (LegacyTx.unmarshalRLPFrom rlp v).map .legacyTx
  | .dynamicFee => (DynamicFeeTx.unmarshalRLPFrom rlp v).map .dynamicFeeTx

def unmarshalRLP (input : List UInt8) : Except DecodeError Transaction :=
  transactionUnmarshalRLP rlp.parse (unmarshalRLPFrom rlp) input

/-- The list items of one transaction in a list: its type byte unless it is legacy, then
its RLP list. -/
def marshalItems (t : Transaction) : List Item :=
  (if t.type ≠ .legacy then [newCopyBytes [t.type.toByte]] else []) ++ [t.marshalRLPWith rlp]

end Transaction

def transactionsMarshalRLPWith (txs : List Transaction) : Item :=
  .list (txs.flatMap (Transaction.marshalItems rlp))

def transactionsDecode (input : List UInt8) : Except DecodeError (List Transaction) :=
  transactionsUnmarshalRLP rlp.parse (Transaction.unmarshalRLPFrom rlp) input

end Decoders

/-! ## Reading back what the arena wrote -/

section Getters

@[simp] theorem getBytes_newCopyBytes (b : List UInt8) : getBytes (newCopyBytes b) = .ok b := rfl

@[simp] theorem bytesToAddress_bytes (a : Address) : bytesToAddress (Address.bytes a) = a := by
  have hw : (256 : ℕ) ^ 20 = 2 ^ 160 := by norm_num
  apply Fin.ext
  show ofBytesBE ((toBytesFixed 20 a.val).drop ((toBytesFixed 20 a.val).length - 20)) % 2 ^ 160
    = a.val
  rw [length_toBytesFixed, Nat.sub_self, List.drop_zero, ofBytesBE_toBytesFixed, hw, Nat.mod_mod,
    Nat.mod_eq_of_lt a.isLt]

@[simp] theorem decodeAddress_bytes (a : Address) :
    decodeAddress (newCopyBytes (Address.bytes a)) = some a := by
  have hlen : (Address.bytes a).length = 20 := length_toBytesFixed 20 a.val
  simp [decodeAddress, hlen]

@[simp] theorem decodeAddress_toItem (a : Option Address) : decodeAddress (toItem a) = a := by
  cases a with
  | none => rfl
  | some a => exact decodeAddress_bytes a

theorem accessTuple_unmarshalRLPFrom (t : AccessTuple) :
    AccessTuple.unmarshalRLPFrom (.list [newCopyBytes (Address.bytes t.address),
      .list (t.storageKeys.map fun k => newCopyBytes (Hash.bytes k))]) = .ok t := by
  have hkeys : (t.storageKeys.map fun k => newCopyBytes (Hash.bytes k)).mapM
      (fun k => (getBytes k).map bytesToHash) = .ok t.storageKeys :=
    mapM_map_eq_ok fun k _ => by simp [Except.map]
  simp only [AccessTuple.unmarshalRLPFrom, getElems, bind_ok, getBytes_newCopyBytes, hkeys,
    bytesToAddress_bytes]
  rfl

@[simp] theorem accessListUnmarshalRLPFrom_accessListItem (al : TxAccessList) :
    accessListUnmarshalRLPFrom (accessListItem al) = .ok al := by
  simp only [accessListUnmarshalRLPFrom, accessListItem, getElems, bind_ok]
  exact mapM_map_eq_ok fun t _ => accessTuple_unmarshalRLPFrom t

end Getters

/-! The getters of a lawful library read back what its constructors wrote. -/

section LawfulGetters

variable {rlp : RlpOps} (hrlp : rlp.Lawful)
include hrlp

theorem getUint64_newUint {n : ℕ} (h : n < 2 ^ 64) :
    getUint64 rlp (rlp.newUint n) = .ok (UInt64.ofNat n) := by
  simp [getUint64, hrlp.getUint64_newUint h]

theorem getUint64_newUint_toNat (n : UInt64) : getUint64 rlp (rlp.newUint n.toNat) = .ok n := by
  simp [getUint64, hrlp.getUint64_newUint_toNat]

theorem getBigInt_newBigInt {x : ℤ} (h : 0 ≤ x) : getBigInt rlp (rlp.newBigInt (some x)) = .ok x := by
  simp [getBigInt, hrlp.getBigInt_newBigInt, abs_of_nonneg h]

theorem getBytesOfLength_newCopyBytes {n : ℕ} (b : { b : List UInt8 // b.length = n }) :
    getBytesOfLength rlp (newCopyBytes b.val) n = .ok b := by
  simp [getBytesOfLength, newCopyBytes, hrlp.getBytesOfLength_bytes]

theorem getHash_bytes (h : Hash) : getHash rlp (newCopyBytes (Hash.bytes h)) = .ok h := by
  have hb := hrlp.getHash_bytes ⟨Hash.bytes h, length_toBytesFixed 32 h.val⟩
  simp [getHash, newCopyBytes, hb]

end LawfulGetters

/-! ## Transactions -/

/-- A `*big.Int` field that the codec carries back: set, and not negative. -/
def isNatField : Option ℤ → Bool
  | some x => decide (0 ≤ x)
  | none => false

theorem isNatField_iff {x : Option ℤ} : isNatField x = true ↔ ∃ n, x = some n ∧ 0 ≤ n := by
  cases x <;> simp [isNatField]

/-- The fields of `BaseTx` that the round trip reads back: `uint64` nonce and gas, and set,
non-negative value and signature. -/
def BaseTx.encodable (b : BaseTx) : Bool :=
  decide (b.nonce < 2 ^ 64) && decide (b.gas < 2 ^ 64) && isNatField b.value && isNatField b.v &&
    isNatField b.r && isNatField b.s

namespace Transaction

def feeFieldsEncodable : Transaction → Bool
  | .legacyTx tx => isNatField tx.gasPrice
  | .stateTx tx => isNatField tx.gasPrice
  | .accessListTx tx => isNatField tx.gasPrice && isNatField tx.chainID
  | .dynamicFeeTx tx => isNatField tx.gasTipCap && isNatField tx.gasFeeCap && isNatField tx.chainID

def encodable (t : Transaction) : Bool := t.base.encodable && t.feeFieldsEncodable

/-- What decoding gives back of a transaction: all of it but the sender, which only a state
transaction encodes. -/
def encodedPart (t : Transaction) : Transaction := if t.type = .state then t else t.setFrom 0

theorem toNat_ofNat_of_lt {n : ℕ} (h : n < 2 ^ 64) : (UInt64.ofNat n).toNat = n := by
  rw [UInt64.toNat_ofNat', Nat.mod_eq_of_lt h]

@[simp] theorem type_encodedPart (t : Transaction) : t.encodedPart.type = t.type := by
  cases t <;> rfl

/-- The sender that decoding drops is not in the encoding, so the hash bytes are the same. -/
@[simp] theorem marshalRLPTo_encodedPart (rlp : RlpOps) (t : Transaction) :
    t.encodedPart.marshalRLPTo rlp = t.marshalRLPTo rlp := by
  cases t <;> rfl

theorem marshalRLPWith_list (rlp : RlpOps) (t : Transaction) :
    ∃ items, t.marshalRLPWith rlp = .list items := by
  cases t <;> exact ⟨_, rfl⟩

theorem toByte_le (tt : TxType) : tt.toByte.toNat ≤ 0x7f := by
  cases tt <;> decide

theorem paired_marshalItems (rlp : RlpOps) (t : Transaction) : Paired (t.marshalItems rlp) := by
  obtain ⟨items, hitems⟩ := marshalRLPWith_list rlp t
  unfold marshalItems
  rw [hitems]
  split
  · exact .typed .nil
  · exact .legacy .nil

section Lawful

variable {rlp : RlpOps} (hrlp : rlp.Lawful)
include hrlp

theorem unmarshalRLPFrom_marshalRLPWith {t : Transaction} (h : t.encodable = true) :
    unmarshalRLPFrom rlp t.type (t.marshalRLPWith rlp) = .ok t.encodedPart := by
  cases t with
  | legacyTx tx =>
    obtain ⟨⟨nonce, gas, dest, value, input, v, r, s, sender⟩, gasPrice⟩ := tx
    simp only [encodable, base, feeFieldsEncodable, BaseTx.encodable, Bool.and_eq_true,
      isNatField_iff] at h
    obtain ⟨⟨⟨⟨⟨⟨hn, hg⟩, ⟨value, rfl, hvalue⟩⟩, ⟨v, rfl, hv⟩⟩, ⟨r, rfl, hr⟩⟩, ⟨s, rfl, hs⟩⟩,
      ⟨gasPrice, rfl, hgp⟩⟩ := h
    have hn := of_decide_eq_true hn
    have hg := of_decide_eq_true hg
    simp [unmarshalRLPFrom, LegacyTx.unmarshalRLPFrom, marshalRLPWith, getElems, type,
      getUint64_newUint hrlp hn, getUint64_newUint hrlp hg, getBigInt_newBigInt hrlp hvalue,
      getBigInt_newBigInt hrlp hv, getBigInt_newBigInt hrlp hr, getBigInt_newBigInt hrlp hs,
      getBigInt_newBigInt hrlp hgp, toNat_ofNat_of_lt hn, toNat_ofNat_of_lt hg, encodedPart,
      setFrom]
  | stateTx tx =>
    obtain ⟨⟨nonce, gas, dest, value, input, v, r, s, sender⟩, gasPrice⟩ := tx
    simp only [encodable, base, feeFieldsEncodable, BaseTx.encodable, Bool.and_eq_true,
      isNatField_iff] at h
    obtain ⟨⟨⟨⟨⟨⟨hn, hg⟩, ⟨value, rfl, hvalue⟩⟩, ⟨v, rfl, hv⟩⟩, ⟨r, rfl, hr⟩⟩, ⟨s, rfl, hs⟩⟩,
      ⟨gasPrice, rfl, hgp⟩⟩ := h
    have hn := of_decide_eq_true hn
    have hg := of_decide_eq_true hg
    simp [unmarshalRLPFrom, StateTx.unmarshalRLPFrom, marshalRLPWith, getElems, type,
      getUint64_newUint hrlp hn, getUint64_newUint hrlp hg, getBigInt_newBigInt hrlp hvalue,
      getBigInt_newBigInt hrlp hv, getBigInt_newBigInt hrlp hr, getBigInt_newBigInt hrlp hs,
      getBigInt_newBigInt hrlp hgp, toNat_ofNat_of_lt hn, toNat_ofNat_of_lt hg, encodedPart]
  | accessListTx tx =>
    obtain ⟨⟨nonce, gas, dest, value, input, v, r, s, sender⟩, gasPrice, chainID, accessList⟩ := tx
    simp only [encodable, base, feeFieldsEncodable, BaseTx.encodable, Bool.and_eq_true,
      isNatField_iff] at h
    obtain ⟨⟨⟨⟨⟨⟨hn, hg⟩, ⟨value, rfl, hvalue⟩⟩, ⟨v, rfl, hv⟩⟩, ⟨r, rfl, hr⟩⟩, ⟨s, rfl, hs⟩⟩,
      ⟨gasPrice, rfl, hgp⟩, ⟨chainID, rfl, hc⟩⟩ := h
    have hn := of_decide_eq_true hn
    have hg := of_decide_eq_true hg
    simp [unmarshalRLPFrom, AccessListTxn.unmarshalRLPFrom, marshalRLPWith, getElems, type,
      getUint64_newUint hrlp hn, getUint64_newUint hrlp hg, getBigInt_newBigInt hrlp hvalue,
      getBigInt_newBigInt hrlp hv, getBigInt_newBigInt hrlp hr, getBigInt_newBigInt hrlp hs,
      getBigInt_newBigInt hrlp hgp, getBigInt_newBigInt hrlp hc, toNat_ofNat_of_lt hn,
      toNat_ofNat_of_lt hg, encodedPart, setFrom]
  | dynamicFeeTx tx =>
    obtain ⟨⟨nonce, gas, dest, value, input, v, r, s, sender⟩, gasTipCap, gasFeeCap, chainID,
      accessList⟩ := tx
    simp only [encodable, base, feeFieldsEncodable, BaseTx.encodable, Bool.and_eq_true,
      isNatField_iff] at h
    obtain ⟨⟨⟨⟨⟨⟨hn, hg⟩, ⟨value, rfl, hvalue⟩⟩, ⟨v, rfl, hv⟩⟩, ⟨r, rfl, hr⟩⟩, ⟨s, rfl, hs⟩⟩,
      ⟨⟨gasTipCap, rfl, htip⟩, ⟨gasFeeCap, rfl, hfee⟩⟩, ⟨chainID, rfl, hc⟩⟩ := h
    have hn := of_decide_eq_true hn
    have hg := of_decide_eq_true hg
    simp [unmarshalRLPFrom, DynamicFeeTx.unmarshalRLPFrom, marshalRLPWith, getElems, type,
      getUint64_newUint hrlp hn, getUint64_newUint hrlp hg, getBigInt_newBigInt hrlp hvalue,
      getBigInt_newBigInt hrlp hv, getBigInt_newBigInt hrlp hr, getBigInt_newBigInt hrlp hs,
      getBigInt_newBigInt hrlp htip, getBigInt_newBigInt hrlp hfee, getBigInt_newBigInt hrlp hc,
      toNat_ofNat_of_lt hn, toNat_ofNat_of_lt hg, encodedPart, setFrom]

theorem unmarshalRLP_typed_encode {tt : TxType} {items : List Item} {x : Transaction}
    (hlen : (rlp.marshalTo (.list items)).length < 2 ^ 64)
    (hbody : unmarshalRLPFrom rlp tt (.list items) = .ok x) :
    unmarshalRLP rlp ((if tt ≠ .legacy then [tt.toByte] else []) ++ rlp.marshalTo (.list items)) =
      .ok x := by
  have hdec := hrlp.parse_marshalTo _ hlen
  unfold unmarshalRLP transactionUnmarshalRLP
  by_cases hl : tt = .legacy
  · obtain ⟨p, rest, he, hp⟩ := hrlp.marshalTo_list items hlen
    rw [hl] at hbody
    rw [if_neg (not_not.2 hl), List.nil_append, he]
    rw [he] at hdec
    simp only [typedUnmarshalRLP, unmarshalRlp, hdec, hbody]
    rw [if_neg (by omega)]
  · simp only [if_pos hl, List.singleton_append, typedUnmarshalRLP, if_pos (toByte_le tt),
      txTypeFromByte_toByte, Except.mapError, bind_ok, unmarshalRlp, hdec, hbody]

theorem unmarshalRLP_marshalRLPTo {t : Transaction} (h : t.encodable = true)
    (hlen : (rlp.marshalTo (t.marshalRLPWith rlp)).length < 2 ^ 64) :
    unmarshalRLP rlp (t.marshalRLPTo rlp) = .ok t.encodedPart := by
  have hbody := unmarshalRLPFrom_marshalRLPWith hrlp h
  obtain ⟨items, hitems⟩ := marshalRLPWith_list rlp t
  rw [hitems] at hbody hlen
  unfold marshalRLPTo
  rw [hitems]
  exact unmarshalRLP_typed_encode hrlp hlen hbody

/-! ### Transaction lists -/

theorem unmarshalRLPFromLoop_marshalItems {t : Transaction} (h : t.encodable = true)
    (n i : ℕ) (acc : List Transaction) :
    unmarshalRLPFromLoop (appendDecoded (unmarshalRLPFrom rlp)) n i (t.marshalItems rlp) acc =
      .ok (acc ++ [t.encodedPart]) := by
  have hbody := unmarshalRLPFrom_marshalRLPWith hrlp h
  obtain ⟨items, hitems⟩ := marshalRLPWith_list rlp t
  rw [hitems] at hbody
  unfold marshalItems
  by_cases hl : t.type = .legacy
  · rw [hl] at hbody
    simp [hl, hitems, unmarshalRLPFromLoop, isTypeBytes, appendDecoded, hbody]
  · simp [hl, hitems, newCopyBytes, unmarshalRLPFromLoop, isTypeBytes, appendDecoded, hbody,
      TxType.unmarshalRLPFrom_bytes (txTypeFromByte_toByte t.type)]

theorem unmarshalRLPFromLoop_flatMap {txs : List Transaction}
    (h : ∀ t ∈ txs, t.encodable = true) (n i : ℕ) (acc : List Transaction) :
    unmarshalRLPFromLoop (appendDecoded (unmarshalRLPFrom rlp)) n i
      (txs.flatMap (marshalItems rlp)) acc = .ok (acc ++ txs.map encodedPart) := by
  induction txs generalizing i acc with
  | nil => simp [unmarshalRLPFromLoop]
  | cons t ts ih =>
    have ht : t.encodable = true := h t List.mem_cons_self
    have hts : ∀ u ∈ ts, u.encodable = true := fun u hu => h u (List.mem_cons_of_mem t hu)
    rw [List.flatMap_cons, unmarshalRLPFromLoop_append (paired_marshalItems rlp t),
      unmarshalRLPFromLoop_marshalItems hrlp ht, bind_ok, ih hts]
    simp

end Lawful

end Transaction

section Lawful

variable {rlp : RlpOps} (hrlp : rlp.Lawful)
include hrlp

theorem unmarshalRLPFrom_transactionsMarshalRLPWith {txs : List Transaction}
    (h : ∀ t ∈ txs, t.encodable = true) :
    unmarshalRLPFrom (appendDecoded (Transaction.unmarshalRLPFrom rlp))
      (transactionsMarshalRLPWith rlp txs) [] = .ok (txs.map Transaction.encodedPart) := by
  simp only [unmarshalRLPFrom, transactionsMarshalRLPWith, getElems, bind_ok,
    Transaction.unmarshalRLPFromLoop_flatMap hrlp h, List.nil_append]

theorem transactionsDecode_encode {txs : List Transaction} (h : ∀ t ∈ txs, t.encodable = true)
    (hlen : (rlp.marshalTo (transactionsMarshalRLPWith rlp txs)).length < 2 ^ 64) :
    transactionsDecode rlp (rlp.marshalTo (transactionsMarshalRLPWith rlp txs)) =
      .ok (txs.map Transaction.encodedPart) := by
  simp only [transactionsDecode, transactionsUnmarshalRLP, unmarshalRlp,
    hrlp.parse_marshalTo _ hlen, unmarshalRLPFrom_transactionsMarshalRLPWith hrlp h]

end Lawful

namespace Types

/-! ## Headers and blocks -/

abbrev Bloom := { b : List UInt8 // b.length = 256 }

abbrev Nonce := { b : List UInt8 // b.length = 8 }

/-- `SetNonce`: the eight big-endian bytes of a `uint64`. -/
def nonceOf (n : UInt64) : Nonce := ⟨toBytesFixed 8 n.toNat, length_toBytesFixed 8 n.toNat⟩

/-- `types.Header`, without the cached `Hash`. -/
structure Header where
  parentHash : Hash
  sha3Uncles : Hash
  miner : List UInt8
  stateRoot : Hash
  txRoot : Hash
  receiptsRoot : Hash
  logsBloom : Bloom
  difficulty : UInt64
  number : UInt64
  gasLimit : UInt64
  gasUsed : UInt64
  timestamp : UInt64
  extraData : List UInt8
  mixHash : Hash
  nonce : Nonce
  baseFee : UInt64
  deriving DecidableEq

section Codec

variable (rlp : RlpOps)

namespace Header

def marshalRLPWith (h : Header) : Item :=
  .list [newCopyBytes (Hash.bytes h.parentHash), newCopyBytes (Hash.bytes h.sha3Uncles),
    newCopyBytes h.miner, newCopyBytes (Hash.bytes h.stateRoot), newCopyBytes (Hash.bytes h.txRoot),
    newCopyBytes (Hash.bytes h.receiptsRoot), newCopyBytes h.logsBloom.val,
    rlp.newUint h.difficulty.toNat, rlp.newUint h.number.toNat, rlp.newUint h.gasLimit.toNat,
    rlp.newUint h.gasUsed.toNat, rlp.newUint h.timestamp.toNat, newCopyBytes h.extraData,
    newCopyBytes (Hash.bytes h.mixHash), newCopyBytes h.nonce.val, rlp.newUint h.baseFee.toNat]

/-- `(*Header).unmarshalRLPFrom`: fifteen fields, and the base fee when there is a sixteenth.
`GetHash(h.MixHash[:0])` fills the hash like the other `GetHash` calls, fastrlp writing into
the slice's capacity. -/
def unmarshalRLPFrom (v : Item) : Except DecodeError Header :=
  (getElems v).bind fun elems =>
    match elems with
    | e0 :: e1 :: e2 :: e3 :: e4 :: e5 :: e6 :: e7 :: e8 :: e9 :: e10 :: e11 :: e12 :: e13 :: e14 ::
        more => do
      let parentHash ← getHash rlp e0
      let sha3Uncles ← getHash rlp e1
      let miner ← getBytes e2
      let stateRoot ← getHash rlp e3
      let txRoot ← getHash rlp e4
      let receiptsRoot ← getHash rlp e5
      let logsBloom ← getBytesOfLength rlp e6 256
      let difficulty ← getUint64 rlp e7
      let number ← getUint64 rlp e8
      let gasLimit ← getUint64 rlp e9
      let gasUsed ← getUint64 rlp e10
      let timestamp ← getUint64 rlp e11
      let extraData ← getBytes e12
      let mixHash ← getHash rlp e13
      let nonce ← getUint64 rlp e14
      -- in order to be backward compatible, the base fee is read only when it is there
      let baseFee ← match more with
        | e15 :: _ => getUint64 rlp e15
        | [] => pure 0
      pure {
        parentHash := parentHash, sha3Uncles := sha3Uncles, miner := miner,
        stateRoot := stateRoot, txRoot := txRoot, receiptsRoot := receiptsRoot,
        logsBloom := logsBloom, difficulty := difficulty, number := number, gasLimit := gasLimit,
        gasUsed := gasUsed, timestamp := timestamp, extraData := extraData, mixHash := mixHash,
        nonce := nonceOf nonce, baseFee := baseFee }
    | _ => .error (.msg ("incorrect number of elements to decode header, expected 15 but found " ++
        toString elems.length))

end Header

/-- `(*Block).MarshalRLPWith`: header, transactions and uncles; an empty list is written as
`NewNullArray`, the same bytes as an empty array. -/
def blockMarshalRLPWith (b : Block Header Transaction) : Item :=
  .list [b.header.marshalRLPWith rlp,
    if b.transactions = [] then .list [] else transactionsMarshalRLPWith rlp b.transactions,
    if b.uncles = [] then .list [] else .list (b.uncles.map (Header.marshalRLPWith rlp))]

def blockMarshalRLPTo (b : Block Header Transaction) : List UInt8 :=
  rlp.marshalTo (blockMarshalRLPWith rlp b)

def blockUnmarshalRLP (input : List UInt8) : Except DecodeError (Block Header Transaction) :=
  Block.unmarshalRLP rlp.parse (Header.unmarshalRLPFrom rlp) (Transaction.unmarshalRLPFrom rlp) input

end Codec

/-! ### Reading back a header and a block -/

theorem blockMarshalRLPWith_transactions (rlp : RlpOps) (txs : List Transaction) :
    (if txs = [] then .list [] else transactionsMarshalRLPWith rlp txs) =
      transactionsMarshalRLPWith rlp txs := by
  split <;> simp_all [transactionsMarshalRLPWith]

@[simp] theorem nonceOf_ofBytesBE (n : Nonce) : nonceOf (UInt64.ofNat (ofBytesBE n.val)) = n := by
  have hlt : ofBytesBE n.val < 2 ^ 64 := by
    simpa [n.property] using ofBytesBE_lt n.val
  apply Subtype.ext
  simp only [nonceOf, Transaction.toNat_ofNat_of_lt hlt]
  exact toBytesFixed_ofBytesBE n.property

section Lawful

variable {rlp : RlpOps} (hrlp : rlp.Lawful)
include hrlp

theorem getUint64_nonce (n : Nonce) :
    getUint64 rlp (newCopyBytes n.val) = .ok (UInt64.ofNat (ofBytesBE n.val)) := by
  simp [getUint64, newCopyBytes, hrlp.getUint64_bytes n.val (by rw [n.property])]

theorem Header.unmarshalRLPFrom_marshalRLPWith (h : Header) :
    Header.unmarshalRLPFrom rlp (h.marshalRLPWith rlp) = .ok h := by
  simp only [Header.unmarshalRLPFrom, Header.marshalRLPWith, getElems, bind_ok, ok_bind,
    getHash_bytes hrlp, getBytes_newCopyBytes, getBytesOfLength_newCopyBytes hrlp,
    getUint64_newUint_toNat hrlp, getUint64_nonce hrlp, nonceOf_ofBytesBE]
  rfl

theorem blockUnmarshalRLP_blockMarshalRLPTo {b : Block Header Transaction}
    (h : ∀ t ∈ b.transactions, t.encodable = true)
    (hlen : (blockMarshalRLPTo rlp b).length < 2 ^ 64) :
    blockUnmarshalRLP rlp (blockMarshalRLPTo rlp b) =
      .ok ⟨b.header, b.transactions.map Transaction.encodedPart, b.uncles⟩ := by
  have huncles : (b.uncles.map (Header.marshalRLPWith rlp)).mapM (Header.unmarshalRLPFrom rlp) =
      .ok b.uncles := mapM_map_eq_ok fun u _ => Header.unmarshalRLPFrom_marshalRLPWith hrlp u
  simp only [blockUnmarshalRLP, Block.unmarshalRLP, unmarshalRlp, blockMarshalRLPTo,
    hrlp.parse_marshalTo _ hlen]
  simp only [blockMarshalRLPWith, blockMarshalRLPWith_transactions rlp, ite_nil_list,
    Block.unmarshalRLPFrom, getElems, bind_ok, Header.unmarshalRLPFrom_marshalRLPWith hrlp,
    unmarshalRLPFrom_transactionsMarshalRLPWith hrlp h, huncles, map_ok]

end Lawful

/-- Encoding then decoding gives back a transaction, a transaction list and a block, each
transaction up to its sender, which only a state transaction encodes; the bytes that are
hashed are the same. The length bounds are those of Go slices. -/
theorem rlp_roundTrip_upToFrom (rlp : RlpOps) (hrlp : rlp.Lawful) :
    (∀ t : Transaction, t.encodable = true →
      (rlp.marshalTo (t.marshalRLPWith rlp)).length < 2 ^ 64 →
      Transaction.unmarshalRLP rlp (t.marshalRLPTo rlp) = .ok t.encodedPart ∧
        t.encodedPart.marshalRLPTo rlp = t.marshalRLPTo rlp) ∧
    (∀ txs : List Transaction, (∀ t ∈ txs, t.encodable = true) →
      (rlp.marshalTo (transactionsMarshalRLPWith rlp txs)).length < 2 ^ 64 →
      transactionsDecode rlp (rlp.marshalTo (transactionsMarshalRLPWith rlp txs)) =
        .ok (txs.map Transaction.encodedPart)) ∧
    (∀ b : Block Header Transaction, (∀ t ∈ b.transactions, t.encodable = true) →
      (blockMarshalRLPTo rlp b).length < 2 ^ 64 →
      blockUnmarshalRLP rlp (blockMarshalRLPTo rlp b) =
        .ok ⟨b.header, b.transactions.map Transaction.encodedPart, b.uncles⟩) := by
  refine ⟨?_, ?_, ?_⟩
  · intro t h hlen
    exact ⟨Transaction.unmarshalRLP_marshalRLPTo hrlp h hlen,
      Transaction.marshalRLPTo_encodedPart rlp t⟩
  · intro txs h hlen
    exact transactionsDecode_encode hrlp h hlen
  · intro b h hlen
    exact blockUnmarshalRLP_blockMarshalRLPTo hrlp h hlen

/-- A signed legacy transaction with a sender comes back with the zero sender, under the
library of `Lib.Rlp`. -/
theorem rlp_roundTrip_upToFrom_legacy :
    Transaction.unmarshalRLP Rlp.ops ((Transaction.legacyTx {
        nonce := 0, gas := 0, «to» := none, value := some 0, input := [], v := some 0,
        r := some 0, s := some 0, «from» := 1, gasPrice := some 0 }).marshalRLPTo Rlp.ops) =
      .ok (.legacyTx {
        nonce := 0, gas := 0, «to» := none, value := some 0, input := [], v := some 0,
        r := some 0, s := some 0, «from» := 0, gasPrice := some 0 }) :=
  ((rlp_roundTrip_upToFrom Rlp.ops Rlp.lawful_ops).1 _ (by decide) (by decide)).1

end Types

end Blade
