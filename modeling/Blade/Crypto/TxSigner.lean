import Blade.Lib.Except
import Blade.Types.Transaction

/-!
Transaction signers (`crypto/txsigner*.go`). `NewSigner` picks the newest signer the forks
allow; each signer handles its own transaction type and hands the others to the signer it
embeds (London → Berlin → EIP-155 → Homestead → Frontier). Keccak-256 and secp256k1 public-key
recovery are parameters.

The typed signers hash their own `chainID` field into the preimage and only compare the
transaction's chain ID with it through `big.Int.Uint64()`, which keeps the low 64 bits of the
absolute value. A transaction whose chain ID differs from the signer's by a multiple of
`2 ^ 64` therefore has the preimage, and the sender, of the one with the signer's chain ID,
while its own encoding, and so its hash, carries the other number.
-/

namespace Blade

open Lib Lib.Rlp

def secp256k1N : ℤ := 0xfffffffffffffffffffffffffffffffebaaedce6af48a03bbfd25e8cd0364141

def secp256k1NHalf : ℤ := secp256k1N / 2

/-- `big.Int.Uint64()`: the low 64 bits of the absolute value. -/
def bigIntUint64 (x : ℤ) : UInt64 := UInt64.ofNat x.natAbs

def validateSignatureValues (v : ℤ) (r s : Option ℤ) (isHomestead : Bool) : Bool :=
  match r, s with
  | some r, some s =>
    if r < 1 ∨ s < 1 then false
    else if v < 0 ∨ v > 1 then false
    else if isHomestead then decide (r < secp256k1N ∧ s ≤ secp256k1NHalf)
    else decide (r < secp256k1N ∧ s < secp256k1N)
  | _, _ => false

section Signers

variable (rlp : RlpOps) (keccak256 : List UInt8 → List UInt8)
  (ecrecover : List UInt8 → List UInt8 → Except String (List UInt8))

/-- `encodeSignature`: `R` and `S` right-aligned in 32 bytes each, then the parity byte. -/
def encodeSignature (r s : Option ℤ) (parity : ℤ) (isHomestead : Bool) :
    Except String (List UInt8) :=
  if validateSignatureValues parity r s isHomestead then
    .ok (toBytesFixed 32 (r.getD 0).natAbs ++ toBytesFixed 32 (s.getD 0).natAbs ++
      [UInt8.ofNat parity.toNat])
  else .error "signature encoding failed, because transaction signature is invalid"

/-- `recoverAddress`: the last 20 bytes of the Keccak-256 hash of the uncompressed public
key without its `0x04` tag. -/
def recoverAddress (txHash : Hash) (r s : Option ℤ) (parity : ℤ) (isHomestead : Bool) :
    Except String Address :=
  (encodeSignature r s parity isHomestead).bind fun signature =>
    (ecrecover (Hash.bytes txHash) signature).bind fun publicKey =>
      match publicKey with
      | 4 :: key => .ok (bytesToAddress ((keccak256 key).drop 12))
      | _ => .error "invalid public key"

def invalidChainID (got : String) (want : UInt64) : String :=
  "invalid chain id for signer: have " ++ got ++ " want " ++ toString want.toNat

def validateTxChainID (tx : Transaction) (chainID : UInt64) : Except String Unit :=
  match tx.chainID with
  | some c => if bigIntUint64 c ≠ chainID then .error (invalidChainID (toString c) chainID)
      else .ok ()
  | none => .error (invalidChainID "<nil>" chainID)

/-! ## Hash preimages -/

def frontierHashPreimage (tx : Transaction) : List UInt8 :=
  rlp.marshalTo (.list [rlp.newUint tx.nonce, rlp.newBigInt tx.gasPrice, rlp.newUint tx.gas,
    toItem tx.«to», rlp.newBigInt tx.value, newCopyBytes tx.input])

def eip155HashPreimage (chainID : UInt64) (tx : Transaction) : List UInt8 :=
  rlp.marshalTo (.list [rlp.newUint tx.nonce, rlp.newBigInt tx.gasPrice, rlp.newUint tx.gas,
    toItem tx.«to», rlp.newBigInt tx.value, newCopyBytes tx.input, rlp.newUint chainID.toNat,
    rlp.newUint 0, rlp.newUint 0])

def berlinHashPreimage (chainID : UInt64) (tx : Transaction) : List UInt8 :=
  if tx.type ≠ .accessList then eip155HashPreimage rlp chainID tx
  else [tx.type.toByte] ++ rlp.marshalTo (.list [rlp.newUint chainID.toNat, rlp.newUint tx.nonce,
    rlp.newBigInt tx.gasPrice, rlp.newUint tx.gas, toItem tx.«to», rlp.newBigInt tx.value,
    newCopyBytes tx.input, accessListItem tx.accessList])

def londonHashPreimage (chainID : UInt64) (tx : Transaction) : List UInt8 :=
  if tx.type ≠ .dynamicFee then berlinHashPreimage rlp chainID tx
  else [tx.type.toByte] ++ rlp.marshalTo (.list [rlp.newUint chainID.toNat, rlp.newUint tx.nonce,
    rlp.newBigInt tx.gasTipCap, rlp.newBigInt tx.gasFeeCap, rlp.newUint tx.gas, toItem tx.«to»,
    rlp.newBigInt tx.value, newCopyBytes tx.input, accessListItem tx.accessList])

/-! ## Senders -/

def signatureUnknown : String := "failed to recover sender, because signature is unknown"

def errTxTypeNotSupported : String := "transaction type not supported"

def frontierSender (tx : Transaction) (isHomestead : Bool) : Except String Address :=
  if tx.type ≠ .legacy ∧ tx.type ≠ .state then .error errTxTypeNotSupported
  else
    match tx.rawSignatureValues with
    | (none, _, _) => .error signatureUnknown
    | (some v, r, s) =>
      recoverAddress keccak256 ecrecover (bytesToHash (keccak256 (frontierHashPreimage rlp tx))) r s
        (v - 27) isHomestead

/-- `EIP155Signer.Sender`: a `V` of 27 or 28 is unprotected and goes to the Homestead rule;
otherwise `V` is `2 * chainID + 35 + parity`. -/
def eip155Sender (chainID : UInt64) (tx : Transaction) : Except String Address :=
  if tx.type ≠ .legacy ∧ tx.type ≠ .state then .error errTxTypeNotSupported
  else
    match tx.rawSignatureValues with
    | (none, _, _) => .error signatureUnknown
    | (some v, r, s) =>
      let vv := v.natAbs % 2 ^ 64
      let isProtected := if vv < 2 ^ 8 then vv ≠ 27 ∧ vv ≠ 28 else True
      if ¬isProtected then frontierSender rlp keccak256 ecrecover tx true
      else
        (validateTxChainID tx chainID).bind fun _ =>
          recoverAddress keccak256 ecrecover
            (bytesToHash (keccak256 (eip155HashPreimage rlp chainID tx))) r s
            ((v.natAbs : ℤ) - 2 * chainID.toNat - 35) true

def berlinSender (chainID : UInt64) (tx : Transaction) : Except String Address :=
  if tx.type = .dynamicFee then .error errTxTypeNotSupported
  else if tx.type ≠ .accessList then eip155Sender rlp keccak256 ecrecover chainID tx
  else
    match tx.rawSignatureValues with
    | (none, _, _) => .error signatureUnknown
    | (some v, r, s) =>
      (validateTxChainID tx chainID).bind fun _ =>
        recoverAddress keccak256 ecrecover
          (bytesToHash (keccak256 (berlinHashPreimage rlp chainID tx))) r s v true

def londonSender (chainID : UInt64) (tx : Transaction) : Except String Address :=
  if tx.type ≠ .dynamicFee then berlinSender rlp keccak256 ecrecover chainID tx
  else
    match tx.rawSignatureValues with
    | (none, _, _) => .error signatureUnknown
    | (some v, r, s) =>
      (validateTxChainID tx chainID).bind fun _ =>
        recoverAddress keccak256 ecrecover
          (bytesToHash (keccak256 (londonHashPreimage rlp chainID tx))) r s v true

end Signers

inductive TxSigner
  | london (chainID : UInt64)
  | berlin (chainID : UInt64)
  | eip155 (chainID : UInt64)
  | homestead
  | frontier
  deriving DecidableEq, Repr

def newSigner (forks : ForksInTime) (chainID : UInt64) : TxSigner :=
  if forks.london then .london chainID
  else if forks.berlin then .berlin chainID
  else if forks.eip155 then .eip155 chainID
  else if forks.homestead then .homestead
  else .frontier

namespace TxSigner

variable (rlp : RlpOps)

/-- The bytes that the signer's `Hash` feeds to Keccak-256. -/
def hashPreimage : TxSigner → Transaction → List UInt8
  | .london c => londonHashPreimage rlp c
  | .berlin c => berlinHashPreimage rlp c
  | .eip155 c => eip155HashPreimage rlp c
  | .homestead => frontierHashPreimage rlp
  | .frontier => frontierHashPreimage rlp

def hash (keccak256 : List UInt8 → List UInt8) (signer : TxSigner) (tx : Transaction) : Hash :=
  bytesToHash (keccak256 (signer.hashPreimage rlp tx))

def sender (keccak256 : List UInt8 → List UInt8)
    (ecrecover : List UInt8 → List UInt8 → Except String (List UInt8)) :
    TxSigner → Transaction → Except String Address
  | .london c => londonSender rlp keccak256 ecrecover c
  | .berlin c => berlinSender rlp keccak256 ecrecover c
  | .eip155 c => eip155Sender rlp keccak256 ecrecover c
  | .homestead => fun tx => frontierSender rlp keccak256 ecrecover tx true
  | .frontier => fun tx => frontierSender rlp keccak256 ecrecover tx false

end TxSigner

/-! ## Chain IDs beyond 64 bits -/

section ChainID

variable {rlp : RlpOps} {keccak256 : List UInt8 → List UInt8}
  {ecrecover : List UInt8 → List UInt8 → Except String (List UInt8)}

theorem eip155HashPreimage_setChainID (c : UInt64) (t : Transaction) (id : Option ℤ) :
    eip155HashPreimage rlp c (t.setChainID id) = eip155HashPreimage rlp c t := by
  simp [eip155HashPreimage]

theorem berlinHashPreimage_setChainID (c : UInt64) (t : Transaction) (id : Option ℤ) :
    berlinHashPreimage rlp c (t.setChainID id) = berlinHashPreimage rlp c t := by
  simp [berlinHashPreimage, eip155HashPreimage_setChainID]

/-- The London preimage never reads the transaction's chain ID field: it writes the signer's. -/
theorem londonHashPreimage_setChainID (c : UInt64) (t : Transaction) (id : Option ℤ) :
    londonHashPreimage rlp c (t.setChainID id) = londonHashPreimage rlp c t := by
  simp [londonHashPreimage, berlinHashPreimage_setChainID]

/-- Validation compares only the low 64 bits, so it cannot tell such chain IDs apart. -/
theorem validateTxChainID_setChainID {t : Transaction}
    (ht : t.type = .accessList ∨ t.type = .dynamicFee) {x y : ℤ} (hx : t.chainID = some x)
    (hlow : bigIntUint64 y = bigIntUint64 x) {c : UInt64}
    (h : validateTxChainID t c = .ok ()) : validateTxChainID (t.setChainID (some y)) c = .ok () := by
  have hc : bigIntUint64 x = c := by
    simp only [validateTxChainID, hx] at h
    split at h
    · cases h
    · rename_i hne
      exact not_not.mp hne
  simp [validateTxChainID, Transaction.chainID_setChainID t (some y) ht, hlow, hc]

theorem berlinSender_setChainID {t : Transaction} (ht : t.type = .accessList) {x y : ℤ}
    (hx : t.chainID = some x) (hlow : bigIntUint64 y = bigIntUint64 x) {c : UInt64}
    {a : Address} (h : berlinSender rlp keccak256 ecrecover c t = .ok a) :
    berlinSender rlp keccak256 ecrecover c (t.setChainID (some y)) = .ok a := by
  simp only [berlinSender, ht, Transaction.type_setChainID, reduceCtorEq, ↓reduceIte, ne_eq,
    not_true_eq_false, Transaction.rawSignatureValues, Transaction.base_setChainID,
    berlinHashPreimage_setChainID] at h ⊢
  split at h
  · cases h
  · obtain ⟨u, hval, hrec⟩ := bind_eq_ok.mp h
    rw [validateTxChainID_setChainID (.inl ht) hx hlow hval, bind_ok]
    exact hrec

theorem londonSender_setChainID {t : Transaction} (ht : t.type = .dynamicFee) {x y : ℤ}
    (hx : t.chainID = some x) (hlow : bigIntUint64 y = bigIntUint64 x) {c : UInt64}
    {a : Address} (h : londonSender rlp keccak256 ecrecover c t = .ok a) :
    londonSender rlp keccak256 ecrecover c (t.setChainID (some y)) = .ok a := by
  simp only [londonSender, ht, Transaction.type_setChainID, ne_eq, not_true_eq_false,
    ↓reduceIte, Transaction.rawSignatureValues, Transaction.base_setChainID,
    londonHashPreimage_setChainID] at h ⊢
  split at h
  · cases h
  · obtain ⟨u, hval, hrec⟩ := bind_eq_ok.mp h
    rw [validateTxChainID_setChainID (.inr ht) hx hlow hval, bind_ok]
    exact hrec

theorem marshalRLPWith_setChainID_ne (hrlp : rlp.Lawful) {t : Transaction}
    (ht : t.type = .accessList ∨ t.type = .dynamicFee) {x y : ℤ} (hx : t.chainID = some x)
    (hxy : x.natAbs ≠ y.natAbs) :
    (t.setChainID (some y)).marshalRLPWith rlp ≠ t.marshalRLPWith rlp := by
  have hne := hrlp.newBigInt_ne (Ne.symm hxy)
  cases t <;> simp_all [Transaction.type, Transaction.setChainID, Transaction.chainID,
    Transaction.marshalRLPWith]

theorem newSigner_chainID_alias (rlp : RlpOps) (hrlp : rlp.Lawful)
    (keccak256 : List UInt8 → List UInt8)
    (ecrecover : List UInt8 → List UInt8 → Except String (List UInt8)) (forks : ForksInTime)
    (hlondon : forks.london = true) (chainID : UInt64) (tx : Transaction)
    (htype : tx.type = .accessList ∨ tx.type = .dynamicFee) (x y : ℤ) (hx : tx.chainID = some x)
    (hlow : bigIntUint64 y = bigIntUint64 x) :
    (tx.setChainID (some y)).rawSignatureValues = tx.rawSignatureValues ∧
    (newSigner forks chainID).hashPreimage rlp (tx.setChainID (some y)) =
      (newSigner forks chainID).hashPreimage rlp tx ∧
    (∀ a, (newSigner forks chainID).sender rlp keccak256 ecrecover tx = .ok a →
      (newSigner forks chainID).sender rlp keccak256 ecrecover (tx.setChainID (some y)) = .ok a) ∧
    (x.natAbs ≠ y.natAbs → (tx.setChainID (some y)).chainID ≠ tx.chainID ∧
      (tx.setChainID (some y)).marshalRLPWith rlp ≠ tx.marshalRLPWith rlp) := by
  have hsigner : newSigner forks chainID = .london chainID := by simp [newSigner, hlondon]
  rw [hsigner]
  refine ⟨by simp, londonHashPreimage_setChainID _ _ _, ?_, ?_⟩
  · intro a h
    simp only [TxSigner.sender] at h ⊢
    rcases htype with ht | ht
    · -- London hands access-list transactions to the Berlin signer
      have hberlin : ∀ t : Transaction, t.type = .accessList →
          londonSender rlp keccak256 ecrecover chainID t =
            berlinSender rlp keccak256 ecrecover chainID t := by
        intro t ht
        simp [londonSender, ht]
      rw [hberlin _ ht] at h
      rw [hberlin _ (by simpa using ht)]
      exact berlinSender_setChainID ht hx hlow h
    · exact londonSender_setChainID ht hx hlow h
  · intro hxy
    refine ⟨?_, marshalRLPWith_setChainID_ne hrlp htype hx hxy⟩
    rw [Transaction.chainID_setChainID _ _ htype, hx]
    intro he
    exact hxy (by rw [Option.some.inj he])

theorem newSigner_chainID_alias_london :
    let tx : Transaction := .dynamicFeeTx
      { nonce := 0, gas := 21000, «to» := none, value := some 0, input := [], v := some 0,
        r := some 1, s := some 1, «from» := 0, gasTipCap := some 1, gasFeeCap := some 1,
        chainID := some 1, accessList := [] }
    let forks : ForksInTime := ⟨true, true, true, true, true⟩
    let ecrecover : List UInt8 → List UInt8 → Except String (List UInt8) := fun _ _ => .ok [4]
    (newSigner forks 1).sender Rlp.ops id ecrecover tx = .ok 0 ∧
    (newSigner forks 1).sender Rlp.ops id ecrecover (tx.setChainID (some (1 + 2 ^ 64))) = .ok 0 ∧
    (newSigner forks 1).hashPreimage Rlp.ops (tx.setChainID (some (1 + 2 ^ 64))) =
      (newSigner forks 1).hashPreimage Rlp.ops tx ∧
    (tx.setChainID (some (1 + 2 ^ 64))).chainID ≠ tx.chainID := by
  intro tx forks ecrecover
  have h := newSigner_chainID_alias Rlp.ops Rlp.lawful_ops id ecrecover forks rfl 1 tx (.inr rfl) 1
    (1 + 2 ^ 64) rfl (by decide)
  have hsender : (newSigner forks 1).sender Rlp.ops id ecrecover tx = .ok 0 := by decide +kernel
  exact ⟨hsender, h.2.2.1 0 hsender, h.2.1, (h.2.2.2 (by decide)).1⟩

end ChainID

end Blade
