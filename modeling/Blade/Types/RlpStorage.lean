import Blade.Types.Codec

/-!
The store codec of `types/rlp_marshal_storage.go` and `types/rlp_unmarshal_storage.go`: a
body keeps each transaction as a list of its type byte (unless legacy), its consensus list and
its sender, and a receipt keeps its consensus list with the contract address, the gas used and
the transaction hash.

The sender is read back with `elems[1].GetAddr(t.From().Bytes())`. `From()` returns the
`Address` array by value and `Bytes()` slices that copy, so `GetAddr` checks the twenty bytes
and writes them into a temporary: the decoded transaction keeps the `From` that
`NewTxWithType` gave it. The decoder below checks the item and drops it, as the source does.
-/

namespace Blade

open Lib Lib.Rlp

section Store

variable (rlp : RlpOps)

/-- `Value.GetAddr(buf)`: the twenty bytes into the address. -/
def getAddr (v : Item) : Except DecodeError Address :=
  ((rlp.getAddr v).map fun b => bytesToAddress b.val).mapError .msg

namespace Transaction

def marshalStoreRLPWith (t : Transaction) : Item :=
  .list ((if t.type ≠ .legacy then [newCopyBytes [t.type.toByte]] else []) ++
    [t.marshalRLPWith rlp, newCopyBytes (Address.bytes t.«from»)])

/-- The consensus part and the context part of a stored transaction. The address that
`GetAddr` reads goes into a copy of the sender, so only its error reaches the result. -/
def unmarshalStoreParts (txType : TxType) (consensus context : Item) :
    Except DecodeError Transaction :=
  (unmarshalRLPFrom rlp txType consensus).bind fun t => (getAddr rlp context).map fun _ => t

/-- `(*Transaction).unmarshalStoreRLPFrom` on `NewTxWithType(txType)`. -/
def unmarshalStoreRLPFrom (txType : TxType) (v : Item) : Except DecodeError Transaction :=
  (getElems v).bind fun elems =>
    match elems with
    | [e0, e1, e2] =>
      (TxType.unmarshalRLPFrom e0).bind fun tType => unmarshalStoreParts rlp tType e1 e2
    | [e0, e1] => unmarshalStoreParts rlp txType e0 e1
    | _ => .error (.msg ("incorrect number of elements, expected 2 or 3 but found " ++
        toString elems.length))

end Transaction

end Store

section Lawful

variable {rlp : RlpOps} (hrlp : rlp.Lawful)
include hrlp

theorem getAddr_bytes (a : Address) : getAddr rlp (newCopyBytes (Address.bytes a)) = .ok a := by
  have hb := hrlp.getAddr_bytes ⟨Address.bytes a, length_toBytesFixed 20 a.val⟩
  simp [getAddr, newCopyBytes, hb]

theorem Transaction.unmarshalStoreRLPFrom_marshalStoreRLPWith {t : Transaction}
    (h : t.encodable = true) :
    unmarshalStoreRLPFrom rlp .legacy (t.marshalStoreRLPWith rlp) = .ok t.encodedPart := by
  have hparts : unmarshalStoreParts rlp t.type (t.marshalRLPWith rlp)
      (newCopyBytes (Address.bytes t.«from»)) = .ok t.encodedPart := by
    simp [unmarshalStoreParts, unmarshalRLPFrom_marshalRLPWith hrlp h, getAddr_bytes hrlp]
  unfold marshalStoreRLPWith unmarshalStoreRLPFrom
  by_cases hl : t.type = .legacy
  · rw [hl] at hparts
    simp only [hl, ne_eq, not_true_eq_false, if_false, List.nil_append, getElems, bind_ok]
    exact hparts
  · have htt := TxType.unmarshalRLPFrom_bytes (txTypeFromByte_toByte t.type)
    simp only [ne_eq, hl, not_false_eq_true, if_true, List.cons_append, List.nil_append, getElems,
      bind_ok]
    rw [show newCopyBytes [t.type.toByte] = .bytes [t.type.toByte] from rfl, htt, bind_ok, hparts]

end Lawful

theorem unmarshalRLPFromLoop_map_lists {α β : Type} {dec : TxType → Item → Except DecodeError β}
    {f : α → Item} {g : α → β} (hf : ∀ a, isTypeBytes (f a) = false) {xs : List α}
    (hdec : ∀ a ∈ xs, dec .legacy (f a) = .ok (g a)) (n i : ℕ) (acc : List β) :
    unmarshalRLPFromLoop (appendDecoded dec) n i (xs.map f) acc = .ok (acc ++ xs.map g) := by
  induction xs generalizing i acc with
  | nil => simp [unmarshalRLPFromLoop]
  | cons a as ih =>
    have ha := hdec a List.mem_cons_self
    have has : ∀ b ∈ as, dec .legacy (f b) = .ok (g b) := fun b hb =>
      hdec b (List.mem_cons_of_mem a hb)
    simp only [List.map_cons, unmarshalRLPFromLoop, hf, Bool.false_eq_true, if_false,
      appendDecoded, ha, map_ok, bind_ok, ih has]
    simp

namespace Types

/-! ## Bodies -/

structure Body where
  transactions : List Transaction
  uncles : List Header
  deriving DecidableEq

section Codec

variable (rlp : RlpOps)

namespace Body

/-- `(*Body).marshalRLPWith`; an empty list is written as `NewNullArray`. -/
def marshalRLPWith (b : Body) : Item :=
  .list [if b.transactions = [] then .list []
      else .list (b.transactions.map (Transaction.marshalStoreRLPWith rlp)),
    if b.uncles = [] then .list [] else .list (b.uncles.map (Header.marshalRLPWith rlp))]

def marshalRLPTo (b : Body) : List UInt8 := rlp.marshalTo (b.marshalRLPWith rlp)

/-- `(*Body).unmarshalRLPFrom`: each stored transaction is a list, so the list codec hands it
to `unmarshalStoreRLPFrom` as legacy and the stored type byte decides. -/
def unmarshalRLPFrom (v : Item) : Except DecodeError Body :=
  (getElems v).bind fun tuple =>
    match tuple with
    | t0 :: t1 :: _ =>
      (Blade.unmarshalRLPFrom (appendDecoded (Transaction.unmarshalStoreRLPFrom rlp)) t0 []).bind
        fun txs => (getElems t1).bind fun uncles =>
          (uncles.mapM (Header.unmarshalRLPFrom rlp)).map fun us => ⟨txs, us⟩
    | _ => .error (.msg ("incorrect number of elements to decode header, expected 2 but found " ++
        toString tuple.length))

def unmarshalRLP (input : List UInt8) : Except DecodeError Body :=
  unmarshalRlp rlp.parse (unmarshalRLPFrom rlp) input

end Body

namespace Header

def marshalRLPTo (h : Header) : List UInt8 := rlp.marshalTo (h.marshalRLPWith rlp)

def unmarshalRLP (input : List UInt8) : Except DecodeError Header :=
  unmarshalRlp rlp.parse (unmarshalRLPFrom rlp) input

end Header

end Codec

section Lawful

variable {rlp : RlpOps} (hrlp : rlp.Lawful)
include hrlp

theorem Body.unmarshalRLPFrom_marshalRLPWith {b : Body}
    (h : ∀ t ∈ b.transactions, t.encodable = true) :
    Body.unmarshalRLPFrom rlp (b.marshalRLPWith rlp) =
      .ok ⟨b.transactions.map Transaction.encodedPart, b.uncles⟩ := by
  have htxs := @unmarshalRLPFromLoop_map_lists _ _ (Transaction.unmarshalStoreRLPFrom rlp) _
    Transaction.encodedPart (fun _ => rfl) _
    (fun t ht => Transaction.unmarshalStoreRLPFrom_marshalStoreRLPWith hrlp (h t ht))
    (b.transactions.map (Transaction.marshalStoreRLPWith rlp)).length 0 []
  have huncles : (b.uncles.map (Header.marshalRLPWith rlp)).mapM (Header.unmarshalRLPFrom rlp) =
      .ok b.uncles := mapM_map_eq_ok fun u _ => Header.unmarshalRLPFrom_marshalRLPWith hrlp u
  simp only [Body.marshalRLPWith, Body.unmarshalRLPFrom, ite_nil_list, getElems, bind_ok,
    Blade.unmarshalRLPFrom, htxs, List.nil_append, huncles, map_ok]

theorem Body.unmarshalRLP_marshalRLPTo {b : Body} (h : ∀ t ∈ b.transactions, t.encodable = true)
    (hlen : (b.marshalRLPTo rlp).length < 2 ^ 64) :
    Body.unmarshalRLP rlp (b.marshalRLPTo rlp) =
      .ok ⟨b.transactions.map Transaction.encodedPart, b.uncles⟩ := by
  simp only [Body.unmarshalRLP, Body.marshalRLPTo, unmarshalRlp, hrlp.parse_marshalTo _ hlen,
    Body.unmarshalRLPFrom_marshalRLPWith hrlp h]

theorem Header.unmarshalRLP_marshalRLPTo {h : Header} (hlen : (h.marshalRLPTo rlp).length < 2 ^ 64) :
    Header.unmarshalRLP rlp (h.marshalRLPTo rlp) = .ok h := by
  simp only [Header.unmarshalRLP, Header.marshalRLPTo, unmarshalRlp, hrlp.parse_marshalTo _ hlen,
    Header.unmarshalRLPFrom_marshalRLPWith hrlp]

end Lawful

/-! ## Receipts -/

structure Log where
  address : Address
  topics : List Hash
  data : List UInt8
  deriving DecidableEq

/-- `types.Receipt`; `status` is the `*ReceiptStatus` pointer. -/
structure Receipt where
  root : Hash
  cumulativeGasUsed : UInt64
  logsBloom : Bloom
  logs : List Log
  status : Option UInt64
  gasUsed : UInt64
  contractAddress : Option Address
  txHash : Hash
  transactionType : TxType
  deriving DecidableEq

namespace Log

def marshalRLPWith (l : Log) : Item :=
  .list [newCopyBytes (Address.bytes l.address), .list (l.topics.map fun t => newCopyBytes (Hash.bytes t)),
    newCopyBytes l.data]

def unmarshalRLPFrom (rlp : RlpOps) (v : Item) : Except DecodeError Log :=
  (getElems v).bind fun elems =>
    match elems with
    | [addressVV, topicsVV, dataVV] => do
      let address ← getAddr rlp addressVV
      let topicElems ← getElems topicsVV
      let topics ← topicElems.mapM (getHash rlp)
      let data ← getBytes dataVV
      pure ⟨address, topics, data⟩
    | _ => .error (.msg ("incorrect number of elements to decode log, expected 3 but found " ++
        toString elems.length))

theorem unmarshalRLPFrom_marshalRLPWith {rlp : RlpOps} (hrlp : rlp.Lawful) (l : Log) :
    unmarshalRLPFrom rlp l.marshalRLPWith = .ok l := by
  have htopics : (l.topics.map fun t => newCopyBytes (Hash.bytes t)).mapM (getHash rlp) =
      .ok l.topics :=
    mapM_map_eq_ok fun t _ => getHash_bytes hrlp t
  simp only [unmarshalRLPFrom, marshalRLPWith, getElems, bind_ok, ok_bind, getAddr_bytes hrlp,
    htopics, getBytes_newCopyBytes]
  rfl

end Log

namespace Receipt

def new (txType : TxType) : Receipt :=
  ⟨0, 0, ⟨List.replicate 256 0, List.length_replicate⟩, [], none, 0, none, 0, txType⟩

@[simp] theorem new_root (tt : TxType) : (new tt).root = 0 := rfl
@[simp] theorem new_status (tt : TxType) : (new tt).status = none := rfl
@[simp] theorem new_logs (tt : TxType) : (new tt).logs = [] := rfl
@[simp] theorem new_contractAddress (tt : TxType) : (new tt).contractAddress = none := rfl
@[simp] theorem new_transactionType (tt : TxType) : (new tt).transactionType = tt := rfl

def marshalLogsWith (r : Receipt) : Item :=
  if r.logs = [] then .list [] else .list (r.logs.map Log.marshalRLPWith)

/-- The switch on the size of the first element in `(*Receipt).unmarshalRLPFrom`: thirty-two
bytes are the root, one byte the status, and anything else sets the status to `0`. -/
def setRootOrStatus (r : Receipt) (buf : List UInt8) : Receipt :=
  if buf.length = 32 then { r with root := bytesToHash buf }
  else if h : buf.length = 1 then { r with status := some (UInt64.ofNat buf[0].toNat) }
  else { r with status := some 0 }

section Codec

variable (rlp : RlpOps)

/-- The first element of `(*Receipt).MarshalRLPWith`: the status when it is set and the root
is zero (`Root` is an array, so `len(r.Root) == 0` never holds), the root otherwise. -/
def rootOrStatus (r : Receipt) : Item :=
  match r.status with
  | some s => if r.root = 0 then rlp.newUint s.toNat else newCopyBytes (Hash.bytes r.root)
  | none => newCopyBytes (Hash.bytes r.root)

def marshalRLPWith (r : Receipt) : Item :=
  .list [r.rootOrStatus rlp, rlp.newUint r.cumulativeGasUsed.toNat, newCopyBytes r.logsBloom.val,
    r.marshalLogsWith]

def unmarshalRLPFrom (r : Receipt) (v : Item) : Except DecodeError Receipt :=
  (getElems v).bind fun elems =>
    match elems with
    | [e0, e1, e2, e3] => do
      let buf ← getBytes e0
      let r := r.setRootOrStatus buf
      let cumulativeGasUsed ← getUint64 rlp e1
      let logsBloom ← getBytesOfLength rlp e2 256
      let logsElems ← getElems e3
      let logs ← logsElems.mapM (Log.unmarshalRLPFrom rlp)
      pure { r with
        cumulativeGasUsed := cumulativeGasUsed, logsBloom := logsBloom, logs := r.logs ++ logs }
    | _ => .error (.msg ("incorrect number of elements to decode receipt, expected 4 but found " ++
        toString elems.length))

def marshalStoreRLPWith (r : Receipt) : Item :=
  .list ((if r.transactionType ≠ .legacy then [newCopyBytes [r.transactionType.toByte]] else []) ++
    [r.marshalRLPWith rlp, toItem r.contractAddress, rlp.newUint r.gasUsed.toNat,
      newCopyBytes (Hash.bytes r.txHash)])

/-- The elements of a stored receipt after its type: the consensus list, the contract address
(set only when it has twenty bytes), the gas used, and the transaction hash when the list has
it. -/
def unmarshalStoreParts (r : Receipt) (consensus contract gasUsed : Item) (txHash : Option Item) :
    Except DecodeError Receipt := do
  let r ← r.unmarshalRLPFrom rlp consensus
  let vv ← getBytes contract
  let r := if vv.length = 20 then { r with contractAddress := some (bytesToAddress vv) } else r
  let gasUsed ← getUint64 rlp gasUsed
  let r := { r with gasUsed := gasUsed }
  match txHash with
  | some e => do
    let vv ← getBytes e
    pure { r with txHash := bytesToHash vv }
  -- old receipts did not marshal a tx hash
  | none => pure r

/-- `(*Receipt).unmarshalStoreRLPFrom`: five elements start with the type, four are read with
the tx hash, and from six on the hash is not read. -/
def unmarshalStoreRLPFrom (r : Receipt) (v : Item) : Except DecodeError Receipt :=
  (getElems v).bind fun elems =>
    match elems with
    | [e0, e1, e2, e3, e4] => (TxType.unmarshalRLPFrom e0).bind fun tt =>
      unmarshalStoreParts rlp { r with transactionType := tt } e1 e2 e3 (some e4)
    | [e0, e1, e2, e3] => unmarshalStoreParts rlp r e0 e1 e2 (some e3)
    | e0 :: e1 :: e2 :: _ :: _ :: _ :: _ => unmarshalStoreParts rlp r e0 e1 e2 none
    | _ => .error (.msg "expected at least 4 elements")

end Codec

/-- The receipts whose root-or-status element reads back as it was: no status, or a status
below `256` with a zero root. `Write` only makes receipts with status `0` or `1` and no root. -/
def statusEncodable (r : Receipt) : Bool :=
  match r.status with
  | none => true
  | some s => decide (r.root = 0) && decide (s.toNat < 256)

section Lawful

variable {rlp : RlpOps} (hrlp : rlp.Lawful)
include hrlp

theorem setRootOrStatus_rootOrStatus {r : Receipt} (h : r.statusEncodable = true) (tt : TxType) :
    ∃ buf, getBytes (r.rootOrStatus rlp) = .ok buf ∧
      (new tt).setRootOrStatus buf = { new tt with root := r.root, status := r.status } := by
  unfold rootOrStatus
  unfold statusEncodable at h
  cases hs : r.status with
  | none =>
    have hlen : (Hash.bytes r.root).length = 32 := length_toBytesFixed 32 r.root.val
    refine ⟨Hash.bytes r.root, rfl, ?_⟩
    simp [setRootOrStatus, hlen]
  | some s =>
    rw [hs] at h
    simp only [Bool.and_eq_true, decide_eq_true_eq] at h
    obtain ⟨hroot, hlt⟩ := h
    -- a status is written as its minimal big-endian bytes: none for `0`, one byte below `256`
    refine ⟨toBytesBE s.toNat, by simp [hroot, hrlp.newUint_eq, getBytes], ?_⟩
    by_cases hs0 : s.toNat = 0
    · have hs0' : s = 0 := UInt64.toNat_inj.mp hs0
      simp [setRootOrStatus, hs0', hroot]
    · have hbyte : (UInt8.ofNat s.toNat).toNat = s.toNat := by
        rw [UInt8.toNat_ofNat', Nat.mod_eq_of_lt hlt]
      simp [setRootOrStatus, toBytesBE_of_lt hs0 hlt, Nat.mod_eq_of_lt hlt, hroot]

theorem unmarshalRLPFrom_marshalRLPWith {r : Receipt} (h : r.statusEncodable = true) (tt : TxType) :
    (new tt).unmarshalRLPFrom rlp (r.marshalRLPWith rlp) = .ok { new tt with
      root := r.root, status := r.status, cumulativeGasUsed := r.cumulativeGasUsed,
      logsBloom := r.logsBloom, logs := r.logs } := by
  obtain ⟨buf, hbuf, hset⟩ := setRootOrStatus_rootOrStatus hrlp h tt
  have hlogs : (r.logs.map Log.marshalRLPWith).mapM (Log.unmarshalRLPFrom rlp) = .ok r.logs :=
    mapM_map_eq_ok fun l _ => Log.unmarshalRLPFrom_marshalRLPWith hrlp l
  simp only [unmarshalRLPFrom, marshalRLPWith, getElems, bind_ok, ok_bind, hbuf, hset,
    getUint64_newUint_toNat hrlp, getBytesOfLength_newCopyBytes hrlp, marshalLogsWith,
    ite_nil_list, hlogs]
  rfl

theorem unmarshalStoreParts_marshalStoreRLPWith {r : Receipt} (h : r.statusEncodable = true) :
    (new r.transactionType).unmarshalStoreParts rlp (r.marshalRLPWith rlp)
      (toItem r.contractAddress) (rlp.newUint r.gasUsed.toNat)
      (some (newCopyBytes (Hash.bytes r.txHash))) = .ok r := by
  have hcons := unmarshalRLPFrom_marshalRLPWith hrlp h r.transactionType
  have hgas := getUint64_newUint_toNat hrlp r.gasUsed
  obtain ⟨root, cgu, bloom, logs, status, gasUsed, contract, txHash, tt⟩ := r
  cases contract with
  | none =>
    simp_all [unmarshalStoreParts, toItem, newNull, getBytes, newCopyBytes]
  | some a =>
    have hlen : (Address.bytes a).length = 20 := length_toBytesFixed 20 a.val
    simp_all [unmarshalStoreParts, toItem, getBytes, newCopyBytes]

theorem unmarshalStoreRLPFrom_marshalStoreRLPWith {r : Receipt} (h : r.statusEncodable = true) :
    (new .legacy).unmarshalStoreRLPFrom rlp (r.marshalStoreRLPWith rlp) = .ok r := by
  have hparts := unmarshalStoreParts_marshalStoreRLPWith hrlp h
  unfold marshalStoreRLPWith unmarshalStoreRLPFrom
  by_cases hl : r.transactionType = .legacy
  · rw [hl] at hparts
    simp only [hl, ne_eq, not_true_eq_false, if_false, List.nil_append, getElems, bind_ok]
    exact hparts
  · have htt := TxType.unmarshalRLPFrom_bytes (txTypeFromByte_toByte r.transactionType)
    simp only [ne_eq, hl, not_false_eq_true, if_true, List.cons_append, List.nil_append, getElems,
      bind_ok]
    rw [show newCopyBytes [r.transactionType.toByte] = .bytes [r.transactionType.toByte] from rfl,
      htt, bind_ok]
    exact hparts

end Lawful

end Receipt

section Codec

variable (rlp : RlpOps)

def receiptsMarshalStoreRLPWith (rs : List Receipt) : Item :=
  .list (rs.map (Receipt.marshalStoreRLPWith rlp))

def receiptsMarshalStoreRLPTo (rs : List Receipt) : List UInt8 :=
  rlp.marshalTo (receiptsMarshalStoreRLPWith rlp rs)

/-- `(*Receipts).UnmarshalStoreRLP`: each element is decoded into `&Receipt{TransactionType:
txType}`. -/
def receiptsUnmarshalStoreRLP (input : List UInt8) : Except DecodeError (List Receipt) :=
  receiptsUnmarshalRLP rlp.parse (fun tt v => (Receipt.new tt).unmarshalStoreRLPFrom rlp v) input

end Codec

theorem receiptsUnmarshalStoreRLP_marshalStoreRLPTo {rlp : RlpOps} (hrlp : rlp.Lawful)
    {rs : List Receipt} (h : ∀ r ∈ rs, r.statusEncodable = true)
    (hlen : (receiptsMarshalStoreRLPTo rlp rs).length < 2 ^ 64) :
    receiptsUnmarshalStoreRLP rlp (receiptsMarshalStoreRLPTo rlp rs) = .ok rs := by
  have hwalk := @unmarshalRLPFromLoop_map_lists _ _
    (fun tt v => (Receipt.new tt).unmarshalStoreRLPFrom rlp v) (Receipt.marshalStoreRLPWith rlp) id
    (fun _ => rfl) _ (fun r hr => Receipt.unmarshalStoreRLPFrom_marshalStoreRLPWith hrlp (h r hr))
    (rs.map (Receipt.marshalStoreRLPWith rlp)).length 0 []
  unfold receiptsMarshalStoreRLPTo at hlen ⊢
  simp only [receiptsUnmarshalStoreRLP, receiptsUnmarshalRLP, unmarshalRlp,
    hrlp.parse_marshalTo _ hlen]
  simp only [receiptsMarshalStoreRLPWith, Blade.unmarshalRLPFrom, getElems, bind_ok, hwalk,
    List.nil_append, List.map_id]

end Types

/-! ## A type prefix at the end of a list

The list decoders of `rlp_unmarshal.go`, with the element decoders of this package. -/

theorem unmarshalRLP_trailing_type_panics {τ ρ η : Type} (parse : List UInt8 → Except String Item)
    (hparse : parse [0xc1, 0x02] = .ok (.list [.bytes [0x02]]))
    (unmarshalTx : TxType → Item → Except DecodeError τ)
    (unmarshalReceipt : TxType → Item → Except DecodeError ρ)
    (unmarshalHeader : Item → Except DecodeError η) (input : List UInt8) (hdr : Item) (header : η)
    (hblock : parse input = .ok (.list [hdr, .list [.bytes [0x02]], .list []]))
    (hheader : unmarshalHeader hdr = .ok header) :
    transactionsUnmarshalRLP parse unmarshalTx [0xc1, 0x02] = .error (.indexOutOfRange 1 1) ∧
    receiptsUnmarshalRLP parse unmarshalReceipt [0xc1, 0x02] = .error (.indexOutOfRange 1 1) ∧
    Block.unmarshalRLP parse unmarshalHeader unmarshalTx input =
      .error (.indexOutOfRange 1 1) := by
  -- `[0x02]` is a dynamic-fee type prefix with no body after it
  have hdang : ∀ {α : Type} (dec : TxType → Item → Except DecodeError α),
      unmarshalRLPFrom (appendDecoded dec) (.list [.bytes [0x02]]) [] =
        .error (.indexOutOfRange 1 1) :=
    fun _ => unmarshalRLPFrom_dangling Paired.nil rfl (txTypeFromByte_toByte .dynamicFee)
  refine ⟨?_, ?_, ?_⟩
  · simp only [transactionsUnmarshalRLP, unmarshalRlp, hparse]
    exact hdang unmarshalTx
  · simp only [receiptsUnmarshalRLP, unmarshalRlp, hparse]
    exact hdang unmarshalReceipt
  · simp only [Block.unmarshalRLP, unmarshalRlp, hblock, Block.unmarshalRLPFrom, getElems, bind_ok,
      hheader, hdang, bind_error]

/-- The two bytes `c1 02` under the transaction and receipt list decoders, and a block of a
fifteen-field header, that list and no uncles under the block decoder, with the library of
`Lib.Rlp`. -/
theorem unmarshalRLP_trailing_type_panics_decode :
    let hdr : Item := .list [.bytes (List.replicate 32 0), .bytes (List.replicate 32 0), .bytes [],
      .bytes (List.replicate 32 0), .bytes (List.replicate 32 0), .bytes (List.replicate 32 0),
      .bytes (List.replicate 256 0), .bytes [], .bytes [], .bytes [], .bytes [], .bytes [],
      .bytes [], .bytes (List.replicate 32 0), .bytes (List.replicate 8 0)]
    let input := Rlp.ops.marshalTo (.list [hdr, .list [.bytes [0x02]], .list []])
    transactionsUnmarshalRLP Rlp.ops.parse (Transaction.unmarshalRLPFrom Rlp.ops) [0xc1, 0x02] =
        .error (.indexOutOfRange 1 1) ∧
      receiptsUnmarshalRLP Rlp.ops.parse
          (fun tt v => (Types.Receipt.new tt).unmarshalRLPFrom Rlp.ops v) [0xc1, 0x02] =
        .error (.indexOutOfRange 1 1) ∧
      Block.unmarshalRLP Rlp.ops.parse (Types.Header.unmarshalRLPFrom Rlp.ops)
          (Transaction.unmarshalRLPFrom Rlp.ops) input =
        .error (.indexOutOfRange 1 1) := by
  intro hdr input
  have hheader : Types.Header.unmarshalRLPFrom Rlp.ops hdr = .ok ⟨0, 0, [], 0, 0, 0,
      ⟨List.replicate 256 0, List.length_replicate⟩, 0, 0, 0, 0, 0, [], 0, Types.nonceOf 0, 0⟩ := by
    decide +kernel
  exact unmarshalRLP_trailing_type_panics Rlp.ops.parse (by decide +kernel) _ _ _ input hdr _
    (Rlp.lawful_ops.parse_marshalTo _ (by decide +kernel)) hheader

end Blade
