import Blade.Types.RlpStorage

/-!
The block store of `blockchain/storagev2`: tables of byte keys and values, written through a
`Writer` whose batch is applied in order by `WriteBatch`, and read by `Storage`. The two
databases the source keeps (main and lookup) hold disjoint tables, so one function from table
and key to value stands for both.

A cached header hash (`h.Hash`, which `ComputeHash` sets) is passed next to the header.
-/

open Blade.Lib Blade.Lib.Rlp Blade.Types

namespace Blade.Storage

inductive Table
  | body
  | canonical
  | difficulty
  | header
  | receipts
  | fork
  | headHash
  | headNumber
  | blockLookup
  | txLookup
  deriving DecidableEq, Repr

abbrev Db := Table → List UInt8 → Option (List UInt8)

def Db.put (db : Db) (t : Table) (k v : List UInt8) : Db :=
  fun t' k' => if t' = t ∧ k' = k then some v else db t' k'

@[simp] theorem Db.put_self (db : Db) (t : Table) (k v : List UInt8) : db.put t k v t k = some v := by
  simp [Db.put]

theorem Db.put_of_ne_table {db : Db} {t t' : Table} (h : t' ≠ t) (k k' v : List UInt8) :
    db.put t k v t' k' = db t' k' := by
  simp [Db.put, h]

@[simp] theorem Db.put_table_of_ne {db : Db} {t t' : Table} (h : t' ≠ t) (k v : List UInt8) :
    db.put t k v t' = db t' :=
  funext fun k' => Db.put_of_ne_table h k k' v

theorem Db.put_table_self (db : Db) (t : Table) (k v : List UInt8) :
    db.put t k v t = fun k' => if k' = k then some v else db t k' := by
  funext k'
  simp [Db.put]

theorem Db.put_of_ne_key {db : Db} {t : Table} {k k' : List UInt8} (h : k' ≠ k) (v : List UInt8) :
    db.put t k v t k' = db t k' := by
  simp [Db.put, h]

structure Writer where
  batch : List (Table × List UInt8 × List UInt8)

def Writer.empty : Writer := ⟨[]⟩

def encodeUint64ToBytes (n : UInt64) : List UInt8 := toBytesFixed 8 n.toNat

def encodeBytesToUint64 (b : List UInt8) : UInt64 := UInt64.ofNat (ofBytesBE b)

/-- `getKey`: the block number, then the block hash. -/
def getKey (n : UInt64) (h : Hash) : List UInt8 := encodeUint64ToBytes n ++ Hash.bytes h

@[simp] theorem length_encodeUint64ToBytes (n : UInt64) : (encodeUint64ToBytes n).length = 8 :=
  length_toBytesFixed 8 n.toNat

@[simp] theorem encodeBytesToUint64_encodeUint64ToBytes (n : UInt64) :
    encodeBytesToUint64 (encodeUint64ToBytes n) = n := by
  have hlt : n.toNat < 256 ^ 8 := n.toNat_lt
  rw [encodeBytesToUint64, encodeUint64ToBytes, ofBytesBE_toBytesFixed, Nat.mod_eq_of_lt hlt,
    UInt64.ofNat_toNat]

@[simp] theorem encodeUint64ToBytes_inj {a b : UInt64} :
    encodeUint64ToBytes a = encodeUint64ToBytes b ↔ a = b := by
  constructor
  · intro h
    rw [← encodeBytesToUint64_encodeUint64ToBytes a, h, encodeBytesToUint64_encodeUint64ToBytes]
  · rintro rfl
    rfl

theorem hash_bytes_inj {a b : Hash} (h : Hash.bytes a = Hash.bytes b) : a = b := by
  rw [← bytesToHash_bytes a, h, bytesToHash_bytes]

@[simp] theorem getKey_inj {a b : UInt64} {x y : Hash} : getKey a x = getKey b y ↔ a = b ∧ x = y := by
  constructor
  · intro h
    obtain ⟨hn, hh⟩ := List.append_inj h (by simp)
    exact ⟨encodeUint64ToBytes_inj.mp hn, hash_bytes_inj hh⟩
  · rintro ⟨rfl, rfl⟩
    rfl

def forkKey : List UInt8 := [48, 48, 48, 48, 48, 48, 48, 102]
def headHashKey : List UInt8 := [48, 48, 48, 48, 48, 48, 48, 104]
def headNumberKey : List UInt8 := [48, 48, 48, 48, 48, 48, 48, 110]

section Codec

variable (rlp : RlpOps)

/-- `Forks.MarshalRLPWith`: the hashes, an empty list written as `NewNullArray`. -/
def forksMarshalRLPTo (forks : List Hash) : List UInt8 :=
  rlp.marshalTo
    (if forks = [] then .list [] else .list (forks.map fun f => newCopyBytes (Hash.bytes f)))

def forksUnmarshalRLP (input : List UInt8) : Except DecodeError (List Hash) :=
  unmarshalRlp rlp.parse (fun v => (getElems v).bind fun elems => elems.mapM (getHash rlp)) input

end Codec

namespace Writer

variable (rlp : RlpOps) (w : Writer)

def putIntoTable (t : Table) (k data : List UInt8) : Writer := ⟨w.batch ++ [(t, k, data)]⟩

/-- `WriteBatch`: every put of the batch, in order. -/
def writeBatch (db : Db) : Db := w.batch.foldl (fun db e => db.put e.1 e.2.1 e.2.2) db

@[simp] theorem writeBatch_putIntoTable (db : Db) (t : Table) (k data : List UInt8) :
    (w.putIntoTable t k data).writeBatch db = (w.writeBatch db).put t k data := by
  simp [putIntoTable, writeBatch, List.foldl_append]

def putHeader (h : Types.Header) (hash : Hash) : Writer :=
  w.putIntoTable .header (getKey h.number hash) (h.marshalRLPTo rlp)

/-- `PutBody`: `Body` has no store marshaler of its own, so `putRlp` writes `MarshalRLPTo`,
which stores each transaction in the store format. -/
def putBody (bn : UInt64) (bh : Hash) (body : Body) : Writer :=
  w.putIntoTable .body (getKey bn bh) (body.marshalRLPTo rlp)

/-- `PutReceipts`: `Receipts` has a store marshaler, which `putRlp` prefers. -/
def putReceipts (bn : UInt64) (bh : Hash) (receipts : List Types.Receipt) : Writer :=
  w.putIntoTable .receipts (getKey bn bh) (receiptsMarshalStoreRLPTo rlp receipts)

def putHeadHash (h : Hash) : Writer := w.putIntoTable .headHash headHashKey (Hash.bytes h)

def putHeadNumber (bn : UInt64) : Writer :=
  w.putIntoTable .headNumber headNumberKey (encodeUint64ToBytes bn)

def putBlockLookup (hash : Hash) (bn : UInt64) : Writer :=
  w.putIntoTable .blockLookup (Hash.bytes hash) (encodeUint64ToBytes bn)

def putCanonicalHash (bn : UInt64) (hash : Hash) : Writer :=
  w.putIntoTable .canonical (encodeUint64ToBytes bn) (Hash.bytes hash)

/-- `PutTotalDifficulty`: `diff.Bytes()`, the big-endian bytes of the difficulty. -/
def putTotalDifficulty (bn : UInt64) (bh : Hash) (diff : ℕ) : Writer :=
  w.putIntoTable .difficulty (getKey bn bh) (toBytesBE diff)

def putForks (forks : List Hash) : Writer :=
  w.putIntoTable .fork forkKey (forksMarshalRLPTo rlp forks)

def putCanonicalHeader (h : Types.Header) (hash : Hash) (diff : ℕ) : Writer :=
  let w := w.putHeader rlp h hash
  let w := w.putHeadHash hash
  let w := w.putHeadNumber h.number
  let w := w.putBlockLookup hash h.number
  let w := w.putCanonicalHash h.number hash
  w.putTotalDifficulty h.number hash diff

end Writer

inductive Error
  | notFound
  | invalidData
  | decode (e : DecodeError)
  deriving DecidableEq, Repr

/-- `readRLP` with the decoder of the object it is given. -/
def readRLP {α : Type} (db : Db) (t : Table) (k : List UInt8)
    (unmarshal : List UInt8 → Except DecodeError α) : Except Error α :=
  match db t k with
  | none => .error .notFound
  | some data => (unmarshal data).mapError .decode

section Read

variable (rlp : RlpOps)

def readHeader (db : Db) (bn : UInt64) (bh : Hash) : Except Error Types.Header :=
  readRLP db .header (getKey bn bh) (Types.Header.unmarshalRLP rlp)

/-- `ReadBody`: the body, and the header, which the source reads to compute the transaction
hashes. -/
def readBody (db : Db) (bn : UInt64) (bh : Hash) : Except Error Body :=
  (readRLP db .body (getKey bn bh) (Body.unmarshalRLP rlp)).bind fun body =>
    (readHeader rlp db bn bh).map fun _ => body

def readReceipts (db : Db) (bn : UInt64) (bh : Hash) : Except Error (List Types.Receipt) :=
  readRLP db .receipts (getKey bn bh) (receiptsUnmarshalStoreRLP rlp)

def readForks (db : Db) : Except Error (List Hash) :=
  readRLP db .fork forkKey (forksUnmarshalRLP rlp)

end Read

def readCanonicalHash (db : Db) (n : UInt64) : Option Hash :=
  (db .canonical (encodeUint64ToBytes n)).map bytesToHash

/-- `ReadTotalDifficulty`: `SetBytes` of the stored bytes. -/
def readTotalDifficulty (db : Db) (bn : UInt64) (bh : Hash) : Option ℕ :=
  (db .difficulty (getKey bn bh)).map ofBytesBE

/-- `ReadBlockLookup`: eight bytes of block number under the hash. -/
def readBlockLookup (db : Db) (hash : Hash) : Except Error UInt64 :=
  match db .blockLookup (Hash.bytes hash) with
  | none => .error .notFound
  | some data => if data.length ≠ 8 then .error .invalidData else .ok (encodeBytesToUint64 data)


theorem readCanonicalHash_congr {db db' : Db} {n : UInt64}
    (h : db .canonical (encodeUint64ToBytes n) = db' .canonical (encodeUint64ToBytes n)) :
    readCanonicalHash db n = readCanonicalHash db' n := by
  simp [readCanonicalHash, h]

/-! ## Reading back what a writer stored -/

section Lawful

variable {rlp : RlpOps}

theorem readHeader_put_of_ne {db : Db} {t : Table} (h : t ≠ .header) (k v : List UInt8)
    (bn : UInt64) (bh : Hash) : readHeader rlp (db.put t k v) bn bh = readHeader rlp db bn bh := by
  simp [readHeader, readRLP, Db.put_of_ne_table h.symm]

variable (hrlp : rlp.Lawful)
include hrlp

theorem readHeader_putHeader {db : Db} (w : Writer) {h : Types.Header} (hash : Hash)
    (hlen : (h.marshalRLPTo rlp).length < 2 ^ 64) :
    readHeader rlp ((w.putHeader rlp h hash).writeBatch db) h.number hash = .ok h := by
  simp only [readHeader, Writer.putHeader, Writer.writeBatch_putIntoTable, readRLP, Db.put_self,
    Types.Header.unmarshalRLP_marshalRLPTo hrlp hlen, Except.mapError]

theorem readBody_putBody {db : Db} (w : Writer) (bn : UInt64) (bh : Hash) {body : Body}
    (h : ∀ t ∈ body.transactions, t.encodable = true)
    (hlen : (body.marshalRLPTo rlp).length < 2 ^ 64)
    {hd : Types.Header} (hheader : readHeader rlp (w.writeBatch db) bn bh = .ok hd) :
    readBody rlp ((w.putBody rlp bn bh body).writeBatch db) bn bh =
      .ok ⟨body.transactions.map Transaction.encodedPart, body.uncles⟩ := by
  have hframe := @readHeader_put_of_ne rlp (w.writeBatch db) .body (by decide) (getKey bn bh)
    (body.marshalRLPTo rlp) bn bh
  simp only [readBody, Writer.putBody, Writer.writeBatch_putIntoTable, readRLP, Db.put_self,
    Body.unmarshalRLP_marshalRLPTo hrlp h hlen, Except.mapError, bind_ok, hframe, hheader, map_ok]

theorem readReceipts_putReceipts {db : Db} (w : Writer) (bn : UInt64) (bh : Hash)
    {receipts : List Types.Receipt} (h : ∀ r ∈ receipts, r.statusEncodable = true)
    (hlen : (receiptsMarshalStoreRLPTo rlp receipts).length < 2 ^ 64) :
    readReceipts rlp ((w.putReceipts rlp bn bh receipts).writeBatch db) bn bh = .ok receipts := by
  simp only [readReceipts, Writer.putReceipts, Writer.writeBatch_putIntoTable, readRLP, Db.put_self,
    receiptsUnmarshalStoreRLP_marshalStoreRLPTo hrlp h hlen, Except.mapError]

end Lawful

/-- What the store gives back after `PutBody` and `PutReceipts`: each transaction of a body
without the sender it was stored with (unless it is a state transaction), and the receipts as
they were. -/
theorem storeCodec_roundTrip_dropsFrom (rlp : RlpOps) (hrlp : rlp.Lawful) :
    (∀ (db : Db) (w : Writer) (bn : UInt64) (bh : Hash) (body : Body) (hd : Types.Header),
      (∀ t ∈ body.transactions, t.encodable = true) → (body.marshalRLPTo rlp).length < 2 ^ 64 →
      readHeader rlp (w.writeBatch db) bn bh = .ok hd →
      readBody rlp ((w.putBody rlp bn bh body).writeBatch db) bn bh =
        .ok ⟨body.transactions.map Transaction.encodedPart, body.uncles⟩) ∧
    (∀ (db : Db) (w : Writer) (bn : UInt64) (bh : Hash) (receipts : List Types.Receipt),
      (∀ r ∈ receipts, r.statusEncodable = true) →
      (receiptsMarshalStoreRLPTo rlp receipts).length < 2 ^ 64 →
      readReceipts rlp ((w.putReceipts rlp bn bh receipts).writeBatch db) bn bh = .ok receipts) := by
  constructor
  · intro db w bn bh body hd h hlen hheader
    exact readBody_putBody hrlp w bn bh h hlen hheader
  · intro db w bn bh receipts h hlen
    exact readReceipts_putReceipts hrlp w bn bh h hlen

/-- A legacy transaction stored with sender `1`, in one batch with its header, is read back with
sender `0` by the library of `Lib.Rlp`. -/
theorem storeCodec_roundTrip_dropsFrom_legacy :
    readBody Rlp.ops (((Writer.empty.putHeader Rlp.ops ⟨0, 0, [], 0, 0, 0,
        ⟨List.replicate 256 0, List.length_replicate⟩, 0, 0, 0, 0, 0, [], 0, nonceOf 0, 0⟩ 0).putBody
          Rlp.ops 0 0 ⟨[.legacyTx {
            nonce := 0, gas := 0, «to» := none, value := some 0, input := [], v := some 0,
            r := some 0, s := some 0, «from» := 1, gasPrice := some 0 }], []⟩).writeBatch
      fun _ _ => none) 0 0 ≠
      .ok ⟨[.legacyTx {
        nonce := 0, gas := 0, «to» := none, value := some 0, input := [], v := some 0,
        r := some 0, s := some 0, «from» := 1, gasPrice := some 0 }], []⟩ := by
  have hheader := @readHeader_putHeader Rlp.ops Rlp.lawful_ops (fun _ _ => none) Writer.empty
    ⟨0, 0, [], 0, 0, 0, ⟨List.replicate 256 0, List.length_replicate⟩, 0, 0, 0, 0, 0, [], 0,
      nonceOf 0, 0⟩ 0 (by decide +kernel)
  rw [(storeCodec_roundTrip_dropsFrom Rlp.ops Rlp.lawful_ops).1 _ _ 0 0 _ _ (by decide)
    (by decide +kernel) hheader]
  simp [Transaction.encodedPart, Transaction.type, Transaction.setFrom]

end Blade.Storage
