import Blade.Lib.Lru
import Blade.Types.Transaction

/-!
The world state of a block in progress (`state/txn.go`, `state/state.go`). A `Txn` reads
accounts and code from the snapshot of the parent block and keeps every object it touches in
a radix tree; `Snapshot` saves the tree and `RevertToSnapshot` restores a saved one. Code read
from the snapshot goes through a cache keyed by address that lives as long as the `Txn`.

Every read of an object goes through `StateObject.Copy`, and `Account.Copy` rebuilds the
balance with `SetBytes(Bytes())`, which keeps its magnitude only: a negative balance written
into the tree reads back positive.
-/

namespace Blade

open Lib

/-- `types.EmptyCodeHash`, the Keccak-256 hash of no code. -/
def emptyCodeHash : Hash := ⟨0xc5d2460186f7233c927e7db2dcc703c0e500b653ca82273b7bfad8045d85a470, by decide⟩

/-- `types.EmptyRootHash`, which `txn.go` calls `emptyStateHash`: the root of no storage. -/
def emptyRootHash : Hash := ⟨0x56e81f171bcc55a6ff8345e692c0f86e5b48e01b996cadc001622fb5e363b421, by decide⟩

/-- The errors the world-state and runtime functions return, one per Go error value. -/
inductive RuntimeError
  | notEnoughFunds
  | insufficientBalance
  | maxCodeSizeExceeded
  | contractAddressCollision
  | depth
  | codeStoreOutOfGas
  | notAuth
  | invalidCode
  | nonceUintOverflow
  /-- "snapshot id %d out of the range" -/
  | snapshotOutOfRange (id : ℕ)
  /-- "journal revision id %d cannot be reverted" -/
  | journalRevision (id : ℕ)
  | outOfGas
  /-- "input is too short for a function call" -/
  | noFunctionSignature
  /-- "wrong input size, expected 32" -/
  | inputTooShort
  /-- "function not found" -/
  | functionNotFound
  /-- "write protection" -/
  | writeProtection
  /-- "cannot remove admin role from caller" -/
  | adminSelfRemove
  /-- An error raised by the interpreter itself. -/
  | vm (msg : String)
  deriving DecidableEq, Repr

structure Account where
  nonce : ℕ
  balance : ℤ
  root : Hash
  codeHash : List UInt8
  deriving DecidableEq, Repr

/-- `Account.Copy`: the balance is rebuilt from its bytes, which drop the sign. -/
def Account.copy (a : Account) : Account := { a with balance := a.balance.natAbs }

/-- The object kept in the radix tree. `storage` is the object's own radix tree of written
slots, the latest first; a slot written zero stands for Go's `nil` entry. -/
structure StateObject where
  account : Account
  code : List UInt8
  suicide : Bool
  deleted : Bool
  dirtyCode : Bool
  storage : List (Hash × Hash)
  deriving DecidableEq, Repr

namespace StateObject

def empty (s : StateObject) : Bool :=
  s.account.nonce == 0 && s.account.balance == 0 && s.account.codeHash == emptyCodeHash.bytes

def copy (s : StateObject) : StateObject := { s with account := s.account.copy }

@[simp] theorem suicide_copy (s : StateObject) : s.copy.suicide = s.suicide := rfl

@[simp] theorem deleted_copy (s : StateObject) : s.copy.deleted = s.deleted := rfl

@[simp] theorem empty_copy (s : StateObject) : s.copy.empty = s.empty := by
  have h : (|s.account.balance| == 0) = (s.account.balance == 0) := by
    by_cases hb : s.account.balance = 0 <;> simp [hb]
  simp [empty, copy, Account.copy, h]

end StateObject

/-- `newStateObject`, also the object `upsertAccount` creates for a missing address. -/
def newStateObject : StateObject where
  account := ⟨0, 0, emptyRootHash, emptyCodeHash.bytes⟩
  code := []
  suicide := false
  deleted := false
  dirtyCode := false
  storage := []

/-- `readSnapshot`: the parent block's accounts, code and storage (`GetStorage` of an address
under a storage root). A failed read is an absent account or a zero slot. -/
structure ReadSnapshot where
  getAccount : Address → Option Account
  getCode : Hash → List UInt8
  getStorage : Address → Hash → Hash → Hash

/-- go-immutable-radix's tree as `txn.go` reads it through `Get`, `Insert` and `Delete`:
objects by address and the refund counter under `refundIndex`. -/
structure Radix where
  objects : Address → Option StateObject
  refund : ℕ

/-- The state of a block's `Txn`; the code cache is golang-lru's, whose operations `codeCacheOps`
are those of the library the executor links. -/
structure Txn where
  readSnapshot : ReadSnapshot
  snapshots : List Radix
  txn : Radix
  codeCache : Lru Address (List UInt8)
  codeCacheOps : LruOps Address (List UInt8)

def newTxn (lru : LruOps Address (List UInt8)) (snapshot : ReadSnapshot) : Txn :=
  ⟨snapshot, [], ⟨fun _ => none, 0⟩, lru.new 20, lru⟩

namespace Txn

variable (t : Txn) (addr : Address)

def insert (object : StateObject) : Txn :=
  { t with txn := { t.txn with objects := Function.update t.txn.objects addr (some object) } }

def getStateObject : Option StateObject :=
  match t.txn.objects addr with
  | some obj => if obj.deleted then none else some obj.copy
  | none => (t.readSnapshot.getAccount addr).map fun account =>
      { newStateObject with account := account.copy }

/-- `upsertAccount`: run `f` on the object of `addr`, or on a new one when `create` is set,
and write the result back. -/
def upsertAccount (create : Bool) (f : StateObject → StateObject) : Txn :=
  match t.getStateObject addr, create with
  | some object, _ => t.insert addr (f object)
  | none, true => t.insert addr (f newStateObject)
  | none, false => t

def addBalance (balance : ℤ) : Txn :=
  t.upsertAccount addr true fun o => { o with account := { o.account with
    balance := o.account.balance + balance } }

def getBalance : ℤ :=
  match t.getStateObject addr with
  | some object => object.account.balance
  | none => 0

def subBalance (amount : ℤ) : Except RuntimeError Txn :=
  if amount = 0 then .ok t
  else if t.getBalance addr < amount then .error .notEnoughFunds
  else .ok (t.upsertAccount addr true fun o => { o with account := { o.account with
    balance := o.account.balance - amount } })

/-- `IncrNonce`: the object is written back even when the nonce would overflow. -/
def incrNonce : Txn × Option RuntimeError :=
  if ((t.getStateObject addr).getD newStateObject).account.nonce + 1 = 2 ^ 64 then
    (t.upsertAccount addr true id, some .nonceUintOverflow)
  else
    (t.upsertAccount addr true fun o => { o with account := { o.account with
      nonce := o.account.nonce + 1 } }, none)

def getNonce : ℕ :=
  match t.getStateObject addr with
  | some object => object.account.nonce
  | none => 0

section Code

variable (keccak256 : List UInt8 → List UInt8)

def setCode (code : List UInt8) : Txn :=
  t.upsertAccount addr true fun o => { o with
    account := { o.account with codeHash := keccak256 code }, dirtyCode := true, code := code }

end Code

/-- `GetCode`: dirty code from the object, otherwise the cached code of `addr`, otherwise the
snapshot's code for the object's code hash, which is then cached. -/
def getCode : List UInt8 × Txn :=
  match t.getStateObject addr with
  | none => ([], t)
  | some object =>
    if object.dirtyCode then (object.code, t)
    else
      let (cached, cache) := t.codeCacheOps.get t.codeCache addr
      match cached with
      | some code => (code, { t with codeCache := cache })
      | none =>
        let code := t.readSnapshot.getCode (bytesToHash object.account.codeHash)
        (code, { t with codeCache := t.codeCacheOps.add cache addr code })

def getCodeSize : ℕ × Txn := ((t.getCode addr).1.length, (t.getCode addr).2)

def getCodeHash : Hash :=
  match t.getStateObject addr with
  | some object => bytesToHash object.account.codeHash
  | none => 0

/-- `Suicide`: whether `addr` is newly marked; an existing object loses its balance. -/
def suicide : Bool × Txn :=
  (match t.getStateObject addr with
    | some object => !object.suicide
    | none => false,
   t.upsertAccount addr false fun o => { o with suicide := true, account := { o.account with
     balance := 0 } })

def hasSuicided : Bool :=
  match t.getStateObject addr with
  | some object => object.suicide
  | none => false

def getRefund : ℕ := t.txn.refund

/-- `AddRefund`, in `uint64`. -/
def addRefund (gas : ℕ) : Txn := { t with txn := { t.txn with refund := (t.getRefund + gas) % 2 ^ 64 } }

def setState (key value : Hash) : Txn :=
  t.upsertAccount addr true fun o => { o with storage := (key, value) :: dropKey key o.storage }

def getState (key : Hash) : Hash :=
  match t.getStateObject addr with
  | none => 0
  | some object =>
    match object.storage.lookup key with
    | some val => val
    | none => t.readSnapshot.getStorage addr object.account.root key

def getStorageRoot : Hash :=
  match t.getStateObject addr with
  | some object => object.account.root
  | none => 0

def touchAccount : Txn := t.upsertAccount addr true id

def exist : Bool := (t.getStateObject addr).isSome

def empty : Bool :=
  match t.getStateObject addr with
  | some object => object.empty
  | none => true

/-- `CreateAccount`: a fresh object that keeps the balance of the previous one. -/
def createAccount : Txn :=
  t.insert addr { newStateObject with account := { newStateObject.account with
    balance := match t.getStateObject addr with
      | some prev => prev.account.balance.natAbs
      | none => 0 } }

/-- `CleanDeleteObjects`: every self-destructed object, and with `deleteEmptyObjects` every
empty one, is replaced by a deleted copy; the refund counter is dropped. -/
def cleanDeleteObjects (deleteEmptyObjects : Bool) : Txn :=
  let clean (obj : StateObject) : StateObject :=
    if obj.suicide || obj.empty && deleteEmptyObjects then { obj.copy with deleted := true }
    else obj
  { t with txn := ⟨fun a => (t.txn.objects a).map clean, 0⟩ }

def snapshot : ℕ × Txn := (t.snapshots.length, { t with snapshots := t.snapshots ++ [t.txn] })

def revertToSnapshot (id : ℕ) : Except RuntimeError Txn :=
  match t.snapshots[id]? with
  | some tree => .ok { t with txn := tree }
  | none => .error (.snapshotOutOfRange id)

/-! ## Reads after writes -/

section Frame

variable {t : Txn} {a b : Address}

@[simp] theorem readSnapshot_insert (o : StateObject) : (t.insert a o).readSnapshot = t.readSnapshot := rfl
@[simp] theorem codeCache_insert (o : StateObject) : (t.insert a o).codeCache = t.codeCache := rfl
@[simp] theorem codeCacheOps_insert (o : StateObject) :
    (t.insert a o).codeCacheOps = t.codeCacheOps := rfl
@[simp] theorem snapshots_insert (o : StateObject) : (t.insert a o).snapshots = t.snapshots := rfl

theorem getStateObject_insert (o : StateObject) :
    (t.insert a o).getStateObject b =
      if b = a then (if o.deleted then none else some o.copy) else t.getStateObject b := by
  by_cases h : b = a
  · subst h
    simp [insert, getStateObject]
  · simp [insert, getStateObject, h]

/-- What `upsertAccount` writes back at `addr` when the object exists or is created. -/
def upserted (t : Txn) (addr : Address) (f : StateObject → StateObject) : StateObject :=
  f ((t.getStateObject addr).getD newStateObject)

theorem upsertAccount_create (f : StateObject → StateObject) :
    t.upsertAccount a true f = t.insert a (t.upserted a f) := by
  unfold upsertAccount upserted
  cases t.getStateObject a <;> rfl

theorem upsertAccount_of_exists {o : StateObject} (h : t.getStateObject a = some o) (create : Bool)
    (f : StateObject → StateObject) : t.upsertAccount a create f = t.insert a (f o) := by
  simp [upsertAccount, h]

@[simp] theorem codeCache_upsertAccount (create : Bool) (f : StateObject → StateObject) :
    (t.upsertAccount a create f).codeCache = t.codeCache := by
  unfold upsertAccount
  split <;> rfl

@[simp] theorem codeCacheOps_upsertAccount (create : Bool) (f : StateObject → StateObject) :
    (t.upsertAccount a create f).codeCacheOps = t.codeCacheOps := by
  unfold upsertAccount
  split <;> rfl

@[simp] theorem readSnapshot_upsertAccount (create : Bool) (f : StateObject → StateObject) :
    (t.upsertAccount a create f).readSnapshot = t.readSnapshot := by
  unfold upsertAccount
  split <;> rfl

@[simp] theorem codeCache_addBalance (x : ℤ) : (t.addBalance a x).codeCache = t.codeCache :=
  codeCache_upsertAccount _ _

@[simp] theorem readSnapshot_addBalance (x : ℤ) : (t.addBalance a x).readSnapshot = t.readSnapshot :=
  readSnapshot_upsertAccount _ _

@[simp] theorem codeCache_suicide : (t.suicide a).2.codeCache = t.codeCache :=
  codeCache_upsertAccount _ _

@[simp] theorem codeCacheOps_addBalance (x : ℤ) :
    (t.addBalance a x).codeCacheOps = t.codeCacheOps :=
  codeCacheOps_upsertAccount _ _

@[simp] theorem codeCacheOps_suicide : (t.suicide a).2.codeCacheOps = t.codeCacheOps :=
  codeCacheOps_upsertAccount _ _

@[simp] theorem readSnapshot_suicide : (t.suicide a).2.readSnapshot = t.readSnapshot :=
  readSnapshot_upsertAccount _ _

theorem getStateObject_insert_ne (o : StateObject) (h : b ≠ a) :
    (t.insert a o).getStateObject b = t.getStateObject b := by
  simp [getStateObject_insert, h]

theorem getStateObject_upsertAccount_ne (h : b ≠ a) (create : Bool) (f : StateObject → StateObject) :
    (t.upsertAccount a create f).getStateObject b = t.getStateObject b := by
  unfold upsertAccount
  split <;> simp [getStateObject_insert_ne _ h]

/-! ## What a read returns

A read is a copy of a live object, so its balance is the magnitude of the stored one. -/

theorem deleted_of_getStateObject {o : StateObject} (h : t.getStateObject a = some o) :
    o.deleted = false := by
  unfold getStateObject at h
  split at h
  · split at h
    · cases h
    · rename_i obj _ hdel
      cases h
      simpa [StateObject.copy] using hdel
  · obtain ⟨account, -, rfl⟩ := Option.map_eq_some_iff.1 h
    rfl

theorem balance_nonneg_of_getStateObject {o : StateObject} (h : t.getStateObject a = some o) :
    0 ≤ o.account.balance := by
  unfold getStateObject at h
  split at h
  · split at h
    · cases h
    · cases h
      simp [StateObject.copy, Account.copy]
  · obtain ⟨account, -, rfl⟩ := Option.map_eq_some_iff.1 h
    simp [Account.copy]

theorem copy_of_getStateObject {o : StateObject} (h : t.getStateObject a = some o) : o.copy = o := by
  have hb := balance_nonneg_of_getStateObject h
  simp [StateObject.copy, Account.copy, Int.natAbs_of_nonneg hb]

theorem getBalance_nonneg : 0 ≤ t.getBalance a := by
  unfold getBalance
  split
  · exact balance_nonneg_of_getStateObject ‹_›
  · exact le_rfl

theorem getBalance_of_getStateObject {o : StateObject} (h : t.getStateObject a = some o) :
    t.getBalance a = o.account.balance := by
  simp [getBalance, h]

theorem getNonce_of_getStateObject {o : StateObject} (h : t.getStateObject a = some o) :
    t.getNonce a = o.account.nonce := by
  simp [getNonce, h]

theorem getBalance_congr {t' : Txn} (h : t'.getStateObject a = t.getStateObject a) :
    t'.getBalance a = t.getBalance a := by
  simp [getBalance, h]

theorem getD_deleted : ((t.getStateObject a).getD newStateObject).deleted = false := by
  cases h : t.getStateObject a with
  | none => rfl
  | some o => exact deleted_of_getStateObject h

theorem getD_copy : ((t.getStateObject a).getD newStateObject).copy =
    (t.getStateObject a).getD newStateObject := by
  cases h : t.getStateObject a with
  | none => rfl
  | some o => exact copy_of_getStateObject h

@[simp] theorem nonce_getD : ((t.getStateObject a).getD newStateObject).account.nonce = t.getNonce a := by
  unfold getNonce
  cases t.getStateObject a <;> rfl

@[simp] theorem balance_getD : ((t.getStateObject a).getD newStateObject).account.balance = t.getBalance a := by
  unfold getBalance
  cases t.getStateObject a <;> rfl

theorem getStateObject_upsertAccount_self (f : StateObject → StateObject)
    (hf : (t.upserted a f).deleted = false) :
    (t.upsertAccount a true f).getStateObject a = some (t.upserted a f).copy := by
  rw [upsertAccount_create, getStateObject_insert]
  simp [hf]

theorem incrNonce_of_lt (h : t.getNonce a + 1 < 2 ^ 64) :
    t.incrNonce a = (t.upsertAccount a true fun o => { o with account := { o.account with
      nonce := o.account.nonce + 1 } }, none) := by
  simp only [incrNonce, nonce_getD]
  rw [if_neg (by omega)]

theorem getStateObject_incrNonce_self (h : t.getNonce a + 1 < 2 ^ 64) :
    (t.incrNonce a).1.getStateObject a = some { (t.getStateObject a).getD newStateObject with
      account := { ((t.getStateObject a).getD newStateObject).account with
        nonce := t.getNonce a + 1 } } := by
  rw [incrNonce_of_lt h, getStateObject_upsertAccount_self _ (by simp [upserted, getD_deleted])]
  have hc := t.getD_copy (a := a)
  simp only [upserted, StateObject.copy, Account.copy, nonce_getD] at hc ⊢
  simp only [Option.some.injEq]
  rw [← hc]
  simp

theorem getNonce_incrNonce_self (h : t.getNonce a + 1 < 2 ^ 64) :
    (t.incrNonce a).1.getNonce a = t.getNonce a + 1 :=
  getNonce_of_getStateObject (getStateObject_incrNonce_self h)

theorem getBalance_incrNonce_self (h : t.getNonce a + 1 < 2 ^ 64) :
    (t.incrNonce a).1.getBalance a = t.getBalance a := by
  rw [getBalance_of_getStateObject (getStateObject_incrNonce_self h), balance_getD]

theorem getStateObject_incrNonce_ne (h : b ≠ a) : (t.incrNonce a).1.getStateObject b = t.getStateObject b := by
  unfold incrNonce
  split <;> exact getStateObject_upsertAccount_ne h _ _

@[simp] theorem getStateObject_snapshot : t.snapshot.2.getStateObject b = t.getStateObject b := rfl
@[simp] theorem getNonce_snapshot : t.snapshot.2.getNonce b = t.getNonce b := rfl
@[simp] theorem getBalance_snapshot : t.snapshot.2.getBalance b = t.getBalance b := rfl
@[simp] theorem getCodeHash_snapshot : t.snapshot.2.getCodeHash b = t.getCodeHash b := rfl

theorem getStateObject_createAccount_self :
    (t.createAccount a).getStateObject a = some { newStateObject with account :=
      { newStateObject.account with balance := t.getBalance a } } := by
  have hb := t.getBalance_nonneg (a := a)
  rw [createAccount, getStateObject_insert]
  cases h : t.getStateObject a with
  | none => simp [newStateObject, StateObject.copy, Account.copy, getBalance, h]
  | some o =>
    have ho := balance_nonneg_of_getStateObject h
    simp [newStateObject, StateObject.copy, Account.copy, getBalance, h, Int.natAbs_of_nonneg ho]

theorem getStateObject_createAccount_ne (h : b ≠ a) :
    (t.createAccount a).getStateObject b = t.getStateObject b :=
  getStateObject_insert_ne _ h

theorem getStateObject_addBalance_self (x : ℤ) :
    (t.addBalance a x).getStateObject a = some { (t.getStateObject a).getD newStateObject with
      account := { ((t.getStateObject a).getD newStateObject).account with
        balance := ((t.getBalance a + x).natAbs : ℤ) } } := by
  rw [addBalance, getStateObject_upsertAccount_self _ (by simp [upserted, getD_deleted])]
  simp [upserted, StateObject.copy, Account.copy]

theorem objects_addBalance_self (x : ℤ) :
    (t.addBalance a x).txn.objects a = some { (t.getStateObject a).getD newStateObject with
      account := { ((t.getStateObject a).getD newStateObject).account with
        balance := t.getBalance a + x } } := by
  simp [addBalance, upsertAccount_create, insert, upserted]

theorem suicide_getD (h : t.hasSuicided a = false) :
    ((t.getStateObject a).getD newStateObject).suicide = false := by
  unfold hasSuicided at h
  cases ho : t.getStateObject a with
  | none => rfl
  | some o => simpa [ho] using h

@[simp] theorem getRefund_insert (o : StateObject) : (t.insert a o).getRefund = t.getRefund := rfl

@[simp] theorem getRefund_upsertAccount (create : Bool) (f : StateObject → StateObject) :
    (t.upsertAccount a create f).getRefund = t.getRefund := by
  unfold upsertAccount
  split <;> rfl

@[simp] theorem getRefund_snapshot : t.snapshot.2.getRefund = t.getRefund := rfl

@[simp] theorem getRefund_addBalance (x : ℤ) : (t.addBalance a x).getRefund = t.getRefund :=
  getRefund_upsertAccount _ _

@[simp] theorem getRefund_touchAccount : (t.touchAccount a).getRefund = t.getRefund :=
  getRefund_upsertAccount _ _

@[simp] theorem getRefund_incrNonce : (t.incrNonce a).1.getRefund = t.getRefund := by
  unfold incrNonce
  split <;> exact getRefund_upsertAccount _ _

theorem getStateObject_touchAccount_ne (h : b ≠ a) :
    (t.touchAccount a).getStateObject b = t.getStateObject b :=
  getStateObject_upsertAccount_ne h _ _

theorem getStateObject_addBalance_ne (h : b ≠ a) (x : ℤ) :
    (t.addBalance a x).getStateObject b = t.getStateObject b :=
  getStateObject_upsertAccount_ne h _ _

theorem getStateObject_cleanDeleteObjects (d : Bool) :
    (t.cleanDeleteObjects d).getStateObject b =
      if (t.txn.objects b).any (fun o => o.suicide || o.empty && d) then none
      else t.getStateObject b := by
  unfold cleanDeleteObjects getStateObject
  cases hb : t.txn.objects b with
  | none => simp [hb]
  | some obj =>
    by_cases hc : obj.suicide = true ∨ obj.empty = true ∧ d = true
    · simp [hb, hc, StateObject.copy]
    · simp [hb, hc]

theorem getStateObject_cleanDeleteObjects_of_live {o : StateObject} (h : t.getStateObject b = some o)
    (hs : o.suicide = false) (he : o.empty = false) (d : Bool) :
    (t.cleanDeleteObjects d).getStateObject b = some o := by
  rw [getStateObject_cleanDeleteObjects, ← h]
  cases hobj : t.txn.objects b with
  | none => simp
  | some obj =>
    have hcopy : obj.copy = o := by
      simp only [getStateObject, hobj] at h
      split at h
      · cases h
      · exact Option.some.inj h
    have hs' : obj.suicide = false := by rw [← hcopy] at hs; simpa using hs
    have he' : obj.empty = false := by rw [← hcopy] at he; simpa using he
    simp [hs', he']

theorem objects_cleanDeleteObjects_of_keep {obj : StateObject} (h : t.txn.objects b = some obj)
    (hs : obj.suicide = false) (he : obj.empty = false) (d : Bool) :
    (t.cleanDeleteObjects d).txn.objects b = some obj := by
  simp [cleanDeleteObjects, h, hs, he]

@[simp] theorem codeCache_cleanDeleteObjects (d : Bool) :
    (t.cleanDeleteObjects d).codeCache = t.codeCache := rfl

@[simp] theorem codeCacheOps_cleanDeleteObjects (d : Bool) :
    (t.cleanDeleteObjects d).codeCacheOps = t.codeCacheOps := rfl

@[simp] theorem readSnapshot_cleanDeleteObjects (d : Bool) :
    (t.cleanDeleteObjects d).readSnapshot = t.readSnapshot := rfl

/-! ## Code reads -/

theorem getCode_of_none (h : t.getStateObject a = none) : t.getCode a = ([], t) := by
  simp [getCode, h]

theorem getCode_of_hit {o : StateObject} {code : List UInt8} (h : t.getStateObject a = some o)
    (hd : o.dirtyCode = false) (hc : (t.codeCacheOps.get t.codeCache a).1 = some code) :
    t.getCode a = (code, { t with codeCache := (t.codeCacheOps.get t.codeCache a).2 }) := by
  simp only [getCode, h, hd, Bool.false_eq_true, if_false]
  rw [hc]

theorem getCode_of_miss {o : StateObject} (h : t.getStateObject a = some o)
    (hd : o.dirtyCode = false) (hc : (t.codeCacheOps.get t.codeCache a).1 = none) :
    let code := t.readSnapshot.getCode (bytesToHash o.account.codeHash)
    t.getCode a =
      (code, { t with codeCache := t.codeCacheOps.add (t.codeCacheOps.get t.codeCache a).2 a code }) := by
  simp only [getCode, h, hd, Bool.false_eq_true, if_false]
  rw [hc]

end Frame

end Txn

end Blade
