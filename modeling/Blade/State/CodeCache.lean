import Blade.State.Txn

/-!
The code cache of a `Txn` against the same operations run without it. The cache is keyed by
address, not by code hash, and nothing removes an entry: `CleanDeleteObjects` deletes a
self-destructed account from the tree but leaves its cached code, and an account recreated
later in the block (by a transfer, say) has the empty code hash yet reads the old code.
-/

namespace Blade

open Lib

/-- The state operations a block runs on its `Txn`. -/
inductive TxnOp
  | setCode (addr : Address) (code : List UInt8)
  | addBalance (addr : Address) (amount : ℤ)
  | createAccount (addr : Address)
  | suicide (addr : Address)
  | cleanDeleteObjects (deleteEmptyObjects : Bool)
  | snapshot
  | revertToSnapshot (id : ℕ)
  | getCode (addr : Address)

section Ops

variable (keccak256 : List UInt8 → List UInt8)

/-- One operation; `GetCode` also returns the code it read. A failed revert changes nothing. -/
def TxnOp.exec : TxnOp → Txn → Option (List UInt8) × Txn
  | .setCode addr code, t => (none, t.setCode addr keccak256 code)
  | .addBalance addr amount, t => (none, t.addBalance addr amount)
  | .createAccount addr, t => (none, t.createAccount addr)
  | .suicide addr, t => (none, (t.suicide addr).2)
  | .cleanDeleteObjects d, t => (none, t.cleanDeleteObjects d)
  | .snapshot, t => (none, t.snapshot.2)
  | .revertToSnapshot id, t => (none, match t.revertToSnapshot id with
      | .ok t' => t'
      | .error _ => t)
  | .getCode addr, t => let (code, t') := t.getCode addr; (some code, t')

/-- The codes the `GetCode` operations of a sequence read, in order, and the final state. -/
def runOps : List TxnOp → Txn → List (List UInt8) × Txn
  | [], t => ([], t)
  | op :: ops, t =>
    let (out, t₁) := op.exec keccak256 t
    let (outs, t₂) := runOps ops t₁
    (out.toList ++ outs, t₂)

end Ops

/-- The same `Txn` with a cache of capacity zero of the same library, which never answers. -/
def Txn.withoutCache (t : Txn) : Txn := { t with codeCache := t.codeCacheOps.new 0 }

namespace Txn

variable {t : Txn} {a : Address}

@[simp] theorem getStateObject_setCache (c : Lru Address (List UInt8)) (b : Address) :
    ({ t with codeCache := c } : Txn).getStateObject b = t.getStateObject b := rfl

theorem getStateObject_suicide {o : StateObject} (h : t.getStateObject a = some o) :
    (t.suicide a).2 = t.insert a { o with suicide := true, account := { o.account with
      balance := 0 } } := by
  simp [suicide, upsertAccount_of_exists h]

theorem getStateObject_suicide_clean {o : StateObject} (h : t.getStateObject a = some o) :
    ((t.suicide a).2.cleanDeleteObjects true).getStateObject a = none := by
  rw [getStateObject_cleanDeleteObjects, getStateObject_suicide h]
  simp [insert]

theorem getStateObject_addBalance_of_none (h : t.getStateObject a = none) (x : ℤ) :
    (t.addBalance a x).getStateObject a = some { newStateObject with account :=
      { newStateObject.account with balance := x.natAbs } } := by
  rw [addBalance, upsertAccount_create, getStateObject_insert]
  simp [upserted, h, newStateObject, StateObject.copy, Account.copy]

end Txn

section Recreate

variable (keccak256 : List UInt8 → List UInt8) {t : Txn} {a : Address} {o : StateObject}

def recreateOps (a : Address) : List TxnOp :=
  [.getCode a, .suicide a, .cleanDeleteObjects true, .addBalance a 1, .getCode a]

theorem runOps_recreateOps (h : t.getStateObject a = some o) (hd : o.dirtyCode = false)
    (hc : (t.codeCacheOps.get t.codeCache a).1 = none) :
    let code := t.readSnapshot.getCode (bytesToHash o.account.codeHash)
    let cache := t.codeCacheOps.add (t.codeCacheOps.get t.codeCache a).2 a code
    (runOps keccak256 (recreateOps a) t).1 =
      [code, ((t.codeCacheOps.get cache a).1).getD (t.readSnapshot.getCode emptyCodeHash)] ∧
    (runOps keccak256 (recreateOps a) t).2.getCodeHash a = emptyCodeHash := by
  intro code cache
  have h₁ := Txn.getCode_of_miss h hd hc
  set t₁ : Txn := { t with codeCache := cache }
  have hs₁ : t₁.getStateObject a = some o := by simp [t₁, h]
  set t₃ := (t₁.suicide a).2.cleanDeleteObjects true
  have hs₃ : t₃.getStateObject a = none := Txn.getStateObject_suicide_clean hs₁
  have hs₄ := Txn.getStateObject_addBalance_of_none hs₃ 1
  have hcache : (t₃.addBalance a 1).codeCache = cache := by simp [t₃, t₁]
  have hops : (t₃.addBalance a 1).codeCacheOps = t.codeCacheOps := by simp [t₃, t₁]
  have hsnap : t₃.readSnapshot = t.readSnapshot := by simp [t₃, t₁]
  simp only [runOps, recreateOps, TxnOp.exec, h₁]
  change [code] ++ ([] ++ ([] ++ ([] ++ [((t₃.addBalance a 1).getCode a).1]))) = _ ∧
    ((t₃.addBalance a 1).getCode a).2.getCodeHash a = emptyCodeHash
  -- the second read answers from the cache exactly when the first read's entry survived
  cases hl : (t.codeCacheOps.get cache a).1 with
  | some c =>
    rw [Txn.getCode_of_hit hs₄ rfl (by rw [hcache, hops]; exact hl)]
    simp only [Txn.getCodeHash, Txn.getStateObject_setCache, hs₄]
    simp [newStateObject]
  | none =>
    rw [Txn.getCode_of_miss hs₄ rfl (by rw [hcache, hops]; exact hl)]
    simp only [Txn.getCodeHash, Txn.getStateObject_setCache, hs₄]
    simp [hsnap, newStateObject]

end Recreate

theorem getCode_stale_after_recreation (lru : LruOps Address (List UInt8)) (hlru : lru.Lawful)
    (keccak256 : List UInt8 → List UInt8) (snapshot : ReadSnapshot) (a : Address) (account : Account)
    (hacc : snapshot.getAccount a = some account) :
    let code := snapshot.getCode (bytesToHash account.codeHash)
    (runOps keccak256 (recreateOps a) (newTxn lru snapshot)).1 = [code, code] ∧
    (runOps keccak256 (recreateOps a) (newTxn lru snapshot).withoutCache).1 =
      [code, snapshot.getCode emptyCodeHash] ∧
    (runOps keccak256 (recreateOps a) (newTxn lru snapshot)).2.getCodeHash a = emptyCodeHash := by
  intro code
  have h₀ : (newTxn lru snapshot).getStateObject a =
      some { newStateObject with account := account.copy } := by
    simp [newTxn, Txn.getStateObject, hacc]
  have h₀' : (newTxn lru snapshot).withoutCache.getStateObject a =
      some { newStateObject with account := account.copy } := h₀
  obtain ⟨hrun, hhash⟩ := runOps_recreateOps keccak256 h₀ rfl (hlru.get_new 20 a)
  obtain ⟨hrun₀, -⟩ := runOps_recreateOps keccak256 h₀' rfl (hlru.get_new 0 a)
  refine ⟨?_, ?_, hhash⟩
  · -- twenty entries keep the first read's code
    rw [hrun]
    dsimp only [newTxn]
    rw [hlru.get_add_self _ _ _ (by rw [hlru.size_get, hlru.size_new]; decide)]
    rfl
  · -- a cache that never answers reads the recreated account's empty code hash
    rw [hrun₀]
    dsimp only [Txn.withoutCache, newTxn]
    rw [hlru.get_of_size_zero _ _ (by rw [hlru.size_add, hlru.size_get, hlru.size_new])]
    rfl

/-- One byte of code under hash 7 and none under the empty hash, with the cache of `Lru`. -/
theorem getCode_stale_after_recreation_oneByte :
    let snapshot : ReadSnapshot :=
      ⟨fun x => if x = 1 then some ⟨0, 0, emptyRootHash, Hash.bytes 7⟩ else none,
        fun h => if h = 7 then [0x00] else [], fun _ _ _ => 0⟩
    (runOps id (recreateOps 1) (newTxn Lru.ops snapshot)).1 = [[0x00], [0x00]] ∧
    (runOps id (recreateOps 1) (newTxn Lru.ops snapshot).withoutCache).1 = [[0x00], []] ∧
    (runOps id (recreateOps 1) (newTxn Lru.ops snapshot)).2.getCodeHash 1 = emptyCodeHash := by
  intro snapshot
  have h := getCode_stale_after_recreation Lru.ops Lru.lawful_ops id snapshot 1
    ⟨0, 0, emptyRootHash, Hash.bytes 7⟩ (by simp [snapshot])
  have h7 : emptyCodeHash ≠ 7 := by decide
  simpa [snapshot, h7] using h
end Blade
