import Blade.State.Executor

/-!
Contract storage and the gas metering of its writes (`state/txn.go`). `SetState` writes a slot
into the object's own tree, `GetState` reads it back or falls through to the snapshot under the
account's storage root, and `GetCommittedState`, the original value of EIP-2200, always reads
the snapshot. A storage root moves only at `Commit`, so the original value of a slot is its
value at the start of the block: from the second transaction of a block that writes a slot on,
`SetStorage` meters the write as EIP-2200 prescribes for another original value, and its
`SubRefund` can take more than the counter holds.
-/

namespace Blade

open Lib

inductive StorageStatus
  | unchanged
  | modified
  | modifiedAgain
  | added
  | deleted
  deriving DecidableEq, Repr

def berlinClearingRefund : ℕ := 15000

def londonClearingRefund : ℕ := 4800

namespace Txn

variable (t : Txn) (addr : Address)

/-- `GetCommittedState`: the snapshot's value under the account's current storage root. -/
def getCommittedState (key : Hash) : Hash :=
  match t.getStateObject addr with
  | none => 0
  | some obj => t.readSnapshot.getStorage addr obj.account.root key

/-- `SubRefund`, in `uint64`: a larger amount wraps around. -/
def subRefund (gas : ℕ) : Txn :=
  { t with txn := { t.txn with refund := (((t.getRefund : ℤ) - gas) % 2 ^ 64).toNat } }

/-- `SetStorage`: write the slot and classify the write by the original, current and new
values, moving the refund counter as EIP-2200 (or the legacy metering) prescribes. -/
def setStorage (key value : Hash) (config : TransitionForks) : StorageStatus × Txn :=
  let oldValue := t.getState addr key
  if oldValue = value then (.unchanged, t)
  else
    let current := oldValue
    let original := t.getCommittedState addr key
    let t := t.setState addr key value
    let legacyGasMetering := !config.istanbul && (config.petersburg || !config.constantinople)
    if legacyGasMetering then
      if oldValue = 0 then (.added, t)
      else if value = 0 then (.deleted, t.addRefund 15000)
      else (.modified, t)
    else
      let clearingRefund := if config.london then londonClearingRefund else berlinClearingRefund
      if original = current then
        if original = 0 then (.added, t)
        else if value = 0 then (.deleted, t.addRefund clearingRefund)
        else (.modified, t)
      else
        -- a dirty slot: undo or redo the clearing refund, then refund a reset to the original
        let t :=
          if original ≠ 0 then
            if current = 0 then t.subRefund clearingRefund
            else if value = 0 then t.addRefund clearingRefund
            else t
          else t
        let t :=
          if original = value then
            if original = 0 then
              t.addRefund (if config.berlin then 19900 else if config.istanbul then 19200 else 19800)
            else t.addRefund (if config.berlin then 2800 else if config.istanbul then 4200 else 4800)
          else t
        (.modifiedAgain, t)

/-! ## Reads after writes -/

section Frame

variable {t : Txn} {a b : Address}

@[simp] theorem readSnapshot_setState (k v : Hash) :
    (t.setState a k v).readSnapshot = t.readSnapshot :=
  readSnapshot_upsertAccount _ _

@[simp] theorem getRefund_setState (k v : Hash) : (t.setState a k v).getRefund = t.getRefund :=
  getRefund_upsertAccount _ _

@[simp] theorem getRefund_addRefund (x : ℕ) :
    (t.addRefund x).getRefund = (t.getRefund + x) % 2 ^ 64 := rfl

@[simp] theorem getRefund_subRefund (x : ℕ) :
    (t.subRefund x).getRefund = (((t.getRefund : ℤ) - x) % 2 ^ 64).toNat := rfl

@[simp] theorem getRefund_cleanDeleteObjects (d : Bool) : (t.cleanDeleteObjects d).getRefund = 0 :=
  rfl

@[simp] theorem readSnapshot_addRefund (x : ℕ) : (t.addRefund x).readSnapshot = t.readSnapshot :=
  rfl

@[simp] theorem readSnapshot_subRefund (x : ℕ) : (t.subRefund x).readSnapshot = t.readSnapshot :=
  rfl

@[simp] theorem getStateObject_addRefund (x : ℕ) :
    (t.addRefund x).getStateObject b = t.getStateObject b := rfl

@[simp] theorem getStateObject_subRefund (x : ℕ) :
    (t.subRefund x).getStateObject b = t.getStateObject b := rfl

theorem getState_of_getStateObject {o : StateObject} (h : t.getStateObject a = some o) (k : Hash) :
    t.getState a k = (o.storage.lookup k).getD (t.readSnapshot.getStorage a o.account.root k) := by
  simp only [getState, h]
  cases o.storage.lookup k <;> rfl

theorem getCommittedState_of_getStateObject {o : StateObject} (h : t.getStateObject a = some o)
    (k : Hash) : t.getCommittedState a k = t.readSnapshot.getStorage a o.account.root k := by
  simp [getCommittedState, h]

theorem getStateObject_setState_self (k v : Hash) :
    (t.setState a k v).getStateObject a = some { (t.getStateObject a).getD newStateObject with
      storage := (k, v) :: dropKey k ((t.getStateObject a).getD newStateObject).storage } := by
  rw [setState, getStateObject_upsertAccount_self _ (by simp [upserted, getD_deleted])]
  have hacc : ((t.getStateObject a).getD newStateObject).account.copy =
      ((t.getStateObject a).getD newStateObject).account :=
    congrArg StateObject.account t.getD_copy
  simp [upserted, StateObject.copy, hacc]

theorem getState_setState_self (k v : Hash) : (t.setState a k v).getState a k = v := by
  rw [getState_of_getStateObject (getStateObject_setState_self k v)]
  simp

theorem setStorage_snd_rec {P : Txn → Prop} (k v : Hash) (config : TransitionForks)
    (hadd : ∀ t x, P t → P (t.addRefund x)) (hsub : ∀ t x, P t → P (t.subRefund x))
    (hsame : t.getState a k = v → P t) (hset : t.getState a k ≠ v → P (t.setState a k v)) :
    P (t.setStorage a k v config).2 := by
  unfold setStorage
  dsimp only
  by_cases hv : t.getState a k = v
  · simp only [hv, if_true, hsame hv]
  have h := hset hv
  generalize t.getCommittedState a k = original
  generalize t.setState a k v = t' at h
  generalize (if config.london = true then londonClearingRefund else berlinClearingRefund) = c
  generalize (if config.berlin = true then 19900 else if config.istanbul = true then 19200 else 19800) = x
  generalize (if config.berlin = true then 2800 else if config.istanbul = true then 4200 else 4800) = y
  -- every branch is a chain of refund moves on the written transaction
  split_ifs <;> dsimp only <;> repeat (first | apply hadd | apply hsub | exact h)

theorem getStateObject_setStorage (k v : Hash) (config : TransitionForks) (b : Address) :
    (t.setStorage a k v config).2.getStateObject b =
      if t.getState a k = v then t.getStateObject b else (t.setState a k v).getStateObject b := by
  refine setStorage_snd_rec (P := fun t' => t'.getStateObject b = _) k v config
    (fun _ _ h => h) (fun _ _ h => h) (fun hv => ?_) (fun hv => ?_)
  · rw [if_pos hv]
  · rw [if_neg hv]

@[simp] theorem readSnapshot_setStorage (k v : Hash) (config : TransitionForks) :
    (t.setStorage a k v config).2.readSnapshot = t.readSnapshot :=
  setStorage_snd_rec (P := fun t' => t'.readSnapshot = t.readSnapshot) k v config
    (fun _ _ h => h) (fun _ _ h => h) (fun _ => rfl) (fun _ => readSnapshot_setState k v)

end Frame

end Txn

/-- EIP-2200, with the amounts of EIP-2929 and EIP-3529: the status of a write of `new` to a slot
that holds `current` and held `original` when the transaction started, and the change of the
refund counter. -/
def eip2200 (config : TransitionForks) (original current new : Hash) : StorageStatus × ℤ :=
  let clearingRefund : ℤ := if config.london then londonClearingRefund else berlinClearingRefund
  if current = new then (.unchanged, 0)
  else if original = current then
    if original = 0 then (.added, 0)
    else if new = 0 then (.deleted, clearingRefund)
    else (.modified, 0)
  else
    let clearing : ℤ :=
      if original ≠ 0 ∧ current = 0 then -clearingRefund
      else if original ≠ 0 ∧ new = 0 then clearingRefund
      else 0
    let reset : ℤ :=
      if original = new then
        if original = 0 then (if config.berlin then 19900 else if config.istanbul then 19200 else 19800)
        else (if config.berlin then 2800 else if config.istanbul then 4200 else 4800)
      else 0
    (.modifiedAgain, clearing + reset)

/-- Outside the legacy metering, `SetStorage` is EIP-2200 with the committed value of the slot
as the original one. -/
theorem setStorage_eq_eip2200 (t : Txn) (a : Address) (k v : Hash) (config : TransitionForks)
    (histanbul : config.istanbul = true) (hr : t.getRefund < 2 ^ 64) :
    let r := eip2200 config (t.getCommittedState a k) (t.getState a k) v
    (t.setStorage a k v config).1 = r.1 ∧
      ((t.setStorage a k v config).2.getRefund : ℤ) = (t.getRefund + r.2) % 2 ^ 64 := by
  intro r
  unfold Txn.setStorage
  dsimp only
  simp only [histanbul, Bool.not_true, Bool.false_and, Bool.false_eq_true, if_false, if_true, r,
    eip2200]
  generalize t.getState a k = current
  generalize t.getCommittedState a k = original
  by_cases hcv : current = v
  · -- a write of the current value changes nothing
    simp only [hcv, if_true, add_zero, true_and]
    omega
  by_cases hoc : original = current
  · -- a clean slot
    subst hoc
    by_cases ho : original = 0
    · subst ho
      simp [hcv]
      omega
    · by_cases hn : v = 0
      · simp [ho, hn]
      · simp [hcv, ho, hn]
        omega
  · -- a dirty slot: the clearing refund moves with the zeroness of the current and new values,
    -- and a reset to the original value refunds the difference of the two costs
    by_cases ho : original = 0
    · subst ho
      by_cases hn : v = 0
      · subst hn
        simp [hcv, hoc]
      · simp [hcv, hoc, Ne.symm hn]
        omega
    · by_cases hc : current = 0
      · subst hc
        by_cases hon : original = v
        · subst hon
          simp [hoc, Ne.symm ho]
          omega
        · simp [hcv, hoc, hon]
          omega
      · by_cases hn : v = 0
        · subst hn
          simp [hcv, hoc, ho]
        · by_cases hon : original = v
          · subst hon
            simp [hcv, hoc, ho, hc]
          · simp [hcv, hoc, ho, hc, hn, hon]
            omega

theorem setStorage_second_tx_underflows (lru : LruOps Address (List UInt8)) (snapshot : ReadSnapshot) (config : TransitionForks)
    (a : Address) (acct : Account) (k v : Hash) (hacc : snapshot.getAccount a = some acct)
    (hnonce : acct.nonce ≠ 0) (hw : snapshot.getStorage a acct.root k ≠ 0) (hv : v ≠ 0)
    (hvw : v ≠ snapshot.getStorage a acct.root k) (histanbul : config.istanbul = true)
    (hlondon : config.london = true) :
    let t := ((newTxn lru snapshot).setStorage a k 0 config).2.cleanDeleteObjects true
    t.getState a k = 0 ∧ t.getRefund = 0 ∧
    eip2200 config (t.getState a k) (t.getState a k) v = (.added, 0) ∧
    (t.setStorage a k v config).1 = .modifiedAgain ∧
    (t.setStorage a k v config).2.getRefund = 2 ^ 64 - londonClearingRefund := by
  intro t
  set w := snapshot.getStorage a acct.root k with hw_def
  let o₀ : StateObject := { newStateObject with account := acct.copy }
  have h₀ : (newTxn lru snapshot).getStateObject a = some o₀ := by
    simp [newTxn, Txn.getStateObject, hacc, o₀]
  have hw₀ : (newTxn lru snapshot).getState a k = w := by
    rw [Txn.getState_of_getStateObject h₀]
    rfl
  -- the first transaction clears the slot of a live object, which the cleaning keeps
  let o₁ : StateObject := { o₀ with storage := [(k, 0)] }
  have h₁ : ((newTxn lru snapshot).setStorage a k 0 config).2.getStateObject a = some o₁ := by
    rw [Txn.getStateObject_setStorage, if_neg (by rw [hw₀]; exact hw),
      Txn.getStateObject_setState_self, h₀]
    simp [o₁, o₀, newStateObject, dropKey]
  have hlive : o₁.empty = false := by simp [o₁, o₀, StateObject.empty, Account.copy, hnonce]
  have ht : t.getStateObject a = some o₁ :=
    Txn.getStateObject_cleanDeleteObjects_of_live h₁ rfl hlive true
  have hcur : t.getState a k = 0 := by simp [Txn.getState_of_getStateObject ht, o₁]
  have horig : t.getCommittedState a k = w := by
    rw [Txn.getCommittedState_of_getStateObject ht]
    simp only [t, Txn.readSnapshot_cleanDeleteObjects, Txn.readSnapshot_setStorage]
    rfl
  have hrefund : t.getRefund = 0 := rfl
  -- the second transaction is metered against `w`, not against the zero it starts from
  obtain ⟨hstatus, hrefund₂⟩ := setStorage_eq_eip2200 t a k v config histanbul (by simp [hrefund])
  rw [horig, hcur] at hstatus hrefund₂
  refine ⟨hcur, hrefund, ?_, ?_, ?_⟩
  · simp [hcur, eip2200, Ne.symm hv]
  · simp [hstatus, eip2200, Ne.symm hv, hw]
  · simp [eip2200, hlondon, Ne.symm hv, hw, hrefund, hvw.symm, londonClearingRefund] at hrefund₂
    simp only [londonClearingRefund]
    omega

/-- An account of nonce one whose slot zero holds one: the first transaction clears the slot, the
second sets it to two. -/
theorem setStorage_second_tx_underflows_slot_zero :
    let snapshot : ReadSnapshot :=
      ⟨fun x => if x = 1 then some ⟨1, 0, emptyRootHash, emptyCodeHash.bytes⟩ else none,
        fun _ => [], fun _ _ _ => 1⟩
    let config : TransitionForks := ⟨⟨true, true, true, true, true⟩, true, true, true, true⟩
    let t := ((newTxn Lru.ops snapshot).setStorage 1 0 0 config).2.cleanDeleteObjects true
    t.getState 1 0 = 0 ∧ t.getRefund = 0 ∧
    eip2200 config (t.getState 1 0) (t.getState 1 0) 2 = (.added, 0) ∧
    (t.setStorage 1 0 2 config).1 = .modifiedAgain ∧
    (t.setStorage 1 0 2 config).2.getRefund = 2 ^ 64 - londonClearingRefund := by
  intro snapshot config t
  exact setStorage_second_tx_underflows Lru.ops snapshot config 1 ⟨1, 0, emptyRootHash, emptyCodeHash.bytes⟩
    0 2 (by simp [snapshot]) (by decide) (by decide) (by decide) (by decide) rfl rfl

end Blade
