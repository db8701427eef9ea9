import Blade.Types.Transaction
import Blade.Lib.UndoLog

/-!
The EIP-2929 access list and the journal that undoes additions to it
(`state/runtime/access_list.go`, `state/runtime/journal.go`). The host appends an undo entry for
every addition, whether or not the addition changed the list, and the undo of an entry deletes
its address, or its slot, outright. The journal therefore undoes an addition exactly when the
addition was not redundant: an address that was absent, or a slot that was absent under an
address that was present.
-/

namespace Blade

/-- `AccessList`: the warm addresses, each with its warm slots. -/
structure AccessList where
  slots : Address → Option (Hash → Bool)

namespace AccessList

variable (al : AccessList)

def newAccessList : AccessList := ⟨fun _ => none⟩

def containsAddress (address : Address) : Bool := (al.slots address).isSome

def contains (address : Address) (slot : Hash) : Bool × Bool :=
  match al.slots address with
  | none => (false, false)
  | some slots => (true, slots slot)

def addAddress (address : List Address) : AccessList :=
  address.foldl (fun al addr =>
    if al.containsAddress addr then al
    else ⟨Function.update al.slots addr (some fun _ => false)⟩) al

def addSlot (address : Address) (slot : List Hash) : AccessList :=
  let slotMap := (al.slots address).getD fun _ => false
  ⟨Function.update al.slots address (some fun s => slotMap s || slot.contains s)⟩

def deleteAddress (address : Address) : AccessList := ⟨Function.update al.slots address none⟩

def deleteSlot (address : Address) (slot : Hash) : AccessList :=
  match al.slots address with
  | none => al
  | some slots => ⟨Function.update al.slots address (some (Function.update slots slot false))⟩

def prepareAccessList («from» : Address) («to» : Option Address) (precompiles : List Address)
    (txAccessList : TxAccessList) : AccessList :=
  let al := al.addAddress [«from»]
  let al := match «to» with
    | some «to» => al.addAddress [«to»]
    | none => al
  let al := al.addAddress precompiles
  txAccessList.foldl (fun al tuple =>
    (al.addAddress [tuple.address]).addSlot tuple.address tuple.storageKeys) al

end AccessList

inductive JournalEntry
  | accessListAddAccountChange (address : Address)
  | accessListAddSlotChange (address : Address) (slot : Hash)
  deriving DecidableEq, Repr

namespace JournalEntry

/-- `JournalEntry.Revert`, through the host's `DeleteAccessListAddress` and
`DeleteAccessListSlot`, which act on the host's access list alone. -/
def revert : JournalEntry → AccessList → AccessList
  | .accessListAddAccountChange address, al => al.deleteAddress address
  | .accessListAddSlotChange address slot, al => al.deleteSlot address slot

def add : JournalEntry → AccessList → AccessList
  | .accessListAddAccountChange address, al => al.addAddress [address]
  | .accessListAddSlotChange address slot, al => al.addSlot address [slot]

/-- Whether the addition changed the list: an absent address, or an absent slot of a present
address. -/
def fresh : JournalEntry → AccessList → Bool
  | .accessListAddAccountChange address, al => !al.containsAddress address
  | .accessListAddSlotChange address slot, al => al.contains address slot == (true, false)

end JournalEntry

structure JournalRevision where
  id : ℕ
  index : ℕ
  deriving DecidableEq, Repr

/-- `Journal.Revert`: undo the entries from `snapshot` on, the last first, and cut the journal
there. -/
def Journal.revert (entries : List JournalEntry) (al : AccessList) (snapshot : ℕ) :
    AccessList × List JournalEntry :=
  (Lib.undoAll JournalEntry.revert (entries.drop snapshot) al, entries.take snapshot)

namespace AccessList

variable {al : AccessList}

@[simp] theorem containsAddress_addAddress_self (a : Address) :
    (al.addAddress [a]).containsAddress a = true := by
  simp only [addAddress, List.foldl_cons, List.foldl_nil]
  split_ifs with h
  · exact h
  · simp [containsAddress]

@[simp] theorem containsAddress_deleteAddress_self (a : Address) :
    (al.deleteAddress a).containsAddress a = false := by
  simp [deleteAddress, containsAddress]

theorem deleteAddress_addAddress_of_not_contains {a : Address} (h : al.containsAddress a = false) :
    (al.addAddress [a]).deleteAddress a = al := by
  have hnone : al.slots a = none := by simpa [containsAddress] using h
  cases al with
  | mk slots =>
    simp only [addAddress, List.foldl_cons, List.foldl_nil, h, Bool.false_eq_true, if_false,
      deleteAddress, Function.update_idem, AccessList.mk.injEq]
    rw [Function.update_eq_self_iff]
    exact hnone.symm

theorem deleteSlot_addSlot_of_contains {a : Address} {s : Hash}
    (h : al.contains a s = (true, false)) : (al.addSlot a [s]).deleteSlot a s = al := by
  cases al with
  | mk slots =>
    cases hs : slots a with
    | none => simp [contains, hs] at h
    | some f =>
      have hf : f s = false := by simpa [contains, hs] using h
      -- the slot set after the round trip is the one before
      have hset : Function.update (fun x => f x || [s].contains x) s false = f := by
        funext x
        by_cases hx : x = s
        · subst hx
          simp [hf]
        · simp [hx]
      simp only [addSlot, deleteSlot, hs, Option.getD_some, Function.update_self,
        Function.update_idem, hset, AccessList.mk.injEq]
      rw [Function.update_eq_self_iff, hs]

/-! ### Warm addresses only accumulate -/

theorem addAddress_cons (a : Address) (as : List Address) :
    al.addAddress (a :: as) = (al.addAddress [a]).addAddress as := rfl

theorem containsAddress_addAddress_single {a b : Address} (h : al.containsAddress b = true) :
    (al.addAddress [a]).containsAddress b = true := by
  simp only [addAddress, List.foldl_cons, List.foldl_nil]
  split_ifs
  · exact h
  · by_cases hab : b = a
    · simp [containsAddress, hab]
    · simpa [containsAddress, Function.update_apply, hab] using h

theorem containsAddress_addAddress_of_contains {b : Address} (h : al.containsAddress b = true)
    (as : List Address) : (al.addAddress as).containsAddress b = true := by
  induction as generalizing al with
  | nil => exact h
  | cons a as ih =>
    rw [addAddress_cons]
    exact ih (containsAddress_addAddress_single h)

theorem containsAddress_addAddress_of_mem {b : Address} {as : List Address} (h : b ∈ as) :
    (al.addAddress as).containsAddress b = true := by
  induction as generalizing al with
  | nil => cases h
  | cons a as ih =>
    rw [addAddress_cons]
    rcases List.mem_cons.1 h with rfl | hmem
    · exact containsAddress_addAddress_of_contains (containsAddress_addAddress_self b) as
    · exact ih hmem

theorem containsAddress_addSlot_of_contains {a b : Address} (h : al.containsAddress b = true)
    (slot : List Hash) : (al.addSlot a slot).containsAddress b = true := by
  by_cases hab : b = a
  · simp [addSlot, containsAddress, hab]
  · simpa [addSlot, containsAddress, Function.update_apply, hab] using h

theorem containsAddress_foldl_tuples {b : Address} (tuples : TxAccessList)
    (h : al.containsAddress b = true ∨ b ∈ tuples.map (·.address)) :
    (tuples.foldl (fun al tuple =>
      (al.addAddress [tuple.address]).addSlot tuple.address tuple.storageKeys) al).containsAddress
        b = true := by
  induction tuples generalizing al with
  | nil => simpa using h
  | cons tuple tuples ih =>
    rw [List.foldl_cons]
    apply ih
    -- the tuple's own address is added before its slots
    rcases h with h | h
    · exact .inl (containsAddress_addSlot_of_contains (containsAddress_addAddress_single h) _)
    · rcases List.mem_cons.1 h with rfl | hmem
      · exact .inl (containsAddress_addSlot_of_contains (containsAddress_addAddress_self _) _)
      · exact .inr hmem

theorem containsAddress_prepareAccessList {«from» b : Address} {«to» : Option Address}
    {precompiles : List Address} {txAccessList : TxAccessList}
    (h : b = «from» ∨ «to» = some b ∨ b ∈ precompiles ∨ b ∈ txAccessList.map (·.address)) :
    (al.prepareAccessList «from» «to» precompiles txAccessList).containsAddress b = true := by
  unfold prepareAccessList
  apply containsAddress_foldl_tuples
  rcases h with rfl | hto | hpre | htuple
  · -- the sender is the first address added, and stays
    left
    apply containsAddress_addAddress_of_contains
    cases «to» with
    | none => exact containsAddress_addAddress_self b
    | some «to» => exact containsAddress_addAddress_single (containsAddress_addAddress_self b)
  · left
    apply containsAddress_addAddress_of_contains
    subst hto
    exact containsAddress_addAddress_self b
  · exact .inl (containsAddress_addAddress_of_mem hpre)
  · exact .inr htuple

end AccessList

namespace JournalEntry

theorem revert_add_of_fresh {e : JournalEntry} {al : AccessList} (h : e.fresh al = true) :
    e.revert (e.add al) = al := by
  cases e with
  | accessListAddAccountChange a =>
    exact AccessList.deleteAddress_addAddress_of_not_contains (by simpa [fresh] using h)
  | accessListAddSlotChange a s =>
    exact AccessList.deleteSlot_addSlot_of_contains (by simpa [fresh] using h)

end JournalEntry

end Blade
