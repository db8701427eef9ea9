import Blade.State.Txn

/-!
The address lists (`state/runtime/addresslist/addresslist.go`): a precompile at a fixed address
whose storage maps each address to its role, under the key of the address's bytes. `setAdmin`,
`setEnabled` and `setNone` write the role of the address in their argument, and only for a
caller whose role is admin, never the caller's own; `readAddressList` reads it.

The list reads and writes the storage of its own address, whatever frame runs it: what frame
that is, is decided by `Transition.run`, on the frame's code address alone.
-/

namespace Blade

/-- `Role`: the stored word itself, so that any value a slot holds is a role. -/
abbrev Role := Hash

def noRole : Role := 0

def enabledRole : Role := 1

def adminRole : Role := 2

def Role.enabled (r : Role) : Bool := r == adminRole || r == enabledRole

/-- The selectors of the list's four functions, the first four bytes of the Keccak-256 hash of
their signatures. -/
structure AddressListMethods where
  setAdmin : List UInt8
  setEnabled : List UInt8
  setNone : List UInt8
  readAddressList : List UInt8

def writeAddressListCost : ℕ := 20000

def readAddressListCost : ℕ := 5000

def signatureSize : ℕ := 4

structure AddressList where
  addr : Address

namespace AddressList

variable (a : AddressList) (st : Txn)

def getRole (addr : Address) : Role := st.getState a.addr (bytesToHash addr.bytes)

def setRole (addr : Address) (role : Role) : Txn := st.setState a.addr (bytesToHash addr.bytes) role

section Run

variable (methods : AddressListMethods)

/-- `runInputCall`: the return value, the gas used, the error, and the state after the call. -/
def runInputCall (caller : Address) (input : List UInt8) (gas : ℕ) (isStatic : Bool) :
    List UInt8 × ℕ × Option RuntimeError × Txn :=
  if input.length < signatureSize then ([], 0, some .noFunctionSignature, st)
  else
    let sig := input.take 4
    let inputBytes := input.drop 4
    if inputBytes.length ≠ 32 then ([], 0, some .inputTooShort, st)
    else
      let inputAddr := bytesToAddress inputBytes
      if sig = methods.readAddressList then
        if gas < readAddressListCost then ([], 0, some .outOfGas, st)
        else ((a.getRole st inputAddr).bytes, readAddressListCost, none, st)
      else
        let updateRole : Option Role :=
          if sig = methods.setAdmin then some adminRole
          else if sig = methods.setEnabled then some enabledRole
          else if sig = methods.setNone then some noRole
          else none
        match updateRole with
        | none => ([], 0, some .functionNotFound, st)
        | some updateRole =>
          -- a failed gas check has not set the gas used yet
          if gas < writeAddressListCost then ([], 0, some .outOfGas, st)
          else if isStatic then ([], writeAddressListCost, some .writeProtection, st)
          else
            let addrRole := a.getRole st caller
            if addrRole ≠ adminRole then ([], writeAddressListCost, some .notAuth, st)
            else if caller = inputAddr then ([], writeAddressListCost, some .adminSelfRemove, st)
            else ([], writeAddressListCost, none, a.setRole st inputAddr updateRole)

end Run

variable {a : AddressList} {st st' : Txn}

theorem getRole_congr (h : st'.getStateObject a.addr = st.getStateObject a.addr)
    (hr : st'.readSnapshot = st.readSnapshot) (addr : Address) :
    a.getRole st' addr = a.getRole st addr := by
  simp only [getRole, Txn.getState, h, hr]

variable {methods : AddressListMethods} {caller : Address} {input : List UInt8} {gas : ℕ}
  {isStatic : Bool}

theorem runInputCall_of_write
    (h : (a.runInputCall st methods caller input gas isStatic).2.2.2 ≠ st) :
    isStatic = false ∧ a.getRole st caller = adminRole ∧ caller ≠ bytesToAddress (input.drop 4) ∧
      (a.runInputCall st methods caller input gas isStatic).2.2.1 = none ∧
      ∃ role, (a.runInputCall st methods caller input gas isStatic).2.2.2 =
        a.setRole st (bytesToAddress (input.drop 4)) role := by
  unfold runInputCall at h ⊢
  -- every branch but the last returns the state it was given
  by_cases h₁ : input.length < signatureSize
  · rw [if_pos h₁] at h
    exact absurd rfl h
  rw [if_neg h₁] at h ⊢
  by_cases h₂ : (input.drop 4).length ≠ 32
  · rw [if_pos h₂] at h
    exact absurd rfl h
  rw [if_neg h₂] at h ⊢
  by_cases h₃ : input.take 4 = methods.readAddressList
  · rw [if_pos h₃] at h
    by_cases h₄ : gas < readAddressListCost
    · rw [if_pos h₄] at h
      exact absurd rfl h
    · rw [if_neg h₄] at h
      exact absurd rfl h
  rw [if_neg h₃] at h ⊢
  generalize (if input.take 4 = methods.setAdmin then some adminRole
    else if input.take 4 = methods.setEnabled then some enabledRole
    else if input.take 4 = methods.setNone then some noRole else none) = updateRole at h ⊢
  cases updateRole with
  | none => exact absurd rfl h
  | some role =>
    dsimp only at h ⊢
    by_cases h₄ : gas < writeAddressListCost
    · rw [if_pos h₄] at h
      exact absurd rfl h
    rw [if_neg h₄] at h ⊢
    cases isStatic with
    | true => exact absurd rfl h
    | false =>
      rw [if_neg Bool.false_ne_true] at h ⊢
      by_cases h₅ : a.getRole st caller ≠ adminRole
      · rw [if_pos h₅] at h
        exact absurd rfl h
      rw [if_neg h₅] at h ⊢
      by_cases h₆ : caller = bytesToAddress (input.drop 4)
      · rw [if_pos h₆] at h
        exact absurd rfl h
      rw [if_neg h₆]
      exact ⟨rfl, not_not.1 h₅, h₆, rfl, role, rfl⟩

theorem runInputCall_setAdmin {arg : List UInt8} (hsig : methods.setAdmin.length = 4)
    (hread : methods.setAdmin ≠ methods.readAddressList) (harg : arg.length = 32)
    (hgas : writeAddressListCost ≤ gas) (hadmin : a.getRole st caller = adminRole)
    (hself : caller ≠ bytesToAddress arg) :
    a.runInputCall st methods caller (methods.setAdmin ++ arg) gas false =
      ([], writeAddressListCost, none, a.setRole st (bytesToAddress arg) adminRole) := by
  have htake : (methods.setAdmin ++ arg).take 4 = methods.setAdmin := List.take_left' hsig
  have hdrop : (methods.setAdmin ++ arg).drop 4 = arg := List.drop_left' hsig
  have hlen : ¬ (methods.setAdmin ++ arg).length < signatureSize := by
    simp [signatureSize, hsig, harg]
  simp only [runInputCall, hlen, htake, hdrop, harg, hread, hadmin, hself, if_false, if_true,
    ne_eq, not_true_eq_false, Nat.not_lt.2 hgas, Bool.false_eq_true]

end AddressList

end Blade
