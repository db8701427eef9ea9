import Blade.State.Storage
import Blade.Evm.Interpreter

/-!
The dispatch of a call frame (`Transition.run`, `handleAllowBlockListsUpdate`) and the frames the
EVM builds for the call instructions (`buildCallContract`). A frame whose code address is the
address of a configured list runs the list, which authorises by the frame's caller and writes
the storage of the list's own address. A `DELEGATECALL` frame keeps the caller and the storage
address of the frame that made it: a contract called by an admin of a list can change roles
in the list by delegating to it, although its frame runs in the contract's own context.
-/

namespace Blade

open Lib

section Dispatch

variable (methods : AddressListMethods)

/-- `AddressList.Run`: the list runs on the transition's world state with the frame's caller,
input, gas and static flag. -/
def AddressList.run (a : AddressList) (c : Contract) (t : Transition) :
    ExecutionResult × Transition :=
  let (ret, gasUsed, err, st) := a.runInputCall t.state methods c.caller c.input c.gas c.static
  (⟨ret, c.gas - gasUsed, gasUsed, err, 0⟩, t.withState st)

namespace Transition

/-- `handleAllowBlockListsUpdate`: the first configured list, in the source's order, whose
address is the frame's code address runs the frame. -/
def handleAllowBlockListsUpdate (t : Transition) (c : Contract) :
    Option (ExecutionResult × Transition) :=
  let lists := [t.deploymentAllowList, t.deploymentBlockList, t.bridgeAllowList,
    t.bridgeBlockList, t.txnAllowList, t.txnBlockList]
  (lists.findSome? fun l => l.filter (·.addr = c.codeAddress)).map fun l => l.run methods c t

variable (interpret : Contract → Transition → ExecutionResult × Transition)

/-- `Transition.run`: the address lists first, then the transaction lists' check of the caller,
then the precompiles and the EVM, which `interpret` stands for. -/
def run (c : Contract) (t : Transition) : ExecutionResult × Transition :=
  match t.handleAllowBlockListsUpdate methods c with
  | some result => result
  | none =>
    let denied : Bool :=
      match t.txnAllowList, t.txnBlockList with
      | some allowed, _ => c.caller != systemCaller && !(allowed.getRole t.state c.caller).enabled
      | none, some blocked => c.caller != systemCaller && blocked.getRole t.state c.caller == enabledRole
      | none, none => false
    if denied then (.ofError 0 .notAuth, t) else interpret c t

end Transition

end Dispatch

/-- The frame `opCall` hands to `Callx` for a call instruction `op` of the frame `parent`: the
contract `buildCallContract` builds with the gas it has computed for the child and the code of
the callee, and the call's type. -/
def buildCallContract (op : Evm.CallOp) (parent : Contract) (addr : Address) (value : ℤ) (gas : ℕ)
    (code args : List UInt8) : Contract :=
  { Evm.childContract op parent addr value gas code args with type := op.callType }

namespace AddressList

variable {a : AddressList} {st : Txn}

@[simp] theorem getRole_setRole_self (addr : Address) (role : Role) :
    a.getRole (a.setRole st addr role) addr = role :=
  Txn.getState_setState_self _ _

theorem getRole_touchAccount_snapshot {b : Address} (h : b ≠ a.addr) (addr : Address) :
    a.getRole (st.snapshot.2.touchAccount b) addr = a.getRole st addr :=
  getRole_congr (Txn.getStateObject_touchAccount_ne (Ne.symm h))
    (Txn.readSnapshot_upsertAccount _ _) addr

end AddressList

namespace Transition

variable {t : Transition} {c : Contract}

theorem applyCall_of_ok {run : Contract → Transition → ExecutionResult × Transition}
    {callType : CallType} {result : ExecutionResult} {t' : Transition}
    (hdepth : c.depth ≤ 1024 + 1) (hcall : callType ≠ .call)
    (hrun : run c (t.snapshot.2.withState (t.snapshot.2.state.touchAccount c.address)) =
      (result, t'))
    (hok : result.failed = false) :
    t.applyCall run c callType = (result, t') := by
  simp only [applyCall, if_neg (Nat.not_lt.2 hdepth), if_neg hcall, hrun, hok,
    Bool.false_eq_true, if_false]

theorem run_of_deploymentAllowList {methods : AddressListMethods}
    {interpret : Contract → Transition → ExecutionResult × Transition} {L : AddressList}
    (hL : t.deploymentAllowList = some L) (hcode : c.codeAddress = L.addr) :
    t.run methods interpret c = L.run methods c t := by
  simp [run, handleAllowBlockListsUpdate, hL, hcode, Option.filter]

end Transition

theorem delegateCall_to_list_changes_role (methods : AddressListMethods)
    (interpret : Contract → Transition → ExecutionResult × Transition) (t : Transition)
    (L : AddressList) (parent : Contract) (arg code : List UInt8) (gas : ℕ)
    (hL : t.deploymentAllowList = some L) (hsig : methods.setAdmin.length = 4)
    (hread : methods.setAdmin ≠ methods.readAddressList) (harg : arg.length = 32)
    (hgas : writeAddressListCost ≤ gas) (hdepth : parent.depth + 1 ≤ 1024 + 1)
    (hstatic : parent.static = false) (hother : parent.address ≠ L.addr)
    (hadmin : L.getRole t.state parent.caller = adminRole)
    (htarget : parent.caller ≠ bytesToAddress arg)
    (hbefore : L.getRole t.state (bytesToAddress arg) ≠ adminRole) :
    let c := buildCallContract .delegateCall parent L.addr 0 gas code (methods.setAdmin ++ arg)
    let r := t.applyCall (Transition.run methods interpret) c .delegateCall
    c.codeAddress = L.addr ∧ c.address = parent.address ∧ c.caller = parent.caller ∧
      L.getRole t.state (bytesToAddress arg) ≠ adminRole ∧
      r.1.err = none ∧ L.getRole r.2.state (bytesToAddress arg) = adminRole := by
  intro c r
  obtain ⟨hcode, haddr, hcaller, hst, hinput, hgas', hdep⟩ : c.codeAddress = L.addr ∧
      c.address = parent.address ∧ c.caller = parent.caller ∧ c.static = false ∧
      c.input = methods.setAdmin ++ arg ∧ c.gas = gas ∧ c.depth = parent.depth + 1 := by
    simp [c, buildCallContract, Evm.childContract, newContractCall, hstatic]
  -- the frame's transition when the list runs: the snapshot, with the parent's address touched
  let t₁ := t.snapshot.2.withState (t.snapshot.2.state.touchAccount c.address)
  have hadmin₁ : L.getRole t₁.state c.caller = adminRole := by
    simp only [t₁, Transition.state_withState, Transition.state_snapshot, haddr, hcaller]
    rw [AddressList.getRole_touchAccount_snapshot hother]
    exact hadmin
  have hlist : L.run methods c t₁ = (⟨[], gas - writeAddressListCost, writeAddressListCost, none,
      0⟩, t₁.withState (L.setRole t₁.state (bytesToAddress arg) adminRole)) := by
    rw [AddressList.run, hinput, hgas', hst,
      AddressList.runInputCall_setAdmin hsig hread harg hgas hadmin₁ (hcaller ▸ htarget)]
  have happly : r = (⟨[], gas - writeAddressListCost, writeAddressListCost, none, 0⟩,
      t₁.withState (L.setRole t₁.state (bytesToAddress arg) adminRole)) := by
    refine Transition.applyCall_of_ok (hdep ▸ hdepth) (by decide) ?_ rfl
    show Transition.run methods interpret c t₁ = _
    rw [Transition.run_of_deploymentAllowList (t := t₁) hL hcode, hlist]
  rw [happly]
  exact ⟨hcode, haddr, hcaller, hbefore, rfl, AddressList.getRole_setRole_self _ _⟩

/-- The deployment allow list at address five, where address one is admin; address one calls
the contract at address four, which delegates `setAdmin(3)` to the list. -/
theorem delegateCall_to_list_changes_role_three :
    let methods : AddressListMethods := ⟨[1, 2, 3, 4], [5, 6, 7, 8], [9, 10, 11, 12], [13, 14, 15, 16]⟩
    let L : AddressList := ⟨5⟩
    let snapshot : ReadSnapshot :=
      ⟨fun x => if x = 5 then some ⟨1, 0, emptyRootHash, emptyCodeHash.bytes⟩ else none,
        fun _ => [], fun _ _ k => if k = bytesToHash (Address.bytes 1) then adminRole else 0⟩
    let t : Transition := ⟨⟨⟨true, true, true, true, true⟩, true, true, true, true⟩,
      ⟨1, 0, 0, 0, false, 0, 0⟩, newTxn Lru.ops snapshot, 0, some L, none, none, none, none, none, [], [],
      AccessList.newAccessList, false, [], 0⟩
    let parent : Contract := ⟨[], .call, 4, 4, 1, 1, 1, 0, [], 100000, false⟩
    let arg : List UInt8 := List.replicate 31 0 ++ [3]
    let interpret : Contract → Transition → ExecutionResult × Transition :=
      fun c t => (⟨[], c.gas, 0, none, 0⟩, t)
    let c := buildCallContract .delegateCall parent L.addr 0 30000 [] (methods.setAdmin ++ arg)
    let r := t.applyCall (Transition.run methods interpret) c .delegateCall
    c.codeAddress = L.addr ∧ c.address = parent.address ∧ c.caller = parent.caller ∧
      L.getRole t.state (bytesToAddress arg) ≠ adminRole ∧
      r.1.err = none ∧ L.getRole r.2.state (bytesToAddress arg) = adminRole := by
  intro methods L snapshot t parent arg interpret
  exact delegateCall_to_list_changes_role methods interpret t L parent arg [] 30000 rfl rfl
    (by decide) rfl (by decide) (by decide) rfl (by decide) (by decide +kernel) (by decide +kernel)
    (by decide +kernel)

end Blade
