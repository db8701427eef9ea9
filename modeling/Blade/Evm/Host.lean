import Blade.Evm.Runs
import Blade.State.Gas

/-!
The executor as the interpreter's host (`state/executor.go`: the `runtime.Host` methods of
`Transition` and the runtimes of `Transition.run`; `state/runtime/precompiled/precompiled.go`).

`Transition.run` stands on `interpret`, the precompiles and the EVM. Here they are filled in,
and the host the EVM is given is the transition itself, whose `Callx` runs the nested frame
through `applyCall` or `applyCreate` and so through `Transition.run` again. The executor bounds
that recursion by the depth check of `applyCall` and `applyCreate`; the model bounds it by a
number `n` of nested frames (`Transition.runNested`) and gives a frame past it the depth error.

At every bound a frame returns at most the gas it was given: the precompiles charge before they
run, the EVM spends (`EVM.run_gasLeft_le`) with a host that gives back no more than a call got
(`returnsGas_host`), and that is what the frames of `Gas` need, by induction on the bound. So a
transaction applied with the executor's own runtimes creates no gas.
-/

namespace Blade

open Evm

/-- A precompiled contract: its price for an input under the forks, and its run on the input and
the caller, with the transition as host. -/
structure Precompile where
  gas : List UInt8 → VmForks → ℕ
  run : List UInt8 → Address → Transition → (List UInt8 × Option RuntimeError) × Transition

namespace Precompile

/-- `Precompiled.Run` with the contract `p` registered at the frame's code address: the price is
taken first, and a failed run keeps neither gas nor output. -/
def runFrame (p : Precompile) (c : Contract) (t : Transition) (config : VmForks) :
    ExecutionResult × Transition :=
  let gasCost := p.gas c.input config
  -- in the case of not enough gas for precompiled execution we return ErrOutOfGas
  if c.gas < gasCost then (.ofError 0 .outOfGas, t)
  else
    let (out, t) := p.run c.input c.caller t
    let result : ExecutionResult := ⟨out.1, c.gas - gasCost, 0, out.2, 0⟩
    if result.failed then ({ result with gasLeft := 0, returnValue := [] }, t) else (result, t)

theorem runFrame_gasLeft_le (p : Precompile) (c : Contract) (t : Transition) (config : VmForks) :
    (p.runFrame c t config).1.gasLeft ≤ c.gas := by
  unfold runFrame
  dsimp only
  split
  · exact Nat.zero_le _
  · split
    · exact Nat.zero_le _
    · exact Nat.sub_le _ _

end Precompile

namespace Precompiled

/-- The forks a precompile's address needs: the Byzantium ones (5 to 8) and the Istanbul one (9);
the others are always on. -/
def enabled (addr : Address) (config : VmForks) : Bool :=
  if addr = 5 ∨ addr = 6 ∨ addr = 7 ∨ addr = 8 then config.byzantium
  else if addr = 9 then config.istanbul
  else true

/-- `Precompiled.CanRun`, with the contract that `Precompiled.Run` then looks up again under the
same address. -/
def canRun (contracts : Address → Option Precompile) (c : Contract) (config : VmForks) :
    Option Precompile :=
  (contracts c.codeAddress).filter fun _ => enabled c.codeAddress config

end Precompiled

/-- What Go's `Transition` holds that the model of the executor does not keep and the interpreter
reads: `getHash`, the fields of `runtime.TxContext` besides those of `TxContext`, and the fork
flags of `chain.ForksInTime` besides those of `TransitionForks`. -/
structure HostEnv where
  getHash : UInt64 → Hash
  number : UInt64
  timestamp : UInt64
  gasLimit : UInt64
  difficulty : Hash
  byzantium : Bool
  eip150 : Bool
  eip3855 : Bool

namespace HostEnv

variable (env : HostEnv)

def forks (config : TransitionForks) : VmForks :=
  ⟨config, env.byzantium, env.eip150, env.eip3855⟩

def txContext (ctx : Blade.TxContext) : Evm.TxContext :=
  ⟨ctx, env.number, env.timestamp, env.gasLimit, env.difficulty⟩

end HostEnv

namespace Transition

/-- `Selfdestruct`: before London a first self-destruct of `addr` earns the refund of 24000; the
balance goes to the beneficiary and `addr` is marked. -/
def selfdestruct (t : Transition) (addr beneficiary : Address) : Transition :=
  let st := if !t.config.london && !t.state.hasSuicided addr then t.state.addRefund 24000
    else t.state
  let st := st.addBalance beneficiary (st.getBalance addr)
  t.withState (st.suicide addr).2

section Host

variable (methods : AddressListMethods) (env : HostEnv)
  (contracts : Address → Option Precompile) (keccak256 : List UInt8 → List UInt8)
  (createAddress : Address → ℕ → Address) (createAddress2 : Address → Hash → List UInt8 → Address)
  (run : Contract → Transition → ExecutionResult × Transition)

/-- `Callx`: a creation frame goes to `applyCreate`, any other to `applyCall` with its own type;
both run the frame with `run`. -/
def callx (t : Transition) (c : Contract) : ExecutionResult × Transition :=
  if c.type = .create then t.applyCreate run keccak256 c else t.applyCall run c c.type

/-- The `runtime.Host` methods of `Transition`, each one its `Txn`'s or its own; the model's
`Txn` keeps no logs, so `EmitLog` leaves the transition as it is. -/
def host : Host Transition where
  accountExists t addr := t.state.exist addr
  getStorage t addr key := t.state.getState addr key
  setStorage t addr key value config :=
    let (status, st) := t.state.setStorage addr key value config
    (status, t.withState st)
  getBalance t addr := t.state.getBalance addr
  getCodeSize t addr :=
    let (size, st) := t.state.getCodeSize addr
    (size, t.withState st)
  getCodeHash t addr := t.state.getCodeHash addr
  getCode t addr :=
    let (code, st) := t.state.getCode addr
    (code, t.withState st)
  selfdestruct t addr beneficiary := t.selfdestruct addr beneficiary
  getTxContext t := env.txContext t.ctx
  getBlockHash _ number := env.getHash number
  emitLog t _ _ _ := t
  callx t c := t.callx keccak256 run c
  empty t addr := t.state.empty addr
  getNonce t addr := t.state.getNonce addr
  addSlotToAccessList t addr slot := t.addSlotToAccessList addr slot
  addAddressToAccessList t addr := t.addAddressToAccessList addr
  containsAccessListAddress t addr := t.containsAccessListAddress addr
  containsAccessListSlot t addr slot := t.containsAccessListSlot addr slot

/-- The runtimes of `Transition.run` after the list checks: a precompile at the frame's code
address, if one is on, otherwise the EVM, which runs every frame, with the transition as host. -/
def interpret (c : Contract) (t : Transition) : ExecutionResult × Transition :=
  let config := env.forks t.config
  -- check the precompiles
  match Precompiled.canRun contracts c config with
  | some p => p.runFrame c t config
  | none => EVM.run (host env keccak256 run) keccak256 createAddress createAddress2 c t config

/-- `Transition.run` with its runtimes, the frames of `Callx` nested at most `n` deep; a frame
past the bound gets the depth error with its gas, as `applyCall` gives one past depth 1025. -/
def runNested : ℕ → Contract → Transition → ExecutionResult × Transition
  | 0, c, t => (.ofError c.gas .depth, t)
  | n + 1, c, t =>
    t.run methods (interpret env contracts keccak256 createAddress createAddress2 (runNested n)) c

end Host

section Gas

variable {methods : AddressListMethods} {env : HostEnv}
  {contracts : Address → Option Precompile} {keccak256 : List UInt8 → List UInt8}
  {createAddress : Address → ℕ → Address} {createAddress2 : Address → Hash → List UInt8 → Address}
  {run : Contract → Transition → ExecutionResult × Transition}

theorem returnsGas_host (hrun : ∀ c t, (run c t).1.gasLeft ≤ c.gas) :
    ReturnsGas (host env keccak256 run) := by
  intro t c
  show (t.callx keccak256 run c).1.gasLeft ≤ c.gas
  unfold callx
  split
  · exact applyCreate_gasLeft_le hrun keccak256 t c
  · exact applyCall_gasLeft_le hrun t c c.type

theorem interpret_gasLeft_le (hrun : ∀ c t, (run c t).1.gasLeft ≤ c.gas) (c : Contract)
    (t : Transition) :
    (interpret env contracts keccak256 createAddress createAddress2 run c t).1.gasLeft ≤ c.gas := by
  unfold interpret
  dsimp only
  split
  · exact Precompile.runFrame_gasLeft_le _ c t _
  · exact EVM.run_gasLeft_le _ keccak256 createAddress createAddress2 (returnsGas_host hrun) c t _

/-- Every frame returns at most its gas, at every bound on the nesting: by induction on the
bound, the frames one level down are the `run` the frames of this level need. -/
theorem runNested_gasLeft_le (n : ℕ) (c : Contract) (t : Transition) :
    (runNested methods env contracts keccak256 createAddress createAddress2 n c t).1.gasLeft ≤
      c.gas := by
  induction n generalizing c t with
  | zero => exact le_rfl
  | succ n ih =>
    exact run_gasLeft_le methods _ (interpret_gasLeft_le ih) c t

theorem apply_gas_of_frames (hrun : ∀ c t, (run c t).1.gasLeft ≤ c.gas) {t t' : Transition}
    {msg : Transaction} {result : ExecutionResult}
    (h : t.apply run keccak256 createAddress msg = .ok result t') :
    ∃ intrinsic used : ℕ,
      transactionGasCost msg t.config.homestead t.config.istanbul = .ok intrinsic ∧
      intrinsic ≤ used ∧ used ≤ msg.gas ∧ result.gasUsed ≤ used ∧
      result.gasUsed + result.gasLeft = msg.gas ∧
      used - result.gasUsed ≤ used / (if t'.config.london then 5 else 2) := by
  obtain ⟨intrinsic, r, refund, hcost, hle, hleft, rfl⟩ := apply_eq_ok hrun keccak256 createAddress h
  have hr : r.gasLeft ≤ msg.gas := hleft.trans (Nat.sub_le _ _)
  obtain ⟨hsum, hmono, hrefund⟩ := ExecutionResult.updateGasUsed_spec r msg.gas refund
    (if t'.config.london then 5 else 2) hr
  -- the used gas before the refund is what the message's frame left of the limit
  refine ⟨intrinsic, msg.gas - r.gasLeft, hcost, by omega, Nat.sub_le _ _, by omega, hsum, ?_⟩
  calc msg.gas - r.gasLeft - (r.updateGasUsed msg.gas refund _).gasUsed
      = (r.updateGasUsed msg.gas refund _).gasLeft - r.gasLeft := by omega
    _ ≤ _ := hrefund

end Gas

end Transition

end Blade
