import Blade.Evm.Memory
import Blade.State.Storage
import Blade.StakeManager

/-!
The instructions of the EVM interpreter (`state/runtime/evm/instructions.go`, `state.go`).

A frame (`Frame`) is Go's `state`: the part the memory instructions of `Evm.Memory` work on
(stack, memory, gas, the stop flag and the errors they raise, the code, the input, the return
buffers), the instruction pointer, the message, the fork flags, the jump-destination bitmap and
the host. The host (`runtime.Host`, implemented by the executor's `Transition`) is a record of
functions over its state: the reads the interpreter makes, and the writes (`SetStorage`,
`EmitLog`, `Selfdestruct`, `Callx`, the access-list additions, and `GetCode`, which fills the
code cache) that return the new state.

Go's one `err` field is split in two: `st.err` holds the four errors the memory model names and
`vmErr` the others (`Frame.err` reads them as the one error); the loop of `Run` stops at the first,
so the two are never both set in a run.

The operations of `holiman/uint256` are in `Uint256`: `+`, `-`, `*` of `Fin (2 ^ 256)` wrap as the
library's do, a division or a remainder by zero is zero, and the signed operations read a word as
a two's complement integer.
-/

namespace Blade

/-- `runtime.ErrExecutionReverted`, which `Reverted` tests for. -/
def errExecutionReverted : RuntimeError := .vm "execution reverted"

namespace ExecutionResult

def succeeded (r : ExecutionResult) : Bool := r.err.isNone

def reverted (r : ExecutionResult) : Bool := r.err == some errExecutionReverted

end ExecutionResult

namespace Evm

open Lib.Rlp

/-! ## `holiman/uint256` -/

namespace Uint256

/-- The word as a two's complement integer. -/
def toInt (x : U256) : ℤ := if x.val < 2 ^ 255 then x.val else (x.val : ℤ) - 2 ^ 256

def ofInt (z : ℤ) : U256 := Fin.ofNat _ (z % 2 ^ 256).toNat

/-- `Mod`: zero for a zero modulus. -/
def mod (x y : U256) : U256 := if y = 0 then 0 else x % y

/-- `SDiv`: the signed quotient, rounded towards zero; zero for a zero divisor. -/
def sdiv (x y : U256) : U256 := ofInt ((toInt x).tdiv (toInt y))

/-- `SMod`: the remainder with the sign of `x`; zero for a zero divisor. -/
def smod (x y : U256) : U256 := if y = 0 then 0 else ofInt ((toInt x).tmod (toInt y))

def exp (base exponent : U256) : U256 := Fin.ofNat _ (base.val ^ exponent.val)

/-- `AddMod`: the sum in full precision modulo `m`; zero for a zero modulus. -/
def addMod (x y m : U256) : U256 := if m = 0 then 0 else Fin.ofNat _ ((x.val + y.val) % m.val)

def mulMod (x y m : U256) : U256 := if m = 0 then 0 else Fin.ofNat _ (x.val * y.val % m.val)

/-- `z.Byte(n)`: byte `n` of `z` read as 32 big-endian bytes; zero past the last. -/
def byte (n z : U256) : U256 :=
  if n.val < 32 then Fin.ofNat _ (z.val / 256 ^ (31 - n.val) % 256) else 0

/-- `ExtendSign`: `x` read as a signed number of `byteNum + 1` bytes; `x` itself from 31 bytes
on. The bits above the sign bit are set to it. -/
def extendSign (x byteNum : U256) : U256 :=
  if 30 < byteNum.val then x
  else
    let bit := byteNum.val * 8 + 7
    if x.val.testBit bit then Fin.ofNat _ (2 ^ 256 - 2 ^ bit + x.val % 2 ^ bit)
    else Fin.ofNat _ (x.val % 2 ^ bit)

def lsh (x : U256) (n : ℕ) : U256 := Fin.ofNat _ (x.val * 2 ^ n)

def rsh (x : U256) (n : ℕ) : U256 := Fin.ofNat _ (x.val / 2 ^ n)

/-- `SRsh`: the arithmetic shift, which rounds towards minus infinity. -/
def srsh (x : U256) (n : ℕ) : U256 := ofInt (toInt x / 2 ^ n)

def slt (x y : U256) : Bool := decide (toInt x < toInt y)

def sgt (x y : U256) : Bool := decide (toInt y < toInt x)

def bitLen (x : U256) : ℕ := if x.val = 0 then 0 else x.val.log2 + 1

def sign (x : U256) : ℤ := if x = 0 then 0 else if x.val < 2 ^ 255 then 1 else -1

/-- `FromBig`: the integer modulo `2 ^ 256`, and whether it did not fit. -/
def fromBig (b : ℤ) : U256 × Bool := (ofInt b, decide (2 ^ 256 ≤ b.natAbs))

end Uint256

/-- `types.BytesToAddress(v.Bytes())`: the low 160 bits. -/
def addressOf (v : U256) : Address := Fin.ofNat _ v.val

/-- `SetBytes(addr.Bytes())`. -/
def addressToWord (a : Address) : U256 := Fin.ofNat _ a.val

/-! ## The frame -/

/-- `chain.ForksInTime` as the interpreter reads it. -/
structure VmForks extends TransitionForks where
  byzantium : Bool
  eip150 : Bool
  eip3855 : Bool

/-- `runtime.TxContext` as the interpreter reads it. -/
structure TxContext extends Blade.TxContext where
  number : UInt64
  timestamp : UInt64
  gasLimit : UInt64
  difficulty : Hash

/-- `runtime.Host` over the host's state `H`. -/
structure Host (H : Type) where
  accountExists : H → Address → Bool
  getStorage : H → Address → Hash → Hash
  setStorage : H → Address → Hash → Hash → TransitionForks → StorageStatus × H
  getBalance : H → Address → ℤ
  getCodeSize : H → Address → ℕ × H
  getCodeHash : H → Address → Hash
  getCode : H → Address → List UInt8 × H
  selfdestruct : H → Address → Address → H
  getTxContext : H → TxContext
  getBlockHash : H → UInt64 → Hash
  emitLog : H → Address → List Hash → List UInt8 → H
  callx : H → Contract → ExecutionResult × H
  empty : H → Address → Bool
  getNonce : H → Address → ℕ
  addSlotToAccessList : H → Address → Hash → H
  addAddressToAccessList : H → Address → H
  containsAccessListAddress : H → Address → Bool
  containsAccessListSlot : H → Address → Hash → Bool × Bool

/-- The interpreter's errors besides those of `Evm.Memory`, one per Go value. -/
inductive VmError
  | gasUintOverflow
  | writeProtection
  | invalidJump
  | invalidBalanceValue
  | invalidMessageValue
  | stackUnderflow (stackLen required : ℕ)
  | stackOverflow (stackLen limit : ℕ)
  | stackOutOfBounds (stackLen requestedIndex : ℕ)
  deriving DecidableEq, Repr

def stackSize : ℕ := 1024

def coldAccountAccessCostEIP2929 : UInt64 := 2600

def coldStorageReadCostEIP2929 : UInt64 := 2100

def warmStorageReadCostEIP2929 : UInt64 := 100

/-- The error values as the host sees them in an `ExecutionResult`. -/
def Error.toRuntime : Error → RuntimeError
  | .outOfGas => .outOfGas
  | .returnDataOutOfBounds => .vm "return data out of bounds"
  | .opCodeNotFound => .vm "opcode not found"
  | .revert => errExecutionReverted

def VmError.toRuntime : VmError → RuntimeError
  | .gasUintOverflow => .vm "gas uint64 overflow"
  | .writeProtection => .vm "write protection"
  | .invalidJump => .vm "invalid jump destination"
  | .invalidBalanceValue => .vm "invalid balance value"
  | .invalidMessageValue => .vm "invalid message value"
  | .stackUnderflow stackLen required => .vm s!"stack underflow ({stackLen} <=> {required})"
  | .stackOverflow stackLen limit => .vm s!"stack limit reached {stackLen} ({limit})"
  | .stackOutOfBounds stackLen requestedIndex =>
    .vm s!"accessing index out of bounds (index={requestedIndex}, stack length={stackLen})"

/-- The interpreter's `state`; the stack's top is the head of `st.stack`. -/
structure Frame (H : Type) where
  st : State
  ip : ℤ
  msg : Contract
  config : VmForks
  bitmap : Bitmap
  host : H
  vmErr : Option VmError

namespace Frame

variable {H : Type} (s : Frame H)

def stop : Bool := s.st.stop

def gas : UInt64 := s.st.gas

def err : Option RuntimeError :=
  match s.vmErr with
  | some e => some e.toRuntime
  | none => s.st.err.map Error.toRuntime

def mapSt (f : State → State) : Frame H := { s with st := f s.st }

/-- `exit` with one of the errors of this module. -/
def exit (e : VmError) : Frame H := { s with st := { s.st with stop := true }, vmErr := some e }

/-- `exit` with one of the errors of `Evm.Memory`. -/
def exitMem (e : Error) : Frame H := s.mapSt (·.exit e)

def halt : Frame H := s.mapSt State.halt

def consumeGas (g : UInt64) : Bool × Frame H :=
  let (ok, st) := s.st.consumeGas g
  (ok, { s with st })

def pop : U256 × Frame H :=
  let (v, st) := s.st.pop
  (v, { s with st })

def push (v : U256) : Frame H := s.mapSt (·.push v)

def popAddr : Address × Frame H :=
  let (v, s) := s.pop
  (addressOf v, s)

/-- The top replaced, as the instructions that write through `top()` do. -/
def setTop (f : U256 → U256) : Frame H := s.mapSt fun c => { c with stack := c.stack.modifyHead f }

/-- `peekAt(n)`: the `n`-th word from the top, counting from one. -/
def peekAt (n : ℕ) : Except VmError U256 :=
  if s.st.stack.length < n then .error (.stackOutOfBounds s.st.stack.length n)
  else .ok (s.st.stack.getD (n - 1) 0)

/-- `swap(n)`: the top exchanged with the word `n` below it. -/
def swap (n : ℕ) : Except VmError (Frame H) :=
  let stack := s.st.stack
  if stack.length = 0 ∨ stack.length ≤ n then .error (.stackOutOfBounds stack.length n)
  else .ok (s.mapSt fun c => { c with stack := (stack.set 0 (stack.getD n 0)).set n (stack.getD 0 0) })

def allocateMemory (offset size : U256) : Bool × Frame H :=
  let (ok, st) := s.st.allocateMemory offset size
  (ok, { s with st })

def get2 (dst : List UInt8) (offset length : U256) : (List UInt8 × Bool) × Frame H :=
  let (r, st) := s.st.get2 dst offset length
  (r, { s with st })

def resetReturnData : Frame H := s.mapSt fun c => { c with returnData := [] }

def validJumpdest (dest : U256) : Bool := Evm.validJumpdest s.st.code s.bitmap dest

/-- `CurrentOpCode`: `STOP` and `false` past the end of the code. -/
def currentOpCode : UInt8 × Bool :=
  if (s.st.code.length : ℤ) ≤ s.ip then (0x00, false) else (s.st.code.getD s.ip.toNat 0, true)

end Frame

/-! ## The instructions -/

section Instructions

variable {H : Type} (host : Host H)

namespace Frame

variable (s : Frame H)

/-- `calculateGasForEIP2929`: a warm address costs the warm read, a cold one the cold access and
is made warm. -/
def calculateGasForEIP2929 (addr : Address) : UInt64 × Frame H :=
  if host.containsAccessListAddress s.host addr then (warmStorageReadCostEIP2929, s)
  else (coldAccountAccessCostEIP2929, { s with host := host.addAddressToAccessList s.host addr })

end Frame

open Blade.Evm.Frame

/-- The instructions that pop `a` and replace the next word `b` by `f a b`. -/
def binaryOp (f : U256 → U256 → U256) (c : State) : State :=
  let (a, c) := c.pop
  { c with stack := c.stack.modifyHead (f a) }

def unaryOp (f : U256 → U256) (c : State) : State := { c with stack := c.stack.modifyHead f }

/-- `ADDMOD` and `MULMOD`: two words popped, the third replaced. -/
def ternaryOp (f : U256 → U256 → U256 → U256) (c : State) : State :=
  let (a, c) := c.pop
  let (b, c) := c.pop
  { c with stack := c.stack.modifyHead (f a b) }

/-- A comparison: one for true, zero for false. -/
def ofBool (b : Bool) : U256 := if b then 1 else 0

def opAdd : State → State := binaryOp (· + ·)

def opMul : State → State := binaryOp (· * ·)

def opSub : State → State := binaryOp (· - ·)

def opDiv : State → State := binaryOp (· / ·)

def opSDiv : State → State := binaryOp Uint256.sdiv

def opMod : State → State := binaryOp Uint256.mod

def opSMod : State → State := binaryOp Uint256.smod

def opAddMod : State → State := ternaryOp Uint256.addMod

def opMulMod : State → State := ternaryOp Uint256.mulMod

def opAnd : State → State := binaryOp fun a b => Fin.ofNat _ (a.val &&& b.val)

def opOr : State → State := binaryOp fun a b => Fin.ofNat _ (a.val ||| b.val)

def opXor : State → State := binaryOp fun a b => Fin.ofNat _ (a.val ^^^ b.val)

def opByte : State → State := binaryOp Uint256.byte

def opNot : State → State := unaryOp fun a => Fin.ofNat _ (2 ^ 256 - 1 - a.val)

def opIsZero : State → State := unaryOp fun a => ofBool (a = 0)

def opEq : State → State := binaryOp fun a b => ofBool (a = b)

def opLt : State → State := binaryOp fun a b => ofBool (a < b)

def opGt : State → State := binaryOp fun a b => ofBool (b < a)

def opSlt : State → State := binaryOp fun a b => ofBool (Uint256.slt a b)

def opSgt : State → State := binaryOp fun a b => ofBool (Uint256.sgt a b)

def opSignExtension : State → State := binaryOp fun ext x => Uint256.extendSign x ext

def opPop (c : State) : State := c.pop.2

def opStop (s : Frame H) : Frame H := s.halt

def opExp (s : Frame H) : Frame H :=
  let (x, s) := s.pop
  let y := s.st.stack.headD 0
  let gas : UInt64 := if s.config.eip158 then 50 else 10
  let gasCost := UInt64.ofNat ((Uint256.bitLen y + 7) / 8) * gas
  match s.consumeGas gasCost with
  | (false, s) => s
  | (true, s) => s.setTop (Uint256.exp x)

/-- `SHL`, `SHR` and `SAR`: Constantinople instructions, the shift popped and the value
replaced. -/
def shiftOp (f : U256 → U256 → U256) (s : Frame H) : Frame H :=
  if !s.config.constantinople then s.exitMem .opCodeNotFound else s.mapSt (binaryOp f)

def opShl : Frame H → Frame H :=
  shiftOp fun shift value => if shift.val < 256 then Uint256.lsh value shift.val else 0

def opShr : Frame H → Frame H :=
  shiftOp fun shift value => if shift.val < 256 then Uint256.rsh value shift.val else 0

def opSar : Frame H → Frame H :=
  shiftOp fun shift value =>
    if 8 < Uint256.bitLen shift then (if 0 ≤ Uint256.sign value then 0 else Fin.ofNat _ (2 ^ 256 - 1))
    else Uint256.srsh value shift.val

/-! ### Context -/

def opAddress (s : Frame H) : Frame H := s.push (addressToWord s.msg.address)

def opBalance (s : Frame H) : Frame H :=
  let (addr, s) := s.popAddr
  let (gas, s) :=
    if s.config.berlin then s.calculateGasForEIP2929 host addr
    else if s.config.istanbul then (700, s)
    else if s.config.eip150 then (400, s)
    else (20, s)
  match s.consumeGas gas with
  | (false, s) => s
  | (true, s) =>
    let (uintBalance, invalidBalanceValue) := Uint256.fromBig (host.getBalance s.host addr)
    let s := if invalidBalanceValue then s.exit .invalidBalanceValue else s
    s.push uintBalance

def opSelfBalance (s : Frame H) : Frame H :=
  if !s.config.istanbul then s.exitMem .opCodeNotFound
  else
    let (uintBalance, invalidBalanceValue) := Uint256.fromBig (host.getBalance s.host s.msg.address)
    let s := if invalidBalanceValue then s.exit .invalidBalanceValue else s
    s.push uintBalance

def opChainID (s : Frame H) : Frame H :=
  if !s.config.istanbul then s.exitMem .opCodeNotFound
  else s.push (Fin.ofNat _ ((host.getTxContext s.host).chainID % 2 ^ 64).toNat)

def opOrigin (s : Frame H) : Frame H := s.push (addressToWord (host.getTxContext s.host).origin)

def opCaller (s : Frame H) : Frame H := s.push (addressToWord s.msg.caller)

def opCallValue (s : Frame H) : Frame H :=
  let (uintValue, invalidMessageValue) := Uint256.fromBig s.msg.value
  let s := if invalidMessageValue then s.exit .invalidMessageValue else s
  s.push uintValue

/-- `CALLDATALOAD`: the 32 bytes of the input at the offset, zeros past its end. -/
def opCallDataLoad (c : State) : State :=
  unaryOp (fun offset => Fin.ofNat _ (ofBytesBE (State.setBytes (List.replicate 32 0) c.input 32 offset))) c

def opCallDataSize (c : State) : State := c.push (Fin.ofNat _ c.input.length)

def opCodeSize (c : State) : State := c.push (Fin.ofNat _ c.code.length)

def opExtCodeSize (s : Frame H) : Frame H :=
  let (addr, s) := s.popAddr
  let (gas, s) :=
    if s.config.berlin then s.calculateGasForEIP2929 host addr
    else if s.config.eip150 then (700, s)
    else (20, s)
  match s.consumeGas gas with
  | (false, s) => s
  | (true, s) =>
    let (size, h) := host.getCodeSize s.host addr
    ({ s with host := h } : Frame H).push (Fin.ofNat _ size)

def opGasPrice (s : Frame H) : Frame H := s.push (host.getTxContext s.host).gasPrice

def opReturnDataSize (c : State) : State :=
  if !c.byzantium then c.exit .opCodeNotFound else c.push (Fin.ofNat _ c.returnData.length)

def opExtCodeHash (s : Frame H) : Frame H :=
  if !s.config.constantinople then s.exitMem .opCodeNotFound
  else
    let (address, s) := s.popAddr
    let (gas, s) :=
      if s.config.berlin then s.calculateGasForEIP2929 host address
      else if s.config.istanbul then (700, s)
      else (400, s)
    match s.consumeGas gas with
    | (false, s) => s
    | (true, s) => s.push (if !host.empty s.host address then host.getCodeHash s.host address else 0)

def opPC (s : Frame H) : Frame H := s.push (Fin.ofNat _ s.ip.toNat)

def opMSize (c : State) : State := c.push (Fin.ofNat _ c.memory.length)

def opGas (c : State) : State := c.push (Fin.ofNat _ c.gas.toNat)

def opExtCodeCopy (s : Frame H) : Frame H :=
  let (address, s) := s.popAddr
  let (memOffset, s) := s.pop
  let (codeOffset, s) := s.pop
  let (length, s) := s.pop
  match s.allocateMemory memOffset length with
  | (false, s) => s
  | (true, s) =>
    let size := toUint64 length
    match s.consumeGas ((size + 31) / 32 * copyGas) with
    | (false, s) => s
    | (true, s) =>
      let (gas, s) :=
        if s.config.berlin then s.calculateGasForEIP2929 host address
        else if s.config.eip150 then (700, s)
        else (20, s)
      match s.consumeGas gas with
      | (false, s) => s
      | (true, s) =>
        let (code, h) := host.getCode s.host address
        let s := { s with host := h }
        if size ≠ 0 then
          s.mapSt fun c =>
            let o := (toUint64 memOffset).toNat
            { c with memory := c.memory.take o ++ State.setBytes (c.memory.drop o) code size codeOffset }
        else s

/-! ### Block information -/

def opBlockHash (s : Frame H) : Frame H :=
  let num := s.st.stack.headD 0
  if !isUint64 num then s.setTop fun _ => 0
  else
    let num64 := toUint64 num
    let upper := (host.getTxContext s.host).number
    let lower : UInt64 := if upper < 257 then 0 else upper - 256
    if lower ≤ num64 ∧ num64 < upper then s.setTop fun _ => host.getBlockHash s.host num64
    else s.setTop fun _ => 0

def opCoinbase (s : Frame H) : Frame H := s.push (addressToWord (host.getTxContext s.host).coinbase)

def opTimestamp (s : Frame H) : Frame H :=
  s.push (Fin.ofNat _ (host.getTxContext s.host).timestamp.toNat)

def opNumber (s : Frame H) : Frame H := s.push (Fin.ofNat _ (host.getTxContext s.host).number.toNat)

def opDifficulty (s : Frame H) : Frame H := s.push (host.getTxContext s.host).difficulty

def opGasLimit (s : Frame H) : Frame H :=
  s.push (Fin.ofNat _ (host.getTxContext s.host).gasLimit.toNat)

def opBaseFee (s : Frame H) : Frame H :=
  if !s.config.london then s.exitMem .opCodeNotFound
  else s.push (Fin.ofNat _ (host.getTxContext s.host).baseFee)

/-! ### Storage -/

def opSload (s : Frame H) : Frame H :=
  let loc := s.st.stack.headD 0
  let (gas, s) :=
    if s.config.berlin then
      if !(host.containsAccessListSlot s.host s.msg.address loc).2 then
        (coldStorageReadCostEIP2929,
          { s with host := host.addSlotToAccessList s.host s.msg.address loc })
      else (warmStorageReadCostEIP2929, s)
    else if s.config.istanbul then (800, s)
    else if s.config.eip150 then (200, s)
    else (50, s)
  match s.consumeGas gas with
  | (false, s) => s
  | (true, s) => s.setTop fun _ => host.getStorage s.host s.msg.address loc

/-- `SSTORE`: the write goes to the host first and is charged after, by the status it reports. -/
def opSStore (s : Frame H) : Frame H :=
  if s.msg.static then s.exit .writeProtection
  else if s.config.istanbul ∧ s.st.gas ≤ 2300 then s.exitMem .outOfGas
  else
    let (key, s) := s.pop
    let (val, s) := s.pop
    let legacyGasMetering := !s.config.istanbul && (s.config.petersburg || !s.config.constantinople)
    let (status, h) := host.setStorage s.host s.msg.address key val s.config.toTransitionForks
    let s := { s with host := h }
    let (cost, s) : UInt64 × Frame H :=
      if s.config.berlin ∧ !(host.containsAccessListSlot s.host s.msg.address key).2 then
        (coldStorageReadCostEIP2929,
          { s with host := host.addSlotToAccessList s.host s.msg.address key })
      else (0, s)
    let cost :=
      match status with
      | .unchanged =>
        if s.config.berlin then cost + warmStorageReadCostEIP2929
        else if s.config.istanbul then cost + 800
        else if legacyGasMetering then cost + 5000
        else cost + 200
      | .modified => if s.config.berlin then cost + 5000 - coldStorageReadCostEIP2929 else cost + 5000
      | .modifiedAgain =>
        if s.config.berlin then cost + warmStorageReadCostEIP2929
        else if s.config.istanbul then cost + 800
        else if legacyGasMetering then cost + 5000
        else cost + 200
      | .added => cost + 20000
      | .deleted => if s.config.berlin then cost + 5000 - coldStorageReadCostEIP2929 else cost + 5000
    (s.consumeGas cost).2

/-! ### Control flow -/

/-- `JUMP`: the loop's increment then lands on the destination (`int(dest - 1)`, `-1` for `0`). -/
def opJump (s : Frame H) : Frame H :=
  let (dest, s) := s.pop
  if s.validJumpdest dest then { s with ip := goInt (toUint64 dest - 1) } else s.exit .invalidJump

def opJumpi (s : Frame H) : Frame H :=
  let (dest, s) := s.pop
  let (cond, s) := s.pop
  if cond ≠ 0 then
    if s.validJumpdest dest then { s with ip := goInt (toUint64 dest - 1) } else s.exit .invalidJump
  else s

def opJumpDest (s : Frame H) : Frame H := s

def opPush0 (s : Frame H) : Frame H :=
  if !s.config.eip3855 then s.exitMem .opCodeNotFound else s.push 0

/-- `PUSHn`: the `n` bytes after the opcode; past the end of the code the bytes left are followed
by `n` zeros, and `SetBytes` keeps the last 32. The loop's increment then steps over the data. -/
def opPush (n : ℕ) (s : Frame H) : Frame H :=
  let ins := s.st.code
  let ip := s.ip.toNat
  let d :=
    if ins.length < ip + 1 + n then ofBytesBE (ins.drop (ip + 1) ++ List.replicate n 0)
    else ofBytesBE ((ins.drop (ip + 1)).take n)
  { s.push (Fin.ofNat _ d) with ip := s.ip + n }

def opDup (n : ℕ) (s : Frame H) : Frame H :=
  match s.peekAt n with
  | .error e => s.exit e
  | .ok val => s.push val

def opSwap (n : ℕ) (s : Frame H) : Frame H :=
  match s.swap n with
  | .error e => s.exit e
  | .ok s => s

/-- `LOGn` is `opLog (n + 1)`, as `registerRange` counts from one. The log is emitted before its
charge. -/
def opLog (size : ℕ) (s : Frame H) : Frame H :=
  let size := size - 1
  if s.msg.static then s.exit .writeProtection
  else if s.st.stack.length < 2 + size then s.exit (.stackUnderflow s.st.stack.length (2 + size))
  else
    let (mStart, s) := s.pop
    let (mSize, s) := s.pop
    let topics := s.st.stack.take size
    let s := s.mapSt fun c => { c with stack := c.stack.drop size }
    match s.get2 [] mStart mSize with
    | ((tmp, false), s) => s.mapSt fun c => { c with tmp }
    | ((tmp, true), s) =>
      let s := { s with st := { s.st with tmp }, host := host.emitLog s.host s.msg.address topics tmp }
      match s.consumeGas (UInt64.ofNat size * 375) with
      | (false, s) => s
      | (true, s) => (s.consumeGas (toUint64 mSize * 8)).2

/-! ### Calls and creations -/

inductive CreateOp
  | create
  | create2
  deriving DecidableEq, Repr

inductive CallOp
  | call
  | callCode
  | delegateCall
  | staticCall
  deriving DecidableEq, Repr

section Create

variable (createAddress : Address → ℕ → Address)
  (createAddress2 : Address → Hash → List UInt8 → Address)

/-- `buildCreateContract`: the contract and `ErrInsufficientFunds`; no contract when a check of
memory or gas has stopped the frame, or when the balance is short. -/
def buildCreateContract (op : CreateOp) (s : Frame H) : (Option Contract × Bool) × Frame H :=
  let (value, s) := s.pop
  let (offset, s) := s.pop
  let (length, s) := s.pop
  let (salt, s) := if op = .create2 then s.pop else (0, s)
  let hasTransfer := value ≠ 0
  match s.get2 [] offset length with
  | ((_, false), s) => ((none, false), s)
  | ((input, true), s) =>
    let charged :=
      if op = .create2 then s.consumeGas ((toUint64 length + 31) / 32 * sha3WordGas) else (true, s)
    match charged with
    | (false, s) => ((none, false), s)
    | (true, s) =>
      if hasTransfer ∧ host.getBalance s.host s.msg.address < value.val then ((none, true), s)
      else
        let gas := s.st.gas
        -- CREATE2 uses by default EIP150
        let gas := if s.config.eip150 ∨ op = .create2 then gas - gas / 64 else gas
        match s.consumeGas gas with
        | (false, s) => ((none, false), s)
        | (true, s) =>
          let address :=
            if op = .create then createAddress s.msg.address (host.getNonce s.host s.msg.address)
            else createAddress2 s.msg.address salt input
          ((some (newContractCall (s.msg.depth + 1) s.msg.origin s.msg.address address value.val
            gas.toNat input []), false), s)

def opCreate (op : CreateOp) (s : Frame H) : Frame H :=
  if s.msg.static then s.exit .writeProtection
  else if op = .create2 ∧ !s.config.constantinople then s.exitMem .opCodeNotFound
  else
    let s := s.resetReturnData
    match buildCreateContract host createAddress createAddress2 op s with
    | ((contract, true), s) =>
      let s := s.push 0
      match contract with
      | some contract => s.mapSt fun c => { c with gas := c.gas + UInt64.ofNat contract.gas }
      | none => s
    | ((none, false), s) => s
    | ((some contract, false), s) =>
      let contract := { contract with type := .create }
      let (result, h) := host.callx s.host contract
      let s := { s with host := h }
      let v : U256 :=
        if op = .create ∧ s.config.homestead ∧ result.err = some .codeStoreOutOfGas then 0
        else if op = .create ∧ result.failed ∧ result.err ≠ some .codeStoreOutOfGas then 0
        else if op = .create2 ∧ result.failed then 0
        else addressToWord contract.address
      let s := (s.push v).mapSt fun c => { c with gas := c.gas + UInt64.ofNat result.gasLeft }
      if result.reverted then s.mapSt fun c => { c with returnData := result.returnValue } else s

end Create

/-- The contract `buildCallContract` builds for the callee once the call is paid for: static
for `STATICCALL` or under a static caller, in the caller's context for `CALLCODE` and
`DELEGATECALL`, and with the caller's own value and caller for `DELEGATECALL`. -/
def childContract (op : CallOp) (parent : Contract) (addr : Address) (value : ℤ) (gas : ℕ)
    (code args : List UInt8) : Contract :=
  let contract := newContractCall (parent.depth + 1) parent.origin parent.address addr value gas
    code args
  let contract :=
    if op = .staticCall ∨ parent.static then { contract with static := true } else contract
  if op = .callCode ∨ op = .delegateCall then
    let contract := { contract with address := parent.address }
    if op = .delegateCall then
      { contract with value := parent.value, caller := parent.caller }
    else contract
  else contract

theorem gas_childContract (op : CallOp) (parent : Contract) (addr : Address) (value : ℤ)
    (gas : ℕ) (code args : List UInt8) : (childContract op parent addr value gas code args).gas = gas := by
  simp only [childContract]
  split_ifs <;> rfl

theorem static_childContract {op : CallOp} {parent : Contract} (h : parent.static = true)
    (addr : Address) (value : ℤ) (gas : ℕ) (code args : List UInt8) :
    (childContract op parent addr value gas code args).static = true := by
  simp only [childContract, h, or_true, if_true]
  split_ifs <;> rfl

/-- `buildCallContract`: the contract, the return range and `ErrInsufficientFunds`; no contract
when a check of memory or gas has stopped the frame. -/
def buildCallContract (op : CallOp) (s : Frame H) :
    (Option Contract × UInt64 × UInt64 × Bool) × Frame H :=
  let (initialGas, s) := s.pop
  let (addr, s) := s.popAddr
  let (value, s) := if op = .call ∨ op = .callCode then s.pop else (0, s)
  let (inOffset, s) := s.pop
  let (inSize, s) := s.pop
  let (retOffset, s) := s.pop
  let (retSize, s) := s.pop
  match s.get2 [] inOffset inSize with
  | ((_, false), s) => ((none, 0, 0, false), s)
  | ((args, true), s) =>
    match s.allocateMemory retOffset retSize with
    | (false, s) => ((none, 0, 0, false), s)
    | (true, s) =>
      let (gasCost, s) :=
        if s.config.berlin then s.calculateGasForEIP2929 host addr
        else if s.config.eip150 then (700, s)
        else (40, s)
      let transfersValue := (op = .call ∨ op = .callCode) ∧ value ≠ 0
      let gasCost :=
        if op = .call then
          if s.config.eip158 then
            if transfersValue ∧ host.empty s.host addr then gasCost + 25000 else gasCost
          else if !host.accountExists s.host addr then gasCost + 25000 else gasCost
        else gasCost
      let gasCost := if transfersValue then gasCost + 9000 else gasCost
      let gas :=
        if s.config.eip150 then
          let availableGas := s.st.gas - gasCost
          let availableGas := availableGas - availableGas / 64
          if !isUint64 initialGas ∨ availableGas < toUint64 initialGas then some availableGas
          else some (toUint64 initialGas)
        else if !isUint64 initialGas then none
        else some (toUint64 initialGas)
      match gas with
      | none => ((none, 0, 0, false), s.exitMem .outOfGas)
      | some gas =>
        if 2 ^ 64 ≤ gasCost.toNat + gas.toNat then ((none, 0, 0, false), s.exit .gasUintOverflow)
        else
          match s.consumeGas (gasCost + gas) with
          | (false, s) => ((none, 0, 0, false), s)
          | (true, s) =>
            let gas := if transfersValue then gas + 2300 else gas
            let (code, h) := host.getCode s.host addr
            let s := { s with host := h }
            let contract := childContract op s.msg addr value.val gas.toNat code args
            if transfersValue ∧ host.getBalance s.host s.msg.address < value.val then
              ((some contract, 0, 0, true), s)
            else ((some contract, toUint64 retOffset, toUint64 retSize, false), s)

def CallOp.callType : CallOp → CallType
  | .call => .call
  | .callCode => .callCode
  | .delegateCall => .delegateCall
  | .staticCall => .staticCall

def opCall (op : CallOp) (s : Frame H) : Frame H :=
  let s := s.resetReturnData
  let guard : Option (Frame H) :=
    if op = .call ∧ s.msg.static then
      match s.peekAt 3 with
      | .error e => some (s.exit e)
      | .ok val => if 0 < Uint256.bitLen val then some (s.exit .writeProtection) else none
    else none
  match guard with
  | some s => s
  | none =>
    if op = .delegateCall ∧ !s.config.homestead then s.exitMem .opCodeNotFound
    else if op = .staticCall ∧ !s.st.byzantium then s.exitMem .opCodeNotFound
    else
      match buildCallContract host op s with
      | ((contract, _, _, true), s) =>
        let s := s.push 0
        match contract with
        | some contract => s.mapSt fun c => { c with gas := c.gas + UInt64.ofNat contract.gas }
        | none => s
      | ((none, _, _, false), s) => s
      | ((some contract, offset, size, false), s) =>
        let contract := { contract with type := op.callType }
        let (result, h) := host.callx s.host contract
        let s := { s with host := h }
        let s := s.push (if result.succeeded then 1 else 0)
        let s :=
          if (result.succeeded ∨ result.reverted) ∧ result.returnValue ≠ [] ∧ 0 < size then
            let data := result.returnValue.take size.toNat
            s.mapSt fun c => { c with memory := copySlice c.memory offset.toNat data }
          else s
        s.mapSt fun c =>
          { c with gas := c.gas + UInt64.ofNat result.gasLeft, returnData := result.returnValue }

def opSelfDestruct (s : Frame H) : Frame H :=
  if s.msg.static then s.exit .writeProtection
  else
    let (address, s) := s.popAddr
    -- EIP150 reprice fork
    let gas : UInt64 :=
      if s.config.eip150 then
        if s.config.eip158 then
          if host.empty s.host address ∧ host.getBalance s.host s.msg.address ≠ 0 then 5000 + 25000
          else 5000
        else if !host.accountExists s.host address then 5000 + 25000
        else 5000
      else 0
    let (gas, s) :=
      if s.config.berlin ∧ !host.containsAccessListAddress s.host address then
        (gas + coldAccountAccessCostEIP2929,
          { s with host := host.addAddressToAccessList s.host address })
      else (gas, s)
    match s.consumeGas gas with
    | (false, s) => s
    | (true, s) => ({ s with host := host.selfdestruct s.host s.msg.address address } : Frame H).halt

end Instructions

end Blade.Evm
