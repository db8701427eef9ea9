import Blade.Evm.Interpreter
import Blade.Lib.Loop

/-!
The dispatch table and the loop of the interpreter (`dispatch_table.go`, `state.Run`, `EVM.Run`).

`registrations` lists the `register` calls of `init` in their order, ranges expanded as
`registerRange` expands them; `dispatchTable` finds an opcode's handler there. One turn of the
loop (`step`) reads the opcode at `ip` (a halt past the end of the code), checks the handler, the
depth of the stack and the handler's gas, runs the instruction and, unless it raised an error,
checks the stack's limit and moves `ip` on. `Frame.run` is the loop with fuel for its turns;
`EVM.run` gives it one more turn than the frame's gas, which is enough when the host returns no
more gas than it was given (`Frame.run_stops`).
-/

namespace Blade.Evm

open Lib Blade.Evm.Frame

/-- `handler`: the instruction, the depth of stack it needs and its constant gas. -/
structure Handler (H : Type) where
  inst : Frame H → Frame H
  stack : ℕ
  gas : UInt64

section Table

variable {H : Type} (host : Host H) (keccak256 : List UInt8 → List UInt8)
  (createAddress : Address → ℕ → Address) (createAddress2 : Address → Hash → List UInt8 → Address)

/-- `registerRange`: the opcodes from `lo` to `hi`, the `c`-th with `factory c`, `c` counting
from one, no stack requirement. -/
def registerRange (lo hi : ℕ) (factory : ℕ → Frame H → Frame H) (gas : UInt64) :
    List (UInt8 × Handler H) :=
  (List.range (hi - lo + 1)).map fun i => (UInt8.ofNat (lo + i), ⟨factory (i + 1), 0, gas⟩)

/-- The `register` calls of `init`, in order. -/
def registrations : List (UInt8 × Handler H) :=
  -- unsigned arithmetic operations
  [(0x00, ⟨opStop, 0, 0⟩), (0x01, ⟨(·.mapSt opAdd), 2, 3⟩), (0x03, ⟨(·.mapSt opSub), 2, 3⟩),
    (0x02, ⟨(·.mapSt opMul), 2, 5⟩), (0x04, ⟨(·.mapSt opDiv), 2, 5⟩), (0x05, ⟨(·.mapSt opSDiv), 2, 5⟩),
    (0x06, ⟨(·.mapSt opMod), 2, 5⟩), (0x07, ⟨(·.mapSt opSMod), 2, 5⟩), (0x0A, ⟨opExp, 2, 10⟩),
    (0x5F, ⟨opPush0, 0, 2⟩)] ++
  registerRange 0x60 0x7F opPush 3 ++ registerRange 0x80 0x8F opDup 3 ++
  registerRange 0x90 0x9F opSwap 3 ++ registerRange 0xA0 0xA4 (opLog host) 375 ++
  [(0x08, ⟨(·.mapSt opAddMod), 3, 8⟩), (0x09, ⟨(·.mapSt opMulMod), 3, 8⟩),
    (0x16, ⟨(·.mapSt opAnd), 2, 3⟩), (0x17, ⟨(·.mapSt opOr), 2, 3⟩), (0x18, ⟨(·.mapSt opXor), 2, 3⟩),
    (0x1A, ⟨(·.mapSt opByte), 2, 3⟩), (0x19, ⟨(·.mapSt opNot), 1, 3⟩), (0x15, ⟨(·.mapSt opIsZero), 1, 3⟩),
    (0x14, ⟨(·.mapSt opEq), 2, 3⟩), (0x10, ⟨(·.mapSt opLt), 2, 3⟩), (0x11, ⟨(·.mapSt opGt), 2, 3⟩),
    (0x12, ⟨(·.mapSt opSlt), 2, 3⟩), (0x13, ⟨(·.mapSt opSgt), 2, 3⟩),
    (0x0B, ⟨(·.mapSt opSignExtension), 2, 5⟩),
    (0x1B, ⟨opShl, 2, 3⟩), (0x1C, ⟨opShr, 2, 3⟩), (0x1D, ⟨opSar, 2, 3⟩),
    (0xF0, ⟨opCreate host createAddress createAddress2 .create, 3, 32000⟩),
    (0xF5, ⟨opCreate host createAddress createAddress2 .create2, 4, 32000⟩),
    (0xF1, ⟨opCall host .call, 7, 0⟩), (0xF2, ⟨opCall host .callCode, 7, 0⟩),
    (0xF4, ⟨opCall host .delegateCall, 6, 0⟩), (0xFA, ⟨opCall host .staticCall, 6, 0⟩),
    (0xFD, ⟨(·.mapSt (opHalt true)), 2, 0⟩), (0xF3, ⟨(·.mapSt (opHalt false)), 2, 0⟩),
    -- memory
    (0x51, ⟨(·.mapSt opMLoad), 1, 3⟩), (0x52, ⟨(·.mapSt opMStore), 2, 3⟩),
    (0x53, ⟨(·.mapSt opMStore8), 2, 3⟩),
    -- store
    (0x54, ⟨opSload host, 1, 0⟩), (0x55, ⟨opSStore host, 2, 0⟩),
    (0x20, ⟨(·.mapSt (opSha3 keccak256)), 2, 30⟩), (0x50, ⟨(·.mapSt opPop), 1, 2⟩),
    (0x3F, ⟨opExtCodeHash host, 1, 0⟩),
    -- context operations
    (0x30, ⟨opAddress, 0, 2⟩), (0x31, ⟨opBalance host, 1, 0⟩),
    (0x47, ⟨opSelfBalance host, 0, 5⟩), (0x32, ⟨opOrigin host, 0, 2⟩), (0x33, ⟨opCaller, 0, 2⟩),
    (0x34, ⟨opCallValue, 0, 2⟩), (0x35, ⟨(·.mapSt opCallDataLoad), 1, 3⟩),
    (0x36, ⟨(·.mapSt opCallDataSize), 0, 2⟩), (0x38, ⟨(·.mapSt opCodeSize), 0, 2⟩),
    (0x3B, ⟨opExtCodeSize host, 1, 0⟩), (0x3A, ⟨opGasPrice host, 0, 2⟩),
    (0x3D, ⟨(·.mapSt opReturnDataSize), 0, 2⟩), (0x46, ⟨opChainID host, 0, 2⟩), (0x58, ⟨opPC, 0, 2⟩),
    (0x59, ⟨(·.mapSt opMSize), 0, 2⟩), (0x5A, ⟨(·.mapSt opGas), 0, 2⟩),
    (0x3C, ⟨opExtCodeCopy host, 4, 0⟩), (0x37, ⟨(·.mapSt opCallDataCopy), 3, 3⟩),
    (0x3E, ⟨(·.mapSt opReturnDataCopy), 3, 3⟩), (0x39, ⟨(·.mapSt opCodeCopy), 3, 3⟩),
    -- block information
    (0x40, ⟨opBlockHash host, 1, 20⟩), (0x41, ⟨opCoinbase host, 0, 2⟩),
    (0x42, ⟨opTimestamp host, 0, 2⟩), (0x43, ⟨opNumber host, 0, 2⟩),
    (0x44, ⟨opDifficulty host, 0, 2⟩), (0x45, ⟨opGasLimit host, 0, 2⟩),
    (0x48, ⟨opBaseFee host, 0, 2⟩),
    (0xFF, ⟨opSelfDestruct host, 1, 0⟩),
    -- jumps
    (0x56, ⟨opJump, 1, 8⟩), (0x57, ⟨opJumpi, 2, 10⟩), (0x5B, ⟨opJumpDest, 0, 1⟩)]

/-- `dispatchTable[op]`, `nil` for an opcode never registered. -/
def dispatchTable (op : UInt8) : Option (Handler H) :=
  ((registrations host keccak256 createAddress createAddress2).find? (·.1 = op)).map (·.2)

namespace Frame

/-- One turn of the loop of `Run`. -/
def step (s : Frame H) : Frame H :=
  match s.currentOpCode with
  | (_, false) => s.halt
  | (op, true) =>
    match dispatchTable host keccak256 createAddress createAddress2 op with
    | none => s.exitMem .opCodeNotFound
    | some inst =>
      -- check if the depth of the stack is enough for the instruction
      if s.st.stack.length < inst.stack then s.exit (.stackUnderflow s.st.stack.length inst.stack)
      else
        match s.consumeGas inst.gas with
        | (false, s) => s
        | (true, s) =>
          let s := inst.inst s
          if s.err.isSome then s
          -- check if stack size exceeds the max size
          else if stackSize < s.st.stack.length then
            s.exit (.stackOverflow s.st.stack.length stackSize)
          else { s with ip := s.ip + 1 }

/-- `Run`, for at most `fuel` turns. -/
def run (fuel : ℕ) (s : Frame H) : Frame H :=
  loop Frame.stop (step host keccak256 createAddress createAddress2) fuel s

end Frame

/-- The frame `EVM.Run` starts: a state from the pool, reset, with the message's code, gas and
input, and the code's bitmap. -/
def newFrame (c : Contract) (h : H) (config : VmForks) : Frame H where
  st :=
    { stack := [], memory := [], gas := UInt64.ofNat c.gas, currentConsumedGas := 0,
      lastGasCost := 0, stop := false, err := none, code := c.code, input := c.input,
      returnData := [], ret := [], tmp := [], byzantium := config.byzantium }
  ip := 0
  msg := c
  config := config
  bitmap := (Bitmap.reset ⟨[]⟩).setCode c.code
  host := h
  vmErr := none

/-- `EVM.Run`: the frame run to its end; an error other than a revert takes all the gas. -/
def EVM.run (c : Contract) (h : H) (config : VmForks) : ExecutionResult × H :=
  let s0 := newFrame c h config
  let s := Frame.run host keccak256 createAddress createAddress2 (s0.gas.toNat + 1) s0
  let gasLeft := if s.err.isSome ∧ s.err ≠ some errExecutionReverted then 0 else s.gas
  (⟨s.st.ret, gasLeft.toNat, (UInt64.ofNat c.gas - gasLeft).toNat, s.err, 0⟩, s.host)

end Table

/-! ## A host with no accounts -/

/-- A host with no accounts and no code, whose calls give back all the gas they were given. -/
def nullHost : Host Unit where
  accountExists _ _ := false
  getStorage _ _ _ := 0
  setStorage _ _ _ _ _ := (.added, ())
  getBalance _ _ := 0
  getCodeSize _ _ := (0, ())
  getCodeHash _ _ := 0
  getCode _ _ := ([], ())
  selfdestruct _ _ _ := ()
  getTxContext _ := ⟨⟨1, 0, 0, 0, false, 0, 0⟩, 0, 0, 0, 0⟩
  getBlockHash _ _ := 0
  emitLog _ _ _ _ := ()
  callx _ c := (⟨[], c.gas, 0, none, 0⟩, ())
  empty _ _ := true
  getNonce _ _ := 0
  addSlotToAccessList _ _ _ := ()
  addAddressToAccessList _ _ := ()
  containsAccessListAddress _ _ := false
  containsAccessListSlot _ _ _ := (false, false)

def allForks : VmForks :=
  { homestead := true, london := true, eip158 := true, eip155 := true, berlin := true,
    istanbul := true, eip3607 := true, constantinople := true, petersburg := true,
    byzantium := true, eip150 := true, eip3855 := true }

def messageTo (code : List UInt8) (gas : ℕ) (static : Bool) : Contract :=
  ⟨code, .call, 1, 1, 2, 2, 1, 0, [], gas, static⟩

end Blade.Evm
