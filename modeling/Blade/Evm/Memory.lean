import Blade.Evm.Jumpdest
import Blade.Lib.Rlp

/-!
The memory of the EVM interpreter (`state/runtime/evm/state.go`, `instructions.go`).
`allocateMemory` extends the memory to a whole number of 32-byte words covering an access and
charges the growth of `3 w + w² / 512` against the gas it charged before (`lastGasCost`), all in
`uint64`; `get2` reads a range after it. The instructions that touch memory call one or the
other, each with its own test of the length first.

The Yellow Paper's rule (an empty access leaves memory alone, any other grows it to
`⌈(offset + length) / 32⌉` words and costs the difference of `C`) is `expandWords` and
`memoryCost`. The code follows it while the word count stays below `2 ^ 32`; it leaves it on three
families of operands: an empty range at an offset past 64 bits (`CALLDATACOPY`, `EXTCODECOPY` and
the return range of a call fail on it), a length that is a nonzero multiple of `2 ^ 64`
(`CODECOPY` reads only its low 64 bits, finds zero and does nothing), and word counts whose
square wraps in 64 bits (charged far below their cost).
-/

namespace Blade.Evm

open Lib.Rlp

abbrev U256 := Fin (2 ^ 256)

def isUint64 (x : U256) : Bool := decide (x.val < 2 ^ 64)

/-- `Uint64`: the low 64 bits. -/
def toUint64 (x : U256) : UInt64 := UInt64.ofNat x.val

inductive Error
  | outOfGas
  | returnDataOutOfBounds
  | opCodeNotFound
  | revert
  deriving DecidableEq, Repr

/-- The part of the interpreter's `state` that the memory instructions read and write. -/
structure State where
  stack : List U256
  memory : List UInt8
  gas : UInt64
  currentConsumedGas : UInt64
  lastGasCost : UInt64
  stop : Bool
  err : Option Error
  code : List UInt8
  input : List UInt8
  returnData : List UInt8
  ret : List UInt8
  tmp : List UInt8
  byzantium : Bool

/-- Go's `copy` of `src` into `dst[o:]`, within range. -/
def copySlice (dst : List UInt8) (o : ℕ) (src : List UInt8) : List UInt8 :=
  dst.take o ++ src ++ dst.drop (o + src.length)

namespace State

def exit (c : State) (err : Error) : State := { c with stop := true, err := some err }

def halt (c : State) : State := { c with stop := true }

def consumeGas (c : State) (gas : UInt64) : Bool × State :=
  let c := { c with currentConsumedGas := c.currentConsumedGas + gas }
  if c.gas < gas then (false, c.exit .outOfGas) else (true, { c with gas := c.gas - gas })

/-- `pop`; the interpreter checks the depth of the stack first, and an empty one gives zero. -/
def pop (c : State) : U256 × State :=
  match c.stack with
  | [] => (0, c)
  | v :: rest => (v, { c with stack := rest })

def push (c : State) (v : U256) : State := { c with stack := v :: c.stack }

/-- `allocateMemory`: whether the access may go on, and the state after its charge. -/
def allocateMemory (c : State) (offset size : U256) : Bool × State :=
  if !isUint64 offset || !isUint64 size then (false, c.exit .returnDataOutOfBounds)
  else if size.val = 0 then (true, c)
  else
    let o := toUint64 offset
    let s := toUint64 size
    if o > 0xffffffffe0 || s > 0xffffffffe0 then (false, c.exit .returnDataOutOfBounds)
    else
      let newSize := o + s
      let currentSize := UInt64.ofNat c.memory.length
      if currentSize < newSize then
        let w := (newSize + 31) / 32
        let newCost := 3 * w + w * w / 512
        let cost := newCost - c.lastGasCost
        match ({ c with lastGasCost := newCost } : State).consumeGas cost with
        | (false, c) => (false, c)
        -- resize the memory
        | (true, c) => (true, { c with memory := Common.extendByteSlice c.memory (w * 32).toNat })
      else (true, c)

/-- `get2`: `dst` and the bytes of memory in the range, nil for an empty range. -/
def get2 (c : State) (dst : List UInt8) (offset length : U256) : (List UInt8 × Bool) × State :=
  if length.val = 0 then (([], true), c)
  else
    match c.allocateMemory offset length with
    | (false, c) => (([], false), c)
    | (true, c) =>
      let o := (toUint64 offset).toNat
      let l := (toUint64 length).toNat
      ((dst ++ (c.memory.drop o).take l, true), c)

/-- `setBytes`: `size` bytes of `input` from `dataOffset` written at the start of `dst`, zeros
past the end of `input`. -/
def setBytes (dst input : List UInt8) (size : UInt64) (dataOffset : U256) : List UInt8 :=
  if !isUint64 dataOffset then copySlice dst 0 (List.replicate size.toNat 0)
  else
    let inputSize := input.length
    let begin := min (toUint64 dataOffset).toNat inputSize
    let copySize := min size.toNat (inputSize - begin)
    copySlice dst 0
      ((input.drop begin).take copySize ++ List.replicate (size.toNat - copySize) 0)

end State

open State

/-! ## The instructions -/

def opMLoad (c : State) : State :=
  let v := c.stack.headD 0
  match c.allocateMemory v 32 with
  | (false, c) => c
  | (true, c) =>
    let offset := (toUint64 v).toNat
    { c with stack := Fin.ofNat _ (ofBytesBE ((c.memory.drop offset).take 32)) :: c.stack.tail }

def opMStore (c : State) : State :=
  let (offset, c) := c.pop
  let (val, c) := c.pop
  match c.allocateMemory offset 32 with
  | (false, c) => c
  | (true, c) =>
    let o := (toUint64 offset).toNat
    { c with memory := copySlice c.memory o (toBytesFixed 32 val.val) }

def opMStore8 (c : State) : State :=
  let (offset, c) := c.pop
  let (val, c) := c.pop
  match c.allocateMemory offset 1 with
  | (false, c) => c
  | (true, c) => { c with memory := c.memory.set (toUint64 offset).toNat (UInt8.ofNat val.val) }

def sha3WordGas : UInt64 := 6

def copyGas : UInt64 := 3

section Hash

variable (keccak256 : List UInt8 → List UInt8)

def opSha3 (c : State) : State :=
  let (offset, c) := c.pop
  let (length, c) := c.pop
  match c.get2 [] offset length with
  | ((tmp, false), c) => { c with tmp }
  | ((tmp, true), c) =>
    let size := toUint64 length
    match ({ c with tmp } : State).consumeGas ((size + 31) / 32 * sha3WordGas) with
    | (false, c) => c
    | (true, c) =>
      let tmp := keccak256 c.tmp
      ({ c with tmp } : State).push (Fin.ofNat _ (ofBytesBE tmp))

end Hash

def opCallDataCopy (c : State) : State :=
  let (memOffset, c) := c.pop
  let (dataOffset, c) := c.pop
  let (length, c) := c.pop
  match c.allocateMemory memOffset length with
  | (false, c) => c
  | (true, c) =>
    let size := toUint64 length
    match c.consumeGas ((size + 31) / 32 * copyGas) with
    | (false, c) => c
    | (true, c) =>
      if size ≠ 0 then
        let o := (toUint64 memOffset).toNat
        { c with memory := c.memory.take o ++ setBytes (c.memory.drop o) c.input size dataOffset }
      else c

def opCodeCopy (c : State) : State :=
  let (memOffset, c) := c.pop
  let (dataOffset, c) := c.pop
  let (length, c) := c.pop
  if toUint64 length ≤ 0 then c
  else
    match c.allocateMemory memOffset length with
    | (false, c) => c
    | (true, c) =>
      let size := toUint64 length
      match c.consumeGas ((size + 31) / 32 * copyGas) with
      | (false, c) => c
      | (true, c) =>
        if size ≠ 0 then
          let o := (toUint64 memOffset).toNat
          { c with memory := c.memory.take o ++ setBytes (c.memory.drop o) c.code size dataOffset }
        else c

def opReturnDataCopy (c : State) : State :=
  if !c.byzantium then c.exit .opCodeNotFound
  else
    let (memOffset, c) := c.pop
    let (dataOffset, c) := c.pop
    let (length, c) := c.pop
    -- `end` wraps modulo 2 ^ 256 like the source's addition
    let endW := dataOffset + length
    let endAddress := (toUint64 endW).toNat
    if !isUint64 dataOffset || !isUint64 endW || decide (c.returnData.length < endAddress) then
      c.exit .returnDataOutOfBounds
    -- if length is 0, return immediately since no need for the data copying nor memory allocation
    else if length.val = 0 then c
    else
      match c.allocateMemory memOffset length with
      | (false, c) => c
      | (true, c) =>
        let ulength := toUint64 length
        match c.consumeGas ((ulength + 31) / 32 * copyGas) with
        | (false, c) => c
        | (true, c) =>
          let data := (c.returnData.drop (toUint64 dataOffset).toNat).take
            (endAddress - (toUint64 dataOffset).toNat)
          { c with memory := copySlice c.memory (toUint64 memOffset).toNat data }

/-- `RETURN` (`isRevert = false`) and `REVERT`. -/
def opHalt (isRevert : Bool) (c : State) : State :=
  if isRevert && !c.byzantium then c.exit .opCodeNotFound
  else
    let (offset, c) := c.pop
    let (size, c) := c.pop
    match c.get2 [] offset size with
    | ((ret, false), c) => { c with ret }
    | ((ret, true), c) =>
      let c := { c with ret }
      if isRevert then c.exit .revert else c.halt

/-! ## The Yellow Paper's rule -/

/-- `C_mem`: the cost of `a` words of memory. -/
def memoryCost (a : ℕ) : ℕ := 3 * a + a ^ 2 / 512

/-- The words of memory after an access of `length` bytes at `offset` to a memory of `μ` words. -/
def expandWords (μ offset length : ℕ) : ℕ :=
  if length = 0 then μ else max μ ((offset + length + 31) / 32)

theorem expandWords_of_grow {μ offset length : ℕ} (hl : length ≠ 0)
    (h : 32 * μ < offset + length) : expandWords μ offset length = (offset + length + 31) / 32 := by
  unfold expandWords
  rw [if_neg hl, max_eq_right (by omega)]

theorem expandWords_of_covered {μ offset length : ℕ} (h : offset + length ≤ 32 * μ) :
    expandWords μ offset length = μ := by
  unfold expandWords
  split <;> omega

theorem memoryCost_lt {a : ℕ} (h : a < 2 ^ 32) : memoryCost a < 2 ^ 64 := by
  have hsq : a ^ 2 < 2 ^ 64 := by
    calc a ^ 2 < (2 ^ 32) ^ 2 := Nat.pow_lt_pow_left h (by norm_num)
      _ = 2 ^ 64 := by norm_num
  unfold memoryCost
  omega

theorem memoryCost_mono {a b : ℕ} (h : a ≤ b) : memoryCost a ≤ memoryCost b := by
  unfold memoryCost
  have : a ^ 2 / 512 ≤ b ^ 2 / 512 := Nat.div_le_div_right (Nat.pow_le_pow_left h 2)
  omega

/-- The memory is a whole number `μ` of words and `lastGasCost` their cost: what
`allocateMemory` keeps while the square of the word count fits in 64 bits. -/
structure MemInv (c : State) (μ : ℕ) : Prop where
  length_eq : c.memory.length = 32 * μ
  lastGasCost_eq : c.lastGasCost.toNat = memoryCost μ
  words_lt : μ < 2 ^ 32

/-! ## `allocateMemory` -/

theorem toNat_toUint64 {x : U256} (h : x.val < 2 ^ 64) : (toUint64 x).toNat = x.val := by
  rw [toUint64, UInt64.toNat_ofNat']
  exact Nat.mod_eq_of_lt h

theorem toNat_newCost {w : UInt64} (h : w.toNat < 2 ^ 32) :
    (3 * w + w * w / 512).toNat = memoryCost w.toNat := by
  have hsq : w.toNat * w.toNat < 2 ^ 64 := by
    calc w.toNat * w.toNat < 2 ^ 32 * 2 ^ 32 := Nat.mul_lt_mul'' h h
      _ = 2 ^ 64 := by norm_num
  have hdiv : w.toNat * w.toNat / 512 < 2 ^ 55 := by omega
  simp only [UInt64.toNat_add, UInt64.toNat_mul, UInt64.toNat_div, Nat.mod_eq_of_lt hsq]
  unfold memoryCost
  simp only [UInt64.reduceToNat, pow_two]
  omega

namespace State

variable {c : State} {offset size : U256}

theorem consumeGas_of_le {g : UInt64} (h : g ≤ c.gas) :
    c.consumeGas g =
      (true, { c with currentConsumedGas := c.currentConsumedGas + g, gas := c.gas - g }) := by
  have hn : ¬ c.gas < g := by
    rw [UInt64.lt_iff_toNat_lt]
    rw [UInt64.le_iff_toNat_le] at h
    omega
  simp [consumeGas, hn]

theorem consumeGas_of_lt {g : UInt64} (h : c.gas < g) :
    c.consumeGas g =
      (false, ({ c with currentConsumedGas := c.currentConsumedGas + g } : State).exit .outOfGas) := by
  simp [consumeGas, h]

theorem allocateMemory_of_not_uint64 (h : isUint64 offset = false ∨ isUint64 size = false) :
    c.allocateMemory offset size = (false, c.exit .returnDataOutOfBounds) := by
  have h' : (!isUint64 offset || !isUint64 size) = true := by
    rcases h with h | h <;> simp [h]
  simp only [allocateMemory, h', if_true]

section Bounded

variable {μ : ℕ} (hinv : MemInv c μ) (ho : offset.val ≤ 0xffffffffe0) (hs : size.val ≤ 0xffffffffe0)
  (hs0 : size.val ≠ 0)
include hinv ho hs hs0

theorem allocateMemory_bounded :
    c.allocateMemory offset size =
      if 32 * μ < offset.val + size.val then
        let w := (toUint64 offset + toUint64 size + 31) / 32
        let newCost := 3 * w + w * w / 512
        match ({ c with lastGasCost := newCost } : State).consumeGas (newCost - c.lastGasCost) with
        | (false, c) => (false, c)
        | (true, c) => (true, { c with memory := Common.extendByteSlice c.memory (w * 32).toNat })
      else (true, c) := by
  have hof : isUint64 offset = true := decide_eq_true (by omega)
  have hsf : isUint64 size = true := decide_eq_true (by omega)
  have hO := toNat_toUint64 (x := offset) (by omega)
  have hS := toNat_toUint64 (x := size) (by omega)
  have hlen : (UInt64.ofNat c.memory.length).toNat = 32 * μ := by
    have := hinv.words_lt
    rw [UInt64.toNat_ofNat', hinv.length_eq]
    omega
  have hbound : (toUint64 offset > 0xffffffffe0 || toUint64 size > 0xffffffffe0) = false := by
    simp only [gt_iff_lt, UInt64.lt_iff_toNat_lt, hO, hS, Bool.or_eq_false_iff,
      decide_eq_false_iff_not]
    simp only [UInt64.reduceToNat]
    omega
  have hcmp : (UInt64.ofNat c.memory.length < toUint64 offset + toUint64 size) =
      (32 * μ < offset.val + size.val) := by
    rw [UInt64.lt_iff_toNat_lt, hlen, UInt64.toNat_add, hO, hS, Nat.mod_eq_of_lt (by omega)]
  simp only [allocateMemory, hof, hsf, Bool.not_true, Bool.or_false, if_neg hs0, hbound,
    Bool.false_eq_true, if_false, hcmp]

theorem allocateMemory_of_covered (hcov : offset.val + size.val ≤ 32 * μ) :
    c.allocateMemory offset size = (true, c) := by
  rw [allocateMemory_bounded hinv ho hs hs0, if_neg (by omega)]

theorem allocateMemory_of_grow (hgrow : 32 * μ < offset.val + size.val)
    (hw : (offset.val + size.val + 31) / 32 < 2 ^ 32) :
    c.allocateMemory offset size =
      match ({ c with lastGasCost := UInt64.ofNat (memoryCost ((offset.val + size.val + 31) / 32)) } :
          State).consumeGas
          (UInt64.ofNat (memoryCost ((offset.val + size.val + 31) / 32) - memoryCost μ)) with
      | (false, c) => (false, c)
      | (true, c) =>
        (true, { c with memory :=
          Common.extendByteSlice c.memory (32 * ((offset.val + size.val + 31) / 32)) }) := by
  have hO := toNat_toUint64 (x := offset) (by omega)
  have hS := toNat_toUint64 (x := size) (by omega)
  have hwn : ((toUint64 offset + toUint64 size + 31) / 32).toNat = (offset.val + size.val + 31) / 32 := by
    simp only [UInt64.toNat_div, UInt64.toNat_add, hO, hS, UInt64.reduceToNat]
    rw [Nat.mod_eq_of_lt (by omega), Nat.mod_eq_of_lt (by omega)]
  have hμ : μ ≤ (offset.val + size.val + 31) / 32 := by omega
  have hnew := toNat_newCost (hwn ▸ hw)
  rw [hwn] at hnew
  have hW64 : memoryCost ((offset.val + size.val + 31) / 32) < 2 ^ 64 := by
    rw [← hnew]
    exact UInt64.toNat_lt _
  have hcost : 3 * ((toUint64 offset + toUint64 size + 31) / 32) +
      (toUint64 offset + toUint64 size + 31) / 32 * ((toUint64 offset + toUint64 size + 31) / 32) / 512 =
      UInt64.ofNat (memoryCost ((offset.val + size.val + 31) / 32)) := by
    apply UInt64.toNat_inj.1
    rw [hnew, UInt64.toNat_ofNat', Nat.mod_eq_of_lt hW64]
  have hcharge : UInt64.ofNat (memoryCost ((offset.val + size.val + 31) / 32)) - c.lastGasCost =
      UInt64.ofNat (memoryCost ((offset.val + size.val + 31) / 32) - memoryCost μ) := by
    have hmono := memoryCost_mono hμ
    apply UInt64.toNat_inj.1
    rw [UInt64.toNat_sub_of_le _ _ (by
        rw [UInt64.le_iff_toNat_le, hinv.lastGasCost_eq, ← hcost, hnew]
        exact hmono),
      hinv.lastGasCost_eq, ← hcost, hnew, UInt64.toNat_ofNat', Nat.mod_eq_of_lt (by omega)]
  have hext : ((toUint64 offset + toUint64 size + 31) / 32 * 32).toNat =
      32 * ((offset.val + size.val + 31) / 32) := by
    rw [UInt64.toNat_mul, hwn]
    simp only [UInt64.reduceToNat]
    rw [Nat.mod_eq_of_lt (by omega)]
    ring
  rw [allocateMemory_bounded hinv ho hs hs0, if_pos hgrow]
  simp only [hcost, hcharge, hext]

theorem allocateMemory_of_le (hw : expandWords μ offset.val size.val < 2 ^ 32)
    (hgas : memoryCost (expandWords μ offset.val size.val) - memoryCost μ ≤ c.gas.toNat) :
    (c.allocateMemory offset size).1 = true ∧
      MemInv (c.allocateMemory offset size).2 (expandWords μ offset.val size.val) ∧
      (c.allocateMemory offset size).2.gas.toNat =
        c.gas.toNat - (memoryCost (expandWords μ offset.val size.val) - memoryCost μ) ∧
      (c.allocateMemory offset size).2.err = c.err ∧
      (c.allocateMemory offset size).2.stack = c.stack := by
  by_cases hgrow : 32 * μ < offset.val + size.val
  · rw [expandWords_of_grow hs0 hgrow] at hw hgas ⊢
    rw [allocateMemory_of_grow hinv ho hs hs0 hgrow hw]
    set W := (offset.val + size.val + 31) / 32 with hW
    have hW64 := memoryCost_lt hw
    have hcharge : (UInt64.ofNat (memoryCost W - memoryCost μ)).toNat = memoryCost W - memoryCost μ := by
      rw [UInt64.toNat_ofNat', Nat.mod_eq_of_lt (by omega)]
    have hle : UInt64.ofNat (memoryCost W - memoryCost μ) ≤
        ({ c with lastGasCost := UInt64.ofNat (memoryCost W) } : State).gas := by
      rw [UInt64.le_iff_toNat_le, hcharge]
      exact hgas
    rw [consumeGas_of_le hle]
    refine ⟨rfl, ⟨by simp, ?_, hw⟩, ?_, rfl, rfl⟩
    · show (UInt64.ofNat _).toNat = _
      rw [UInt64.toNat_ofNat', Nat.mod_eq_of_lt hW64]
    · show (c.gas - _).toNat = _
      rw [UInt64.toNat_sub_of_le _ _ hle, hcharge]
  · rw [expandWords_of_covered (not_lt.1 hgrow),
      allocateMemory_of_covered hinv ho hs hs0 (not_lt.1 hgrow)]
    exact ⟨rfl, hinv, by simp, rfl, rfl⟩

theorem allocateMemory_of_lt (hw : expandWords μ offset.val size.val < 2 ^ 32)
    (hgas : c.gas.toNat < memoryCost (expandWords μ offset.val size.val) - memoryCost μ) :
    (c.allocateMemory offset size).1 = false ∧
      (c.allocateMemory offset size).2.err = some .outOfGas := by
  by_cases hgrow : 32 * μ < offset.val + size.val
  · rw [expandWords_of_grow hs0 hgrow] at hw hgas
    rw [allocateMemory_of_grow hinv ho hs hs0 hgrow hw]
    set W := (offset.val + size.val + 31) / 32 with hW
    have hW64 := memoryCost_lt hw
    have hlt : ({ c with lastGasCost := UInt64.ofNat (memoryCost W) } : State).gas <
        UInt64.ofNat (memoryCost W - memoryCost μ) := by
      rw [UInt64.lt_iff_toNat_lt, UInt64.toNat_ofNat', Nat.mod_eq_of_lt (by omega)]
      exact hgas
    rw [consumeGas_of_lt hlt]
    exact ⟨rfl, rfl⟩
  · rw [expandWords_of_covered (not_lt.1 hgrow)] at hgas
    omega

end Bounded

end State

/-! ## Where the instructions leave the Yellow Paper -/

section Instructions

variable (c : State) (rest : List U256)

theorem opCallDataCopy_of_not_uint64 (memOffset dataOffset length : U256)
    (h : 2 ^ 64 ≤ memOffset.val) (hst : c.stack = memOffset :: dataOffset :: length :: rest) :
    opCallDataCopy c = ({ c with stack := rest } : State).exit .returnDataOutOfBounds := by
  have hof : isUint64 memOffset = false := decide_eq_false (by omega)
  simp only [opCallDataCopy, pop, hst]
  rw [allocateMemory_of_not_uint64 (Or.inl hof)]

theorem opCodeCopy_of_low_zero (memOffset dataOffset length : U256) (h : length.val % 2 ^ 64 = 0)
    (hst : c.stack = memOffset :: dataOffset :: length :: rest) :
    opCodeCopy c = { c with stack := rest } := by
  have hl : toUint64 length = 0 := by
    apply UInt64.toNat_inj.1
    rw [toUint64, UInt64.toNat_ofNat', h]
    rfl
  simp [opCodeCopy, pop, hst, hl]

theorem gas_lt_charge_of_le_length {μ : ℕ} (hinv : MemInv c μ) (offset length : U256)
    (h : 2 ^ 64 ≤ length.val) :
    c.gas.toNat < memoryCost (expandWords μ offset.val length.val) - memoryCost μ := by
  have hE : 2 ^ 59 ≤ expandWords μ offset.val length.val := by
    unfold expandWords
    rw [if_neg (by omega)]
    omega
  have hfar : 2 ^ 109 ≤ memoryCost (2 ^ 59) := by norm_num [memoryCost]
  have hmono := memoryCost_mono hE
  have hμ := memoryCost_lt hinv.words_lt
  have hgas := c.gas.toNat_lt
  omega

/-- `MSTORE` at `2 ^ 37 - 32` on an empty memory reaches `2 ^ 32` words, whose square wraps to
zero in 64 bits: the charge is `3 · 2 ^ 32` gas. -/
theorem opMStore_square_wraps (offset val : U256) (ho : offset.val = 2 ^ 37 - 32)
    (hmem : c.memory = []) (hlast : c.lastGasCost = 0) (hgas : 3 * 2 ^ 32 ≤ c.gas.toNat)
    (hst : c.stack = offset :: val :: rest) :
    (opMStore c).err = c.err ∧ (opMStore c).gas.toNat = c.gas.toNat - 3 * 2 ^ 32 := by
  have hinv : MemInv ({ c with stack := rest } : State) 0 :=
    ⟨by simp [hmem], by simp [hlast, memoryCost], by norm_num⟩
  have hO : toUint64 offset = 137438953440 := by
    rw [toUint64, ho]
    rfl
  have hle : (12884901888 : UInt64) ≤ c.gas := by
    rw [UInt64.le_iff_toNat_le]
    exact hgas
  have hsub : (c.gas - 12884901888).toNat = c.gas.toNat - 3 * 2 ^ 32 := by
    rw [UInt64.toNat_sub_of_le _ _ hle]
    rfl
  simp only [opMStore, pop, hst]
  rw [allocateMemory_bounded hinv (by omega) (by decide) (by decide), if_pos (by simp [ho])]
  -- the word count is 2 ^ 32, and its square is zero in 64 bits
  have hcost : (3 * ((137438953440 + 32 + 31) / 32) +
      (137438953440 + 32 + 31) / 32 * ((137438953440 + 32 + 31) / 32) / 512 - 0 : UInt64) =
      12884901888 := by decide
  simp only [hO, show toUint64 32 = 32 from rfl, hlast, hcost]
  rw [consumeGas_of_le (c := { c with stack := rest, lastGasCost := _ }) hle]
  exact ⟨rfl, hsub⟩

end Instructions

theorem memoryExpansion_diverges :
    (∀ (c : State) (memOffset dataOffset : U256) (rest : List U256), 2 ^ 64 ≤ memOffset.val →
      c.stack = memOffset :: dataOffset :: 0 :: rest →
      (opCallDataCopy c).err = some .returnDataOutOfBounds) ∧
    (∀ (c : State) (μ : ℕ) (memOffset dataOffset length : U256) (rest : List U256), MemInv c μ →
      length.val ≠ 0 → length.val % 2 ^ 64 = 0 → c.stack = memOffset :: dataOffset :: length :: rest →
      c.gas.toNat < memoryCost (expandWords μ memOffset.val length.val) - memoryCost μ ∧
        opCodeCopy c = { c with stack := rest }) ∧
    (∀ (c : State) (offset val : U256) (rest : List U256), offset.val = 2 ^ 37 - 32 →
      c.memory = [] → c.lastGasCost = 0 → 3 * 2 ^ 32 ≤ c.gas.toNat →
      c.stack = offset :: val :: rest →
      memoryCost (expandWords 0 offset.val 32) - memoryCost 0 = 3 * 2 ^ 32 + 2 ^ 55 ∧
        (opMStore c).err = c.err ∧ (opMStore c).gas.toNat = c.gas.toNat - 3 * 2 ^ 32) := by
  refine ⟨?_, ?_, ?_⟩
  · intro c memOffset dataOffset rest h hst
    rw [opCallDataCopy_of_not_uint64 c rest memOffset dataOffset 0 h hst]
    rfl
  · intro c μ memOffset dataOffset length rest hinv h0 hmod hst
    refine ⟨gas_lt_charge_of_le_length c hinv memOffset length ?_,
      opCodeCopy_of_low_zero c rest memOffset dataOffset length hmod hst⟩
    -- a nonzero multiple of 2 ^ 64
    omega
  · intro c offset val rest ho hmem hlast hgas hst
    refine ⟨?_, opMStore_square_wraps c rest offset val ho hmem hlast hgas hst⟩
    rw [ho]
    norm_num [expandWords, memoryCost]

/-- `CALLDATACOPY` of nothing to `2 ^ 64` fails. -/
theorem memoryExpansion_diverges_calldatacopy :
    (opCallDataCopy
      { stack := [18446744073709551616, 0, 0], memory := [], gas := 100, currentConsumedGas := 0,
        lastGasCost := 0, stop := false, err := none, code := [], input := [], returnData := [],
        ret := [], tmp := [], byzantium := true }).err = some .returnDataOutOfBounds :=
  memoryExpansion_diverges.1 _ 18446744073709551616 0 [] (by decide) rfl

end Blade.Evm
