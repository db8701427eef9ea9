import Mathlib.Data.Nat.Bitwise
import Blade.Bitmap
import Blade.Lib.Word

/-!
The jump-destination analysis of the EVM (`state/runtime/evm/bitmap.go`, `state.validJumpdest`).
When a frame starts, `setCode` walks the code instruction by instruction, a `PUSHn` taking its
`n` bytes of data with it, and sets the bit of every `JUMPDEST` it stops on; a jump is valid
when its 256-bit destination fits in 64 bits, lies in the code and has its bit set.

The analysis is exact: on the bitmap of a frame (fresh, or reset by the state pool) a
destination is valid exactly when it is in the code, holds `JUMPDEST`, and is the start of an
instruction of the sequential decoding, also after a `PUSH` that the end of the code cuts off.
-/

namespace Blade

namespace Common

/-- `ExtendByteSlice` of `helper/common`: zeros appended up to `needLength`, and the slice cut
to it. -/
def extendByteSlice (b : List UInt8) (needLength : ℕ) : List UInt8 :=
  (if b.length < needLength then b ++ List.replicate (needLength - b.length) 0 else b).take
    needLength

@[simp] theorem length_extendByteSlice (b : List UInt8) (needLength : ℕ) :
    (extendByteSlice b needLength).length = needLength := by
  unfold extendByteSlice
  split <;> simp <;> omega

end Common

namespace Evm

def JUMPDEST : UInt8 := 0x5b

def bitmapSize : ℕ := 8

/-- From `PUSH1` (0x60) to `PUSH32` (0x7f). -/
def isPushOp (i : UInt8) : Bool := i >>> 5 == 3

/-- The bitmap of a frame's code; bit `i % 8` of byte `i / 8` marks position `i`. -/
structure Bitmap where
  buf : List UInt8

namespace Bitmap

/-- `isSet`; the source reads the byte by index, always in range where it is called. -/
def isSet (b : Bitmap) (i : ℕ) : Bool := (b.buf.getD (i / bitmapSize) 0 &&& bit i) != 0

def set (b : Bitmap) (i : ℕ) : Bitmap := ⟨b.buf.modify (i / bitmapSize) (· ||| bit i)⟩

/-- `reset`: the bytes are cleared and the slice emptied; what `append` writes over later is
zero again, so the cleared capacity is not modelled. -/
def reset (_ : Bitmap) : Bitmap := ⟨[]⟩

/-- The loop of `setCode` from position `i`. -/
def setCodeLoop (code : List UInt8) (i : ℕ) (b : Bitmap) : Bitmap :=
  if h : i < code.length then
    let c := code[i]
    if isPushOp c then
      -- push op
      setCodeLoop code (i + (c.toNat - 0x60 + 2)) b
    else
      -- jumpdest
      setCodeLoop code (i + 1) (if c = JUMPDEST then b.set i else b)
  else b
termination_by code.length - i

def setCode (b : Bitmap) (code : List UInt8) : Bitmap :=
  setCodeLoop code 0 ⟨Common.extendByteSlice b.buf (code.length / bitmapSize + 1)⟩

end Bitmap

/-- `validJumpdest`: `dest` is a 256-bit word, narrowed to 64 bits when it fits. -/
def validJumpdest (code : List UInt8) (bitmap : Bitmap) (dest : Fin (2 ^ 256)) : Bool :=
  let udest := dest.val % 2 ^ 64
  let overflow := decide (2 ^ 64 ≤ dest.val)
  if overflow || decide (code.length ≤ udest) then false else bitmap.isSet udest

/-! ## The sequential decoding -/

/-- The length of the instruction whose opcode is `c`: a `PUSHn` is followed by `n` bytes. -/
def instructionLength (c : UInt8) : ℕ :=
  if 0x60 ≤ c.toNat ∧ c.toNat ≤ 0x7f then c.toNat - 0x5f + 1 else 1

/-- `Reaches code i j`: decoding the code from position `i`, instruction after instruction,
stops at position `j`. -/
inductive Reaches (code : List UInt8) : ℕ → ℕ → Prop
  | refl (i : ℕ) : Reaches code i i
  | step {i j : ℕ} (c : UInt8) (hc : code[i]? = some c) (h : Reaches code (i + instructionLength c) j) :
      Reaches code i j

namespace Reaches

variable {code : List UInt8} {i j : ℕ}

theorem instructionLength_pos (c : UInt8) : 0 < instructionLength c := by
  unfold instructionLength
  split <;> omega

theorem le (h : Reaches code i j) : i ≤ j := by
  induction h with
  | refl => exact le_refl _
  | step c _ _ ih =>
    have := instructionLength_pos c
    omega

theorem eq_of_le (hi : code.length ≤ i) (h : Reaches code i j) : j = i := by
  cases h with
  | refl => rfl
  | step c hc _ =>
    rw [List.getElem?_eq_none hi] at hc
    cases hc

theorem iff_of_lt (hi : i < code.length) :
    Reaches code i j ↔ j = i ∨ Reaches code (i + instructionLength code[i]) j := by
  constructor
  · intro h
    cases h with
    | refl => exact Or.inl rfl
    | step c hc h =>
      rw [List.getElem?_eq_getElem hi, Option.some_inj] at hc
      rw [hc]
      exact Or.inr h
  · rintro (rfl | h)
    · exact refl j
    · exact step code[i] (List.getElem?_eq_getElem hi) h

end Reaches

theorem isPushOp_iff (c : UInt8) : isPushOp c = true ↔ 0x60 ≤ c.toNat ∧ c.toNat ≤ 0x7f := by
  have hc := c.toNat_lt
  simp only [isPushOp, beq_iff_eq, ← UInt8.toNat_inj, UInt8.toNat_shiftRight,
    Nat.shiftRight_eq_div_pow]
  simp only [UInt8.reduceToNat, Nat.reduceMod, Nat.reducePow]
  omega

theorem instructionLength_eq (c : UInt8) :
    instructionLength c = if isPushOp c then c.toNat - 0x60 + 2 else 1 := by
  unfold instructionLength
  by_cases h : isPushOp c = true
  · rw [if_pos ((isPushOp_iff c).1 h), if_pos h]
    have := (isPushOp_iff c).1 h
    omega
  · rw [if_neg (fun h' => h ((isPushOp_iff c).2 h')), if_neg h]

namespace Bitmap

theorem isSet_eq_testBit (b : Bitmap) (i : ℕ) :
    b.isSet i = (b.buf.getD (i / bitmapSize) 0).toNat.testBit (i % 8) := by
  unfold isSet
  rw [Bool.eq_iff_iff, bne_iff_ne, ne_eq, ← UInt8.toNat_inj, UInt8.toNat_and,
    Blade.Bitmap.bit_toNat, Nat.and_two_pow]
  cases (b.buf.getD (i / bitmapSize) 0).toNat.testBit (i % 8) <;> simp

@[simp] theorem length_set (b : Bitmap) (i : ℕ) : (b.set i).buf.length = b.buf.length :=
  List.length_modify _ _ _

theorem isSet_set {b : Bitmap} {i : ℕ} (hi : i / bitmapSize < b.buf.length) (j : ℕ) :
    (b.set i).isSet j = (b.isSet j || decide (j = i)) := by
  have hji : j = i ↔ i / bitmapSize = j / bitmapSize ∧ i % 8 = j % 8 := by
    unfold bitmapSize
    constructor
    · rintro rfl
      exact ⟨rfl, rfl⟩
    · rintro ⟨hd, hm⟩
      omega
  rw [isSet_eq_testBit, isSet_eq_testBit]
  simp only [set, List.getD_eq_getElem?_getD, List.getElem?_modify]
  by_cases hd : i / bitmapSize = j / bitmapSize
  · rw [← hd, List.getElem?_eq_getElem hi]
    simp only [Option.map_eq_map, Option.map_some, if_true, Option.getD_some, UInt8.toNat_or,
      Blade.Bitmap.bit_toNat, Nat.testBit_or, Nat.testBit_two_pow]
    simp [hji, hd]
  · have hne : ¬ j = i := fun h => hd (hji.1 h).1
    cases b.buf[j / bitmapSize]? <;> simp [hd, hne]

@[simp] theorem length_setCodeLoop (code : List UInt8) (i : ℕ) (b : Bitmap) :
    (setCodeLoop code i b).buf.length = b.buf.length := by
  fun_induction setCodeLoop code i b with
  | case1 i b hi c hpush ih => exact ih
  | case2 i b hi c hpush ih =>
    simp only [dite_eq_ite] at ih
    rw [ih]
    split <;> simp
  | case3 => rfl

theorem isSet_setCodeLoop (code : List UInt8) (i : ℕ) (b : Bitmap)
    (hb : code.length / bitmapSize < b.buf.length) (j : ℕ) :
    (setCodeLoop code i b).isSet j = true ↔
      b.isSet j = true ∨ (Reaches code i j ∧ code[j]? = some JUMPDEST) := by
  fun_induction setCodeLoop code i b with
  | case1 i b hi c hpush ih =>
    -- a push is not a `JUMPDEST`, and the decoding skips its data
    have hne : c ≠ JUMPDEST := by
      intro h
      rw [h] at hpush
      exact absurd hpush (by decide)
    have hc : code[i] = c := rfl
    rw [ih hb, Reaches.iff_of_lt hi, hc, instructionLength_eq, if_pos hpush]
    constructor
    · rintro (h | ⟨h, hj⟩)
      · exact Or.inl h
      · exact Or.inr ⟨Or.inr h, hj⟩
    · rintro (h | ⟨rfl | h, hj⟩)
      · exact Or.inl h
      · rw [List.getElem?_eq_getElem hi, Option.some_inj] at hj
        exact absurd hj hne
      · exact Or.inr ⟨h, hj⟩
  | case2 i b hi c hpush ih =>
    have hc : code[i] = c := rfl
    have hin : i / bitmapSize < b.buf.length :=
      lt_of_le_of_lt (Nat.div_le_div_right hi.le) hb
    have hb' : code.length / bitmapSize < (if c = JUMPDEST then b.set i else b).buf.length := by
      split <;> simpa using hb
    have hcode : code[i]? = some c := List.getElem?_eq_getElem hi
    simp only [dite_eq_ite] at ih
    rw [ih hb', Reaches.iff_of_lt hi, hc, instructionLength_eq, if_neg hpush]
    by_cases hj : c = JUMPDEST
    · rw [if_pos hj, isSet_set hin, Bool.or_eq_true, decide_eq_true_eq]
      constructor
      · rintro ((h | rfl) | ⟨h, hd⟩)
        · exact Or.inl h
        · exact Or.inr ⟨Or.inl rfl, hcode.trans (congrArg some hj)⟩
        · exact Or.inr ⟨Or.inr h, hd⟩
      · rintro (h | ⟨rfl | h, hd⟩)
        · exact Or.inl (Or.inl h)
        · exact Or.inl (Or.inr rfl)
        · exact Or.inr ⟨h, hd⟩
    · rw [if_neg hj]
      constructor
      · rintro (h | ⟨h, hd⟩)
        · exact Or.inl h
        · exact Or.inr ⟨Or.inr h, hd⟩
      · rintro (h | ⟨rfl | h, hd⟩)
        · exact Or.inl h
        · rw [hcode, Option.some_inj] at hd
          exact absurd hd hj
        · exact Or.inr ⟨h, hd⟩
  | case3 i b hi =>
    -- past the end the decoding reaches no position of the code
    constructor
    · exact Or.inl
    · rintro (h | ⟨h, hj⟩)
      · exact h
      · rw [Reaches.eq_of_le (not_lt.1 hi) h, List.getElem?_eq_none (not_lt.1 hi)] at hj
        cases hj

theorem isSet_replicate_zero (n j : ℕ) : (⟨List.replicate n 0⟩ : Bitmap).isSet j = false := by
  rw [isSet_eq_testBit, List.getD_eq_getElem?_getD, List.getElem?_replicate]
  split <;> simp

theorem length_setCode (b : Bitmap) (code : List UInt8) :
    ((b.reset).setCode code).buf.length = code.length / bitmapSize + 1 := by
  simp [setCode, reset, Common.extendByteSlice]

theorem isSet_setCode (b : Bitmap) (code : List UInt8) (j : ℕ) :
    ((b.reset).setCode code).isSet j = true ↔ Reaches code 0 j ∧ code[j]? = some JUMPDEST := by
  have h0 : (⟨Common.extendByteSlice (b.reset).buf (code.length / bitmapSize + 1)⟩ : Bitmap) =
      ⟨List.replicate (code.length / bitmapSize + 1) 0⟩ := by
    simp [reset, Common.extendByteSlice]
  unfold setCode
  rw [h0, isSet_setCodeLoop _ _ _ (by simp), isSet_replicate_zero]
  simp

/-- The byte `isSet` reads for a position of the code is in the buffer, so the source never
indexes out of range there. -/
theorem index_lt_length_setCode (b : Bitmap) (code : List UInt8) {d : ℕ} (hd : d < code.length) :
    d / bitmapSize < ((b.reset).setCode code).buf.length := by
  rw [length_setCode]
  exact Nat.lt_succ_of_le (Nat.div_le_div_right hd.le)

end Bitmap

theorem validJumpdest_exact (b : Bitmap) (code : List UInt8) (hlen : code.length < 2 ^ 64)
    (d : Fin (2 ^ 256)) :
    validJumpdest code ((b.reset).setCode code) d = true ↔
      d.val < code.length ∧ code[d.val]? = some JUMPDEST ∧ Reaches code 0 d.val := by
  unfold validJumpdest
  by_cases hd : 2 ^ 64 ≤ d.val
  · -- a destination that does not fit in 64 bits is past the end of the code
    simp only [decide_eq_true hd, Bool.true_or, if_true, Bool.false_eq_true, false_iff]
    rintro ⟨hlt, -⟩
    omega
  · have hmod : d.val % 2 ^ 64 = d.val := Nat.mod_eq_of_lt (not_le.1 hd)
    simp only [hmod, decide_eq_false hd, Bool.false_or]
    by_cases hl : code.length ≤ d.val
    · simp only [decide_eq_true hl, if_true, Bool.false_eq_true, false_iff]
      rintro ⟨hlt, -⟩
      omega
    · rw [decide_eq_false hl, if_neg Bool.false_ne_true, Bitmap.isSet_setCode]
      constructor
      · rintro ⟨hr, hj⟩
        exact ⟨not_le.1 hl, hj, hr⟩
      · rintro ⟨-, hj, hr⟩
        exact ⟨hr, hj⟩

/-- `PUSH1` hides the `JUMPDEST` of its data; the one after it is valid. -/
theorem validJumpdest_exact_push1 :
    ([0x60, 0x5b, 0x5b] : List UInt8).length < 2 ^ 64 ∧
      (validJumpdest [0x60, 0x5b, 0x5b] ((Bitmap.reset ⟨[]⟩).setCode [0x60, 0x5b, 0x5b]) 2 = true ↔
        2 < 3 ∧ ([0x60, 0x5b, 0x5b] : List UInt8)[2]? = some JUMPDEST ∧
          Reaches [0x60, 0x5b, 0x5b] 0 2) :=
  ⟨by decide, validJumpdest_exact ⟨[]⟩ [0x60, 0x5b, 0x5b] (by decide) 2⟩

end Evm

end Blade
