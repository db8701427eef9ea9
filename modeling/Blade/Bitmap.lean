import Mathlib.Tactic.IntervalCases

/-!
The signer and removal bitmaps of `consensus/polybft/bitmap/bitmap.go`: a byte
slice in which index `i` is bit `i % 8` of byte `i / 8`.
-/

namespace Blade

structure Bitmap where
  bytes : List UInt8
  deriving DecidableEq, Repr

def extendByteSlice (b : List UInt8) (needLen : Nat) : List UInt8 :=
  if 0 < needLen - b.length then b ++ List.replicate (needLen - b.length) 0 else b

def bit (idx : Nat) : UInt8 := 1 <<< (idx % 8).toUInt8

namespace Bitmap

def set (b : Bitmap) (idx : Nat) : Bitmap :=
  ⟨(extendByteSlice b.bytes (idx / 8 + 1)).modify (idx / 8) (· ||| bit idx)⟩

def len (b : Bitmap) : Nat := b.bytes.length * 8

def isSet (b : Bitmap) (idx : Nat) : Bool :=
  if b.len ≤ idx then false else (b.bytes.getD (idx / 8) 0 &&& bit idx) == bit idx

theorem bit_toNat (idx : Nat) : (bit idx).toNat = 2 ^ (idx % 8) := by
  have h : idx % 8 < 8 := Nat.mod_lt _ (by decide)
  unfold bit
  generalize idx % 8 = k at *
  interval_cases k <;> rfl

theorem and_bit_eq_bit (y : UInt8) (idx : Nat) :
    (y &&& bit idx) = bit idx ↔ y.toNat.testBit (idx % 8) := by
  rw [← UInt8.toNat_inj, UInt8.toNat_and, bit_toNat]
  constructor
  · intro h
    have := congrArg (fun n => n.testBit (idx % 8)) h
    simpa [Nat.testBit_and, Nat.testBit_two_pow_self] using this
  · intro h
    apply Nat.eq_of_testBit_eq
    intro j
    rw [Nat.testBit_and, Nat.testBit_two_pow]
    by_cases hj : idx % 8 = j
    · subst hj; simp [h]
    · simp [hj]

theorem getD_extendByteSlice (b : List UInt8) (needLen k : Nat) :
    (extendByteSlice b needLen).getD k 0 = b.getD k 0 := by
  unfold extendByteSlice
  split
  · rw [List.getD_eq_getElem?_getD, List.getD_eq_getElem?_getD, List.getElem?_append]
    split
    · rfl
    · rename_i hk
      rw [List.getElem?_replicate, List.getElem?_eq_none (l := b) (by omega)]
      split <;> rfl
  · rfl

theorem length_extendByteSlice (b : List UInt8) (needLen : Nat) :
    (extendByteSlice b needLen).length = max b.length needLen := by
  unfold extendByteSlice
  split <;> simp <;> omega

theorem isSet_eq_testBit (b : Bitmap) (idx : Nat) :
    b.isSet idx = (b.bytes.getD (idx / 8) 0).toNat.testBit (idx % 8) := by
  unfold isSet
  split
  · rename_i h
    have hb : b.bytes.getD (idx / 8) 0 = 0 := by
      rw [List.getD_eq_getElem?_getD, List.getElem?_eq_none (by unfold len at h; omega)]
      rfl
    rw [hb, UInt8.toNat_zero, Nat.zero_testBit]
  · rw [Bool.eq_iff_iff, beq_iff_eq, and_bit_eq_bit]

theorem getD_set (b : Bitmap) (i k : Nat) :
    (b.set i).bytes.getD k 0 = if i / 8 = k then b.bytes.getD k 0 ||| bit i else b.bytes.getD k 0 := by
  have hlen : i / 8 < (extendByteSlice b.bytes (i / 8 + 1)).length := by
    rw [length_extendByteSlice]; omega
  unfold set
  rw [List.getD_eq_getElem?_getD, List.getElem?_modify]
  by_cases hk : i / 8 = k
  · subst hk
    have e : (extendByteSlice b.bytes (i / 8 + 1))[i / 8] = b.bytes.getD (i / 8) 0 := by
      rw [← getD_extendByteSlice b.bytes (i / 8 + 1), List.getD_eq_getElem?_getD,
        List.getElem?_eq_getElem hlen, Option.getD_some]
    rw [List.getElem?_eq_getElem hlen]
    simp [e]
  · rw [← getD_extendByteSlice b.bytes (i / 8 + 1), List.getD_eq_getElem?_getD]
    cases (extendByteSlice b.bytes (i / 8 + 1))[k]? <;> simp [hk]

theorem isSet_set (b : Bitmap) (i j : Nat) :
    (b.set i).isSet j = (decide (i = j) || b.isSet j) := by
  rw [isSet_eq_testBit, isSet_eq_testBit, getD_set]
  by_cases hk : i / 8 = j / 8
  · rw [if_pos hk, UInt8.toNat_or, Nat.testBit_or, bit_toNat, Nat.testBit_two_pow]
    have hij : i = j ↔ i % 8 = j % 8 := by omega
    by_cases h : i % 8 = j % 8
    · simp [hij.mpr h]
    · have hne : i ≠ j := fun e => h (hij.mp e)
      simp [h, hne]
  · rw [if_neg hk]
    have hij : i ≠ j := fun e => hk (e ▸ rfl)
    simp [hij]

theorem isSet_empty (idx : Nat) : (⟨[]⟩ : Bitmap).isSet idx = false := by
  simp [isSet, len]

end Bitmap

end Blade
