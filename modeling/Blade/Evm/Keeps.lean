import Blade.Evm.Run
import Mathlib.Logic.Relation

/-!
What one step of the interpreter may do to its state.

`State.Keeps c c'` holds when `c'` follows `c` in a memory instruction: the code is the same, the
gas has not grown, the stop flag stays set, an error comes with the stop flag, and a memory of whole
words stays one and does not shrink (the writes stay inside what `allocateMemory` has covered).
`Keeps host s s'` says the same of a frame and adds that the message, the forks and the bitmap
are those of `s`, that the gas has not grown once the host gives back no more gas than a call was
given (`ReturnsGas`), and that the host of a static frame has only taken `StaticStep`s. `KeepsIp`
adds that `ip` has not moved.

Every primitive of the frame (`pop`, `push`, `consumeGas`, `allocateMemory`, `get2`, `exit`, the
access-list charge) keeps `KeepsIp`, and the memory instructions are chains of them; the other
instructions are in `Evm.Steps`.
-/

namespace Blade.Evm

variable {H : Type}

/-- The host gives back no more gas than a call was given. -/
def ReturnsGas (host : Host H) : Prop := ∀ h c, (host.callx h c).1.gasLeft ≤ c.gas

/-- The host steps a static frame may take: warming an address or a slot, reading code (which
fills the host's code cache), and a static call. -/
inductive StaticStep (host : Host H) : H → H → Prop
  | addAddress (h : H) (a : Address) : StaticStep host h (host.addAddressToAccessList h a)
  | addSlot (h : H) (a : Address) (k : Hash) : StaticStep host h (host.addSlotToAccessList h a k)
  | getCode (h : H) (a : Address) : StaticStep host h (host.getCode h a).2
  | getCodeSize (h : H) (a : Address) : StaticStep host h (host.getCodeSize h a).2
  | staticCall (h : H) (c : Contract) (hc : c.static = true) : StaticStep host h (host.callx h c).2

/-! ## Memory instructions -/

namespace State

variable {c c' c'' : State}

theorem gas_consumeGas_of_true {g : UInt64} (h : c.consumeGas g = (true, c')) :
    c'.gas.toNat + g.toNat = c.gas.toNat := by
  by_cases hg : c.gas < g
  · rw [consumeGas_of_lt hg] at h
    cases h
  · have hle : g ≤ c.gas := UInt64.not_lt.1 hg
    rw [consumeGas_of_le hle, Prod.mk.injEq] at h
    rw [← h.2, UInt64.toNat_sub_of_le _ _ hle]
    have := UInt64.le_iff_toNat_le.1 hle
    omega

theorem stop_consumeGas_of_false {g : UInt64} (h : c.consumeGas g = (false, c')) : c'.stop = true := by
  by_cases hg : c.gas < g
  · rw [consumeGas_of_lt hg, Prod.mk.injEq] at h
    rw [← h.2]
    rfl
  · rw [consumeGas_of_le (UInt64.not_lt.1 hg)] at h
    cases h

theorem stop_allocateMemory_of_false {offset size : U256} (h : c.allocateMemory offset size = (false, c')) :
    c'.stop = true := by
  unfold allocateMemory at h
  dsimp only at h
  split at h
  · cases h
    rfl
  split at h
  · cases h
  split at h
  · cases h
    rfl
  split at h
  · split at h
    · cases h
      exact stop_consumeGas_of_false ‹_›
    · cases h
  · cases h

theorem stop_get2_of_false {dst r : List UInt8} {offset length : U256}
    (h : c.get2 dst offset length = ((r, false), c')) : c'.stop = true := by
  unfold get2 at h
  split at h
  · cases h
  split at h
  · cases h
    exact stop_allocateMemory_of_false ‹_›
  · cases h

/-! ### The memory's words

`allocateMemory` grows the memory to the words covering an access, and the instructions write
only inside what it has covered, so the memory stays a whole number of words and never shrinks.
-/

/-- The memory is a whole number of 32-byte words, and its length fits the 64 bits in which
`allocateMemory` compares it. -/
def Words (c : State) : Prop := c.memory.length % 32 = 0 ∧ c.memory.length < 2 ^ 64

theorem length_copySlice {dst src : List UInt8} {o : ℕ} (h : o + src.length ≤ dst.length) :
    (copySlice dst o src).length = dst.length := by
  simp only [copySlice, List.length_append, List.length_take, List.length_drop]
  omega

theorem length_setBytes {dst input : List UInt8} {size : UInt64} {dataOffset : U256}
    (h : size.toNat ≤ dst.length) : (setBytes dst input size dataOffset).length = dst.length := by
  unfold setBytes
  split
  · exact length_copySlice (by simpa using h)
  · apply length_copySlice
    simp only [List.length_append, List.length_take, List.length_drop, List.length_replicate]
    omega

theorem length_take_append_setBytes {mem input : List UInt8} {o : ℕ} {size : UInt64}
    {dataOffset : U256} (h : o + size.toNat ≤ mem.length) :
    (mem.take o ++ setBytes (mem.drop o) input size dataOffset).length = mem.length := by
  rw [List.length_append, length_setBytes (by rw [List.length_drop]; omega), List.length_take,
    List.length_drop]
  omega

theorem memory_consumeGas {g : UInt64} {b : Bool} (h : c.consumeGas g = (b, c')) :
    c'.memory = c.memory := by
  unfold consumeGas at h
  dsimp only at h
  split at h <;> cases h <;> rfl

theorem toNat_newSize {o s : UInt64} (h : (o > 0xffffffffe0 || s > 0xffffffffe0) = false) :
    (o + s).toNat = o.toNat + s.toNat ∧
      ((o + s + 31) / 32 * 32).toNat = 32 * ((o.toNat + s.toNat + 31) / 32) ∧
      o.toNat + s.toNat < 2 ^ 41 := by
  simp only [gt_iff_lt, Bool.or_eq_false_iff, decide_eq_false_iff_not, UInt64.not_lt,
    UInt64.le_iff_toNat_le, UInt64.reduceToNat] at h
  have hs : (o + s).toNat = o.toNat + s.toNat := by
    rw [UInt64.toNat_add, Nat.mod_eq_of_lt (by omega)]
  refine ⟨hs, ?_, by omega⟩
  simp only [UInt64.toNat_mul, UInt64.toNat_div, UInt64.toNat_add, hs, UInt64.reduceToNat]
  rw [Nat.mod_eq_of_lt (by omega), Nat.mod_eq_of_lt (by omega)]
  ring

theorem memory_allocateMemory {offset size : U256} {b : Bool}
    (h : c.allocateMemory offset size = (b, c')) :
    c'.memory = c.memory ∧
        (b = true → size.val ≠ 0 →
          (toUint64 offset).toNat + (toUint64 size).toNat ≤ c.memory.length % 2 ^ 64) ∨
      c.memory.length % 2 ^ 64 < (toUint64 offset).toNat + (toUint64 size).toNat ∧
        c'.memory.length = 32 * (((toUint64 offset).toNat + (toUint64 size).toNat + 31) / 32) ∧
        (toUint64 offset).toNat + (toUint64 size).toNat < 2 ^ 41 := by
  unfold allocateMemory at h
  dsimp only at h
  split at h
  · cases h
    exact .inl ⟨rfl, fun hb => by cases hb⟩
  split at h
  next hs0 =>
    cases h
    exact .inl ⟨rfl, fun _ hs => absurd hs0 hs⟩
  split at h
  · cases h
    exact .inl ⟨rfl, fun hb => by cases hb⟩
  next hbound =>
  obtain ⟨hsum, hw, hlt⟩ := toNat_newSize (Bool.eq_false_iff.2 hbound)
  split at h
  next hgrow =>
    rw [UInt64.lt_iff_toNat_lt, UInt64.toNat_ofNat', hsum] at hgrow
    split at h
    next c₁ h₁ =>
      cases h
      exact .inl ⟨by rw [memory_consumeGas h₁], fun hb => by cases hb⟩
    next c₁ h₁ =>
      cases h
      refine .inr ⟨hgrow, ?_, hlt⟩
      rw [Common.length_extendByteSlice, hw]
  next hcov =>
    cases h
    rw [UInt64.lt_iff_toNat_lt, UInt64.toNat_ofNat', hsum] at hcov
    exact .inl ⟨rfl, fun _ _ => by omega⟩

theorem covers_allocateMemory {offset size : U256} (h : c.allocateMemory offset size = (true, c'))
    (hs : size.val ≠ 0) : (toUint64 offset).toNat + (toUint64 size).toNat ≤ c'.memory.length := by
  rcases memory_allocateMemory h with ⟨hmem, hcov⟩ | ⟨-, hlen, -⟩
  · rw [hmem]
    exact (hcov rfl hs).trans (Nat.mod_le _ _)
  · rw [hlen]
    omega

theorem words_allocateMemory {offset size : U256} {b : Bool}
    (h : c.allocateMemory offset size = (b, c')) (hw : c.Words) :
    c'.Words ∧ c.memory.length ≤ c'.memory.length := by
  rcases memory_allocateMemory h with ⟨hmem, -⟩ | ⟨hgrow, hlen, hlt⟩
  · rw [Words, hmem]
    exact ⟨hw, le_rfl⟩
  · rw [Nat.mod_eq_of_lt hw.2] at hgrow
    rw [Words, hlen]
    omega

theorem val_ne_zero_of_toUint64 {x : U256} (h : toUint64 x ≠ 0) : x.val ≠ 0 := fun h0 =>
  h (by rw [toUint64, h0]; rfl)

theorem returnDataEnd_sub_le {dataOffset length : U256} (hd : isUint64 dataOffset = true)
    (he : isUint64 (dataOffset + length) = true) :
    (toUint64 (dataOffset + length)).toNat - (toUint64 dataOffset).toNat ≤ (toUint64 length).toNat := by
  have hd' : dataOffset.val < 2 ^ 64 := of_decide_eq_true hd
  have he' : (dataOffset + length).val < 2 ^ 64 := of_decide_eq_true he
  rw [toNat_toUint64 he', toNat_toUint64 hd', toUint64, UInt64.toNat_ofNat']
  rw [Fin.val_add] at he' ⊢
  have := length.isLt
  omega

/-- `c'` follows `c` in a memory instruction. -/
structure Keeps (c c' : State) : Prop where
  code : c'.code = c.code
  gas_le : c'.gas.toNat ≤ c.gas.toNat
  stop : c.stop = true → c'.stop = true
  errStops : (c.err.isSome → c.stop = true) → c'.err.isSome → c'.stop = true
  words : c.Words → c'.Words ∧ c.memory.length ≤ c'.memory.length

namespace Keeps

theorem refl (c : State) : Keeps c c := ⟨rfl, le_rfl, id, id, fun h => ⟨h, le_rfl⟩⟩

theorem trans (h₁ : Keeps c c') (h₂ : Keeps c' c'') : Keeps c c'' where
  code := h₂.code.trans h₁.code
  gas_le := h₂.gas_le.trans h₁.gas_le
  stop := h₂.stop ∘ h₁.stop
  errStops := h₂.errStops ∘ h₁.errStops
  words h :=
    have w₁ := h₁.words h
    have w₂ := h₂.words w₁.1
    ⟨w₂.1, w₁.2.trans w₂.2⟩

theorem of_le (hcode : c'.code = c.code) (hgas : c'.gas.toNat ≤ c.gas.toNat)
    (hstop : c'.stop = c.stop) (herr : c'.err = c.err)
    (hmem : c'.memory.length = c.memory.length) : Keeps c c' where
  code := hcode
  gas_le := hgas
  stop h := hstop ▸ h
  errStops h := hstop ▸ herr ▸ h
  words h := by
    rw [Words, hmem]
    exact ⟨h, le_rfl⟩

theorem of_stop (hcode : c'.code = c.code) (hgas : c'.gas.toNat ≤ c.gas.toNat)
    (hstop : c'.stop = true) (hmem : c'.memory = c.memory) : Keeps c c' where
  code := hcode
  gas_le := hgas
  stop _ := hstop
  errStops _ _ := hstop
  words h := by
    rw [Words, hmem]
    exact ⟨h, le_rfl⟩

theorem exit (c : State) (e : Error) : Keeps c (c.exit e) := of_stop rfl le_rfl rfl rfl

theorem halt (c : State) : Keeps c c.halt := of_stop rfl le_rfl rfl rfl

theorem push (c : State) (v : U256) : Keeps c (c.push v) := of_le rfl le_rfl rfl rfl rfl

theorem of_pop {v : U256} (h : c.pop = (v, c')) : Keeps c c' := by
  unfold State.pop at h
  split at h <;> cases h <;> exact of_le rfl le_rfl rfl rfl rfl

theorem of_consumeGas {g : UInt64} {b : Bool} (h : c.consumeGas g = (b, c')) : Keeps c c' := by
  by_cases hg : c.gas < g
  · rw [consumeGas_of_lt hg, Prod.mk.injEq] at h
    rw [← h.2]
    exact of_stop rfl le_rfl rfl rfl
  · have hle : g ≤ c.gas := UInt64.not_lt.1 hg
    rw [consumeGas_of_le hle, Prod.mk.injEq] at h
    rw [← h.2]
    exact of_le rfl (by rw [UInt64.toNat_sub_of_le _ _ hle]; omega) rfl rfl rfl

theorem of_allocateMemory {offset size : U256} {b : Bool} (h : c.allocateMemory offset size = (b, c')) :
    Keeps c c' := by
  have hw := words_allocateMemory h
  unfold allocateMemory at h
  dsimp only at h
  split at h
  · cases h
    exact exit c _
  split at h
  · cases h
    exact refl c
  split at h
  · cases h
    exact exit c _
  split at h
  · -- the charge for the words past the memory, then the resize
    have hlast : ∀ x, Keeps c { c with lastGasCost := x } := fun _ => of_le rfl le_rfl rfl rfl rfl
    split at h
    next c₁ h₁ =>
      cases h
      exact (hlast _).trans (of_consumeGas h₁)
    next c₁ h₁ =>
      cases h
      have k := (hlast _).trans (of_consumeGas h₁)
      exact ⟨k.code, k.gas_le, k.stop, k.errStops, hw⟩
  · cases h
    exact refl c

theorem of_get2 {dst : List UInt8} {offset length : U256} {r : List UInt8 × Bool}
    (h : c.get2 dst offset length = (r, c')) : Keeps c c' := by
  unfold get2 at h
  split at h
  · cases h
    exact refl c
  split at h <;> cases h <;> exact of_allocateMemory ‹_›

end Keeps

end State

open State

section MemoryInstructions

variable (c : State)

theorem keeps_binaryOp (f : U256 → U256 → U256) : State.Keeps c (binaryOp f c) := by
  unfold binaryOp
  split
  next a c₁ h₁ => exact (Keeps.of_pop h₁).trans (Keeps.of_le rfl le_rfl rfl rfl rfl)

theorem keeps_unaryOp (f : U256 → U256) : State.Keeps c (unaryOp f c) :=
  Keeps.of_le rfl le_rfl rfl rfl rfl

theorem keeps_ternaryOp (f : U256 → U256 → U256 → U256) : State.Keeps c (ternaryOp f c) := by
  unfold ternaryOp
  split
  next a c₁ h₁ =>
  split
  next b c₂ h₂ => exact ((Keeps.of_pop h₁).trans (Keeps.of_pop h₂)).trans (Keeps.of_le rfl le_rfl rfl rfl rfl)

theorem keeps_opPop : State.Keeps c (opPop c) := Keeps.of_pop (Prod.mk.eta (p := c.pop)).symm

theorem keeps_opReturnDataSize : State.Keeps c (opReturnDataSize c) := by
  unfold opReturnDataSize
  split
  · exact Keeps.exit c _
  · exact Keeps.push c _

theorem keeps_opMLoad : State.Keeps c (opMLoad c) := by
  unfold opMLoad
  dsimp only
  split
  next c₁ h₁ => exact Keeps.of_allocateMemory h₁
  next c₁ h₁ => exact (Keeps.of_allocateMemory h₁).trans (Keeps.of_le rfl le_rfl rfl rfl rfl)

theorem keeps_pop_pop {a b : U256} {c₁ c₂ : State} (h₁ : c.pop = (a, c₁)) (h₂ : c₁.pop = (b, c₂)) :
    State.Keeps c c₂ :=
  (Keeps.of_pop h₁).trans (Keeps.of_pop h₂)

theorem keeps_opMStore : State.Keeps c (opMStore c) := by
  unfold opMStore
  split
  next offset c₁ h₁ =>
  split
  next val c₂ h₂ =>
  have k := keeps_pop_pop c h₁ h₂
  split
  next c₃ h₃ => exact k.trans (Keeps.of_allocateMemory h₃)
  next c₃ h₃ =>
    -- the word goes into the 32 bytes the allocation has covered
    have hcov : (toUint64 offset).toNat + 32 ≤ c₃.memory.length :=
      covers_allocateMemory h₃ (by decide)
    refine (k.trans (Keeps.of_allocateMemory h₃)).trans (Keeps.of_le rfl le_rfl rfl rfl ?_)
    exact length_copySlice (by rw [Lib.Rlp.length_toBytesFixed]; exact hcov)

theorem keeps_opMStore8 : State.Keeps c (opMStore8 c) := by
  unfold opMStore8
  split
  next offset c₁ h₁ =>
  split
  next val c₂ h₂ =>
  have k := keeps_pop_pop c h₁ h₂
  split
  next c₃ h₃ => exact k.trans (Keeps.of_allocateMemory h₃)
  next c₃ h₃ =>
    exact (k.trans (Keeps.of_allocateMemory h₃)).trans (Keeps.of_le rfl le_rfl rfl rfl (List.length_set ..))

theorem keeps_opSha3 (keccak256 : List UInt8 → List UInt8) : State.Keeps c (opSha3 keccak256 c) := by
  unfold opSha3
  split
  next offset c₁ h₁ =>
  split
  next length c₂ h₂ =>
  have k := keeps_pop_pop c h₁ h₂
  split
  next tmp c₃ h₃ => exact (k.trans (Keeps.of_get2 h₃)).trans (Keeps.of_le rfl le_rfl rfl rfl rfl)
  next tmp c₃ h₃ =>
    have k₃ : Keeps c { c₃ with tmp } :=
      (k.trans (Keeps.of_get2 h₃)).trans (Keeps.of_le rfl le_rfl rfl rfl rfl)
    dsimp only
    split
    next c₄ h₄ => exact k₃.trans (Keeps.of_consumeGas h₄)
    next c₄ h₄ =>
      have k₄ := k₃.trans (Keeps.of_consumeGas h₄)
      exact k₄.trans (Keeps.of_le rfl le_rfl rfl rfl rfl)

theorem keeps_pop_pop_pop {a b d : U256} {c₁ c₂ c₃ : State} (h₁ : c.pop = (a, c₁))
    (h₂ : c₁.pop = (b, c₂)) (h₃ : c₂.pop = (d, c₃)) : State.Keeps c c₃ :=
  (keeps_pop_pop c h₁ h₂).trans (Keeps.of_pop h₃)

theorem keeps_copy {c₁ : State} (k : State.Keeps c c₁) (memOffset length : U256) (g : UInt64)
    (write : State → State)
    (hw : ∀ c, (length.val ≠ 0 → (toUint64 memOffset).toNat + (toUint64 length).toNat ≤
      c.memory.length) → State.Keeps c (write c)) :
    State.Keeps c
      (match c₁.allocateMemory memOffset length with
        | (false, c) => c
        | (true, c) =>
          match c.consumeGas g with
          | (false, c) => c
          | (true, c) => write c) := by
  split
  next c₂ h₂ => exact k.trans (Keeps.of_allocateMemory h₂)
  next c₂ h₂ =>
    have k₂ := k.trans (Keeps.of_allocateMemory h₂)
    split
    next c₃ h₃ => exact k₂.trans (Keeps.of_consumeGas h₃)
    next c₃ h₃ =>
      refine (k₂.trans (Keeps.of_consumeGas h₃)).trans (hw c₃ fun hs => ?_)
      rw [memory_consumeGas h₃]
      exact covers_allocateMemory h₂ hs

theorem keeps_opCallDataCopy : State.Keeps c (opCallDataCopy c) := by
  unfold opCallDataCopy
  split
  next memOffset c₁ h₁ =>
  split
  next dataOffset c₂ h₂ =>
  split
  next length c₃ h₃ =>
  refine keeps_copy c (keeps_pop_pop_pop c h₁ h₂ h₃) memOffset length _ _ fun c hcov => ?_
  split
  next hsize =>
    exact Keeps.of_le rfl le_rfl rfl rfl
      (length_take_append_setBytes (hcov (val_ne_zero_of_toUint64 hsize)))
  · exact Keeps.refl c

theorem keeps_opCodeCopy : State.Keeps c (opCodeCopy c) := by
  unfold opCodeCopy
  split
  next memOffset c₁ h₁ =>
  split
  next dataOffset c₂ h₂ =>
  split
  next length c₃ h₃ =>
  have k := keeps_pop_pop_pop c h₁ h₂ h₃
  split
  · exact k
  refine keeps_copy c k memOffset length _ _ fun c hcov => ?_
  split
  next hsize =>
    exact Keeps.of_le rfl le_rfl rfl rfl
      (length_take_append_setBytes (hcov (val_ne_zero_of_toUint64 hsize)))
  · exact Keeps.refl c

theorem keeps_opReturnDataCopy : State.Keeps c (opReturnDataCopy c) := by
  unfold opReturnDataCopy
  split
  · exact Keeps.exit c _
  split
  next memOffset c₁ h₁ =>
  split
  next dataOffset c₂ h₂ =>
  split
  next length c₃ h₃ =>
  have k := keeps_pop_pop_pop c h₁ h₂ h₃
  dsimp only
  split
  · exact k.trans (Keeps.exit _ _)
  next hchk =>
  simp only [Bool.or_eq_true, Bool.not_eq_true', not_or, Bool.not_eq_false] at hchk
  split
  · exact k
  next hlen =>
  -- the bytes copied are at most the length that the allocation has covered
  refine keeps_copy c k memOffset length _ _ fun c hcov => Keeps.of_le rfl le_rfl rfl rfl ?_
  apply length_copySlice
  have hdata := returnDataEnd_sub_le hchk.1.1 hchk.1.2
  have := hcov hlen
  simp only [List.length_take]
  omega

theorem keeps_opHalt (isRevert : Bool) : State.Keeps c (opHalt isRevert c) := by
  unfold opHalt
  split
  · exact Keeps.exit c _
  split
  next offset c₁ h₁ =>
  split
  next size c₂ h₂ =>
  have k := keeps_pop_pop c h₁ h₂
  split
  next ret c₃ h₃ => exact (k.trans (Keeps.of_get2 h₃)).trans (Keeps.of_le rfl le_rfl rfl rfl rfl)
  next ret c₃ h₃ =>
    have k₃ : Keeps c { c₃ with ret } :=
      (k.trans (Keeps.of_get2 h₃)).trans (Keeps.of_le rfl le_rfl rfl rfl rfl)
    split
    · exact k₃.trans (Keeps.exit _ _)
    · exact k₃.trans (Keeps.halt _)

theorem stop_opHalt (isRevert : Bool) : (opHalt isRevert c).stop = true := by
  unfold opHalt
  split
  · rfl
  split
  next offset c₁ h₁ =>
  split
  next size c₂ h₂ =>
  split
  next ret c₃ h₃ => exact (stop_get2_of_false h₃ : c₃.stop = true)
  next ret c₃ h₃ =>
    split <;> rfl

end MemoryInstructions

/-! ## The frame -/

namespace Frame

/-- Go's loop leaves at the first error; here every error comes with the stop flag, so the
loop, which tests the flag only, leaves there too. -/
def ErrStops (s : Frame H) : Prop := s.err.isSome = true → s.stop = true

theorem isSome_err (s : Frame H) : s.err.isSome = (s.vmErr.isSome || s.st.err.isSome) := by
  unfold err
  cases s.vmErr <;> simp

end Frame

/-- `s'` follows `s` in an instruction of a frame run against `host`. -/
structure Keeps (host : Host H) (s s' : Frame H) : Prop where
  code : s'.st.code = s.st.code
  msg : s'.msg = s.msg
  config : s'.config = s.config
  bitmap : s'.bitmap = s.bitmap
  gas_le : ReturnsGas host → s'.gas.toNat ≤ s.gas.toNat
  staticSteps : s.msg.static = true → Relation.ReflTransGen (StaticStep host) s.host s'.host
  stop : s.stop = true → s'.stop = true
  errStops : s.ErrStops → s'.ErrStops
  words : s.st.Words → s'.st.Words ∧ s.st.memory.length ≤ s'.st.memory.length

/-- `Keeps`, with the instruction pointer where it was. -/
structure KeepsIp (host : Host H) (s s' : Frame H) : Prop extends Keeps host s s' where
  ip : s'.ip = s.ip

variable {host : Host H} {s s' s'' : Frame H}

theorem toNat_add_ofNat_of_lt {g : UInt64} {r : ℕ} (h : g.toNat + r < 2 ^ 64) :
    (g + UInt64.ofNat r).toNat = g.toNat + r := by
  rw [UInt64.toNat_add, UInt64.toNat_ofNat', Nat.mod_eq_of_lt (a := r) (by omega), Nat.mod_eq_of_lt h]

namespace Keeps

theorem refl (s : Frame H) : Keeps host s s :=
  ⟨rfl, rfl, rfl, rfl, fun _ => le_rfl, fun _ => .refl, id, id, fun h => ⟨h, le_rfl⟩⟩

theorem trans (h₁ : Keeps host s s') (h₂ : Keeps host s' s'') : Keeps host s s'' where
  code := h₂.code.trans h₁.code
  msg := h₂.msg.trans h₁.msg
  config := h₂.config.trans h₁.config
  bitmap := h₂.bitmap.trans h₁.bitmap
  gas_le hg := (h₂.gas_le hg).trans (h₁.gas_le hg)
  staticSteps hs := (h₁.staticSteps hs).trans (h₂.staticSteps (h₁.msg ▸ hs))
  stop := h₂.stop ∘ h₁.stop
  errStops := h₂.errStops ∘ h₁.errStops
  words h :=
    have w₁ := h₁.words h
    have w₂ := h₂.words w₁.1
    ⟨w₂.1, w₁.2.trans w₂.2⟩

theorem setIp (h : Keeps host s s') (ip : ℤ) : Keeps host s { s' with ip } :=
  ⟨h.code, h.msg, h.config, h.bitmap, h.gas_le, h.staticSteps, h.stop, h.errStops, h.words⟩

theorem of_stop (hcode : s'.st.code = s.st.code) (hmsg : s'.msg = s.msg)
    (hconfig : s'.config = s.config) (hbitmap : s'.bitmap = s.bitmap)
    (hgas : s'.gas.toNat ≤ s.gas.toNat)
    (hhost : s.msg.static = true → Relation.ReflTransGen (StaticStep host) s.host s'.host)
    (hstop : s'.stop = true) (hmem : s'.st.memory = s.st.memory) : Keeps host s s' where
  code := hcode
  msg := hmsg
  config := hconfig
  bitmap := hbitmap
  gas_le _ := hgas
  staticSteps := hhost
  stop _ := hstop
  errStops _ _ := hstop
  words h := by
    rw [State.Words, hmem]
    exact ⟨h, le_rfl⟩

end Keeps

namespace KeepsIp

theorem refl (s : Frame H) : KeepsIp host s s := ⟨Keeps.refl s, rfl⟩

theorem trans (h₁ : KeepsIp host s s') (h₂ : KeepsIp host s' s'') : KeepsIp host s s'' :=
  ⟨h₁.toKeeps.trans h₂.toKeeps, h₂.ip.trans h₁.ip⟩

theorem of_st {c : State} (h : State.Keeps s.st c) : KeepsIp host s { s with st := c } where
  code := h.code
  msg := rfl
  config := rfl
  bitmap := rfl
  gas_le _ := h.gas_le
  staticSteps _ := .refl
  stop := h.stop
  errStops hs herr := by
    simp only [Frame.ErrStops, Frame.isSome_err, Bool.or_eq_true] at hs herr
    cases hv : s.vmErr with
    | none =>
      rw [hv] at herr hs
      exact h.errStops (fun he => hs (Or.inr he)) (herr.resolve_left (by simp))
    | some e => exact h.stop (hs (Or.inl (by simp [hv])))
  words := h.words
  ip := rfl

theorem mapSt {f : State → State} (h : State.Keeps s.st (f s.st)) : KeepsIp host s (s.mapSt f) :=
  of_st h

theorem exit (s : Frame H) (e : VmError) : KeepsIp host s (s.exit e) :=
  ⟨⟨rfl, rfl, rfl, rfl, fun _ => le_rfl, fun _ => .refl, fun _ => rfl, fun _ _ => rfl,
    fun h => ⟨h, le_rfl⟩⟩, rfl⟩

theorem exitMem (s : Frame H) (e : Error) : KeepsIp host s (s.exitMem e) := mapSt (State.Keeps.exit _ e)

theorem halt (s : Frame H) : KeepsIp host s s.halt := mapSt (State.Keeps.halt _)

theorem push (s : Frame H) (v : U256) : KeepsIp host s (s.push v) := mapSt (State.Keeps.push _ v)

theorem setTop (s : Frame H) (f : U256 → U256) : KeepsIp host s (s.setTop f) :=
  mapSt (State.Keeps.of_le rfl le_rfl rfl rfl rfl)

theorem resetReturnData (s : Frame H) : KeepsIp host s s.resetReturnData :=
  mapSt (State.Keeps.of_le rfl le_rfl rfl rfl rfl)

theorem of_pop {v : U256} (h : s.pop = (v, s')) : KeepsIp host s s' := by
  unfold Frame.pop at h
  split at h
  next v₀ c h₀ =>
    cases h
    exact of_st (State.Keeps.of_pop h₀)

theorem of_popAddr {a : Address} (h : s.popAddr = (a, s')) : KeepsIp host s s' := by
  unfold Frame.popAddr at h
  split at h
  next v₀ s₀ h₀ =>
    cases h
    exact of_pop h₀

theorem of_consumeGas {g : UInt64} {b : Bool} (h : s.consumeGas g = (b, s')) : KeepsIp host s s' := by
  unfold Frame.consumeGas at h
  split at h
  next b₀ c h₀ =>
    cases h
    exact of_st (State.Keeps.of_consumeGas h₀)

theorem of_allocateMemory {offset size : U256} {b : Bool} (h : s.allocateMemory offset size = (b, s')) :
    KeepsIp host s s' := by
  unfold Frame.allocateMemory at h
  split at h
  next b₀ c h₀ =>
    cases h
    exact of_st (State.Keeps.of_allocateMemory h₀)

theorem of_get2 {dst : List UInt8} {offset length : U256} {r : List UInt8 × Bool}
    (h : s.get2 dst offset length = (r, s')) : KeepsIp host s s' := by
  unfold Frame.get2 at h
  split at h
  next r₀ c h₀ =>
    cases h
    exact of_st (State.Keeps.of_get2 h₀)

theorem setHost {h : H} (hh : s.msg.static = true → Relation.ReflTransGen (StaticStep host) s.host h) :
    KeepsIp host s { s with host := h } :=
  ⟨⟨rfl, rfl, rfl, rfl, fun _ => le_rfl, hh, id, id, fun h => ⟨h, le_rfl⟩⟩, rfl⟩

theorem setHost_step {h : H} (hh : StaticStep host s.host h) : KeepsIp host s { s with host := h } :=
  setHost fun _ => .single hh

theorem of_calculateGas {a : Address} {g : UInt64} (h : s.calculateGasForEIP2929 host a = (g, s')) :
    KeepsIp host s s' := by
  unfold Frame.calculateGasForEIP2929 at h
  split at h
  · cases h
    exact refl s
  · cases h
    exact setHost_step (.addAddress _ _)

theorem refund {f : State → State} {r : ℕ} (k : KeepsIp host s s')
    (hf : ∀ c, (f c).code = c.code ∧ (f c).gas = c.gas + UInt64.ofNat r ∧ (f c).stop = c.stop ∧
      (f c).err = c.err ∧ (f c).memory = c.memory)
    (hr : ReturnsGas host → s'.gas.toNat + r ≤ s.gas.toNat) : KeepsIp host s (s'.mapSt f) where
  code := (hf _).1.trans k.code
  msg := k.msg
  config := k.config
  bitmap := k.bitmap
  gas_le hg := by
    have hle : s'.st.gas.toNat + r ≤ s.st.gas.toNat := hr hg
    show (f s'.st).gas.toNat ≤ s.st.gas.toNat
    rw [(hf _).2.1, toNat_add_ofNat_of_lt (by have := s.st.gas.toNat_lt; omega)]
    exact hle
  staticSteps := k.staticSteps
  stop := by
    show s.stop = true → (f s'.st).stop = true
    rw [(hf _).2.2.1]
    exact k.stop
  errStops hs := by
    have hs' := k.errStops hs
    simp only [Frame.ErrStops, Frame.isSome_err] at hs' ⊢
    show (s'.vmErr.isSome || (f s'.st).err.isSome) = true → (f s'.st).stop = true
    rw [(hf _).2.2.1, (hf _).2.2.2.1]
    exact hs'
  words h := by
    have w := k.words h
    show (f s'.st).Words ∧ s.st.memory.length ≤ (f s'.st).memory.length
    rw [State.Words, (hf _).2.2.2.2]
    exact w
  ip := k.ip

end KeepsIp

namespace Frame

theorem gas_consumeGas_of_true {g : UInt64} (h : s.consumeGas g = (true, s')) :
    s'.gas.toNat + g.toNat = s.gas.toNat := by
  unfold Frame.consumeGas at h
  split at h
  next b₀ c h₀ =>
    cases h
    exact State.gas_consumeGas_of_true h₀

theorem memory_consumeGas {g : UInt64} {b : Bool} (h : s.consumeGas g = (b, s')) :
    s'.st.memory = s.st.memory := by
  unfold Frame.consumeGas at h
  split at h
  next b₀ c h₀ =>
    cases h
    exact State.memory_consumeGas h₀

theorem memory_calculateGas {a : Address} {g : UInt64} (h : s.calculateGasForEIP2929 host a = (g, s')) :
    s'.st.memory = s.st.memory := by
  unfold Frame.calculateGasForEIP2929 at h
  split at h <;> cases h <;> rfl

theorem covers_allocateMemory {offset size : U256} (h : s.allocateMemory offset size = (true, s'))
    (hs : size.val ≠ 0) : (toUint64 offset).toNat + (toUint64 size).toNat ≤ s'.st.memory.length := by
  unfold Frame.allocateMemory at h
  split at h
  next b₀ c h₀ =>
    cases h
    exact State.covers_allocateMemory h₀ hs

theorem stop_consumeGas_of_false {g : UInt64} (h : s.consumeGas g = (false, s')) : s'.stop = true := by
  unfold Frame.consumeGas at h
  split at h
  next b₀ c h₀ =>
    cases h
    exact State.stop_consumeGas_of_false h₀

theorem stop_allocateMemory_of_false {offset size : U256} (h : s.allocateMemory offset size = (false, s')) :
    s'.stop = true := by
  unfold Frame.allocateMemory at h
  split at h
  next b₀ c h₀ =>
    cases h
    exact State.stop_allocateMemory_of_false h₀

theorem stop_get2_of_false {dst r : List UInt8} {offset length : U256}
    (h : s.get2 dst offset length = ((r, false), s')) : s'.stop = true := by
  unfold Frame.get2 at h
  split at h
  next r₀ c h₀ =>
    cases h
    exact State.stop_get2_of_false h₀

end Frame

/-- `s'` follows `s` with `ip` in place and, unless it has stopped, has spent gas: what the loop
asks of an instruction that the table charges nothing. -/
structure Spends (host : Host H) (s s' : Frame H) : Prop extends KeepsIp host s s' where
  spends : ReturnsGas host → s'.stop = false → s'.gas.toNat < s.gas.toNat

namespace Spends

theorem of_stop (h : KeepsIp host s s') (hs : s'.stop = true) : Spends host s s' :=
  ⟨h, fun _ h' => absurd hs (by simp [h'])⟩

theorem keeps_trans (h₁ : KeepsIp host s s') (h₂ : Spends host s' s'') : Spends host s s'' :=
  ⟨h₁.trans h₂.toKeepsIp, fun hg hs => lt_of_lt_of_le (h₂.spends hg hs) (h₁.gas_le hg)⟩

theorem trans_keeps (h₁ : Spends host s s') (h₂ : KeepsIp host s' s'') : Spends host s s'' := by
  refine ⟨h₁.toKeepsIp.trans h₂, fun hg hs => ?_⟩
  -- a frame that goes on had not stopped before
  have hs' : s'.stop = false := by
    cases h : s'.stop
    · rfl
    · rw [h₂.stop h] at hs
      cases hs
  exact lt_of_le_of_lt (h₂.gas_le hg) (h₁.spends hg hs')

theorem of_consumeGas {g : UInt64} {b : Bool} (h : s.consumeGas g = (b, s')) (hg : 0 < g.toNat) :
    Spends host s s' := by
  cases b with
  | false => exact of_stop (KeepsIp.of_consumeGas h) (Frame.stop_consumeGas_of_false h)
  | true =>
    refine ⟨KeepsIp.of_consumeGas h, fun _ _ => ?_⟩
    have := Frame.gas_consumeGas_of_true h
    omega

theorem refund {f : State → State} {r : ℕ} (k : KeepsIp host s s')
    (hf : ∀ c, (f c).code = c.code ∧ (f c).gas = c.gas + UInt64.ofNat r ∧ (f c).stop = c.stop ∧
      (f c).err = c.err ∧ (f c).memory = c.memory)
    (hr : ReturnsGas host → s'.gas.toNat + r < s.gas.toNat) : Spends host s (s'.mapSt f) := by
  have kr := KeepsIp.refund k hf fun hg => (hr hg).le
  refine ⟨kr, fun hg _ => ?_⟩
  have hlt : s'.st.gas.toNat + r < s.st.gas.toNat := hr hg
  show (f s'.st).gas.toNat < s.st.gas.toNat
  rw [(hf _).2.1, toNat_add_ofNat_of_lt (by have := s.st.gas.toNat_lt; omega)]
  exact hlt

end Spends

end Blade.Evm
