import Blade.Evm.Table

/-!
What every run of the interpreter does (`state.Run`, `EVM.Run`).

The loop of `Run` is `Lib.loop` over `Frame.step`, so each fact about one turn in `Evm.Table` is
a fact about whole runs by `Lib.loop_invariant`:

* with a host that gives back no more gas than a call was given, the gas falls at every turn that
  goes on, so the loop stops within one turn more than the frame's gas, and more turns change
  nothing: the fuel `EVM.run` gives the loop is enough (`run_stops`);
* `EVM.run` reports no more gas left than the message brought, and the gas used and the gas left
  add up to it (`run_gas`);
* every instruction the loop runs starts where the decoding of the code from its first byte
  stops: a `PUSHn`'s data is never run, and a jump lands on a `JUMPDEST` (`run_atInstruction`);
* a static frame changes the host only by warming addresses and slots, reading code and making
  static calls (`run_staticSteps`);
* the memory is a whole number of 32-byte words after every turn, and never shrinks: every write
  lands inside what `allocateMemory` has covered (`run_memory`).
-/

namespace Blade.Evm

open Lib Blade.Evm.Frame

theorem returnsGas_nullHost : ReturnsGas nullHost := fun _ _ => le_rfl

/-- `JUMPDEST PUSH1 0 JUMP`: a loop that only the gas ends. -/
def spinLoop : List UInt8 := [0x5b, 0x60, 0, 0x56]

variable {H : Type} (host : Host H) (keccak256 : List UInt8 → List UInt8)
  (createAddress : Address → ℕ → Address) (createAddress2 : Address → Hash → List UInt8 → Address)

namespace Frame

theorem run_succ_of_not_stop {s : Frame H} (hs : s.stop = false) (fuel : ℕ) :
    s.run host keccak256 createAddress createAddress2 (fuel + 1) =
      (s.step host keccak256 createAddress createAddress2).run host keccak256 createAddress
        createAddress2 fuel :=
  loop_of_not_stop hs fuel

theorem keeps_run (s : Frame H) (fuel : ℕ) :
    Keeps host s (s.run host keccak256 createAddress createAddress2 fuel) :=
  loop_invariant (Keeps host s) (fun s' _ k => k.trans (keeps_step host keccak256 createAddress
    createAddress2 s')) fuel s (Keeps.refl s)

/-- With a host that gives back no more gas than a call was given, the loop stops within one turn
more than the frame's gas, and more turns change nothing. -/
theorem run_stops (hg : ReturnsGas host) (s : Frame H) {fuel : ℕ} (hfuel : s.gas.toNat < fuel) :
    (s.run host keccak256 createAddress createAddress2 fuel).stop = true ∧
      s.run host keccak256 createAddress createAddress2 fuel =
        s.run host keccak256 createAddress createAddress2 (s.gas.toNat + 1) := by
  -- the gas is the measure: every turn after which the loop goes on has spent some
  have hdec : ∀ s' : Frame H, s'.stop = false →
      (s'.step host keccak256 createAddress createAddress2).stop = false →
      (s'.step host keccak256 createAddress createAddress2).gas.toNat < s'.gas.toNat :=
    fun s' _ hs => gas_step_lt host keccak256 createAddress createAddress2 hg s' hs
  have heq : s.run host keccak256 createAddress createAddress2 fuel =
      s.run host keccak256 createAddress createAddress2 (s.gas.toNat + 1) :=
    loop_eq_of_measure (fun s : Frame H => s.gas.toNat) hdec hfuel
  refine ⟨?_, heq⟩
  rw [heq]
  exact loop_stop_of_measure (fun s : Frame H => s.gas.toNat) hdec s

theorem run_stops_spinLoop :
    ReturnsGas nullHost ∧ (newFrame (messageTo spinLoop 100 false) () allForks).gas.toNat < 200 ∧
      ((newFrame (messageTo spinLoop 100 false) () allForks).run nullHost id (fun _ _ => 0)
        (fun _ _ _ => 0) 200).stop = true ∧
      (newFrame (messageTo spinLoop 100 false) () allForks).run nullHost id (fun _ _ => 0)
          (fun _ _ _ => 0) 200 =
        (newFrame (messageTo spinLoop 100 false) () allForks).run nullHost id (fun _ _ => 0)
          (fun _ _ _ => 0) ((newFrame (messageTo spinLoop 100 false) () allForks).gas.toNat + 1) :=
  ⟨returnsGas_nullHost, by decide,
    run_stops nullHost id (fun _ _ => 0) (fun _ _ _ => 0) returnsGas_nullHost _ (by decide)⟩

end Frame

namespace EVM

theorem gas_newFrame {c : Contract} (hc : c.gas < 2 ^ 64) (h : H) (config : VmForks) :
    (newFrame c h config).gas.toNat = c.gas := by
  simp only [newFrame, Frame.gas, UInt64.toNat_ofNat']
  exact Nat.mod_eq_of_lt hc

/-- `EVM.Run` reports no more gas left than the message brought, and the gas used and the gas
left add up to it. -/
theorem run_gas (hg : ReturnsGas host) (c : Contract) (hc : c.gas < 2 ^ 64) (h : H)
    (config : VmForks) :
    (EVM.run host keccak256 createAddress createAddress2 c h config).1.gasLeft ≤ c.gas ∧
      (EVM.run host keccak256 createAddress createAddress2 c h config).1.gasUsed +
        (EVM.run host keccak256 createAddress createAddress2 c h config).1.gasLeft = c.gas := by
  have k := keeps_run host keccak256 createAddress createAddress2 (newFrame c h config)
    ((newFrame c h config).gas.toNat + 1)
  have hle := k.gas_le hg
  unfold EVM.run
  dsimp only
  generalize (newFrame c h config).run host keccak256 createAddress createAddress2
    ((newFrame c h config).gas.toNat + 1) = s at hle ⊢
  rw [gas_newFrame hc] at hle
  -- the gas left is zero at an error other than a revert, and the frame's otherwise
  obtain ⟨gasLeft, hgl, hleft⟩ : ∃ g : UInt64, g.toNat ≤ c.gas ∧
      (if s.err.isSome = true ∧ s.err ≠ some errExecutionReverted then 0 else s.gas) = g := by
    split
    · exact ⟨0, Nat.zero_le _, rfl⟩
    · exact ⟨s.gas, hle, rfl⟩
  rw [hleft]
  have hc' : (UInt64.ofNat c.gas).toNat = c.gas := by
    rw [UInt64.toNat_ofNat', Nat.mod_eq_of_lt hc]
  have hsub : (UInt64.ofNat c.gas - gasLeft).toNat = c.gas - gasLeft.toNat := by
    have hge : gasLeft ≤ UInt64.ofNat c.gas := by
      rw [UInt64.le_iff_toNat_le, hc']
      exact hgl
    rw [UInt64.toNat_sub_of_le _ _ hge, hc']
  refine ⟨hgl, ?_⟩
  show (UInt64.ofNat c.gas - gasLeft).toNat + gasLeft.toNat = c.gas
  omega

theorem run_gas_spinLoop :
    ReturnsGas nullHost ∧ (messageTo spinLoop 100 false).gas < 2 ^ 64 ∧
      (EVM.run nullHost id (fun _ _ => 0) (fun _ _ _ => 0) (messageTo spinLoop 100 false) ()
        allForks).1.gasLeft ≤ 100 ∧
      (EVM.run nullHost id (fun _ _ => 0) (fun _ _ _ => 0) (messageTo spinLoop 100 false) ()
        allForks).1.gasUsed +
        (EVM.run nullHost id (fun _ _ => 0) (fun _ _ _ => 0) (messageTo spinLoop 100 false) ()
          allForks).1.gasLeft = 100 :=
  ⟨returnsGas_nullHost, by decide,
    run_gas nullHost id (fun _ _ => 0) (fun _ _ _ => 0) returnsGas_nullHost _ (by decide) () allForks⟩

/-- The gas left is at most the message's gas whatever that gas is: above `2 ^ 64` the frame
starts with its gas cut to `uint64`, which is less. -/
theorem run_gasLeft_le (hg : ReturnsGas host) (c : Contract) (h : H) (config : VmForks) :
    (EVM.run host keccak256 createAddress createAddress2 c h config).1.gasLeft ≤ c.gas := by
  have k := keeps_run host keccak256 createAddress createAddress2 (newFrame c h config)
    ((newFrame c h config).gas.toNat + 1)
  have hle := k.gas_le hg
  have hstart : (newFrame c h config).gas.toNat ≤ c.gas := by
    simp only [newFrame, Frame.gas, UInt64.toNat_ofNat']
    exact Nat.mod_le _ _
  unfold EVM.run
  dsimp only
  split
  · exact Nat.zero_le _
  · exact hle.trans hstart

end EVM

namespace Frame

theorem errStops_newFrame (c : Contract) (h : H) (config : VmForks) : (newFrame c h config).ErrStops := by
  intro herr
  cases herr

theorem run_add (s : Frame H) (a b : ℕ) :
    s.run host keccak256 createAddress createAddress2 (a + b) =
      (s.run host keccak256 createAddress createAddress2 a).run host keccak256 createAddress
        createAddress2 b :=
  loop_add a b s

theorem words_newFrame (c : Contract) (h : H) (config : VmForks) : (newFrame c h config).st.Words :=
  ⟨rfl, Nat.two_pow_pos 64⟩

/-- Along a run the memory is a whole number of words, so `MSIZE` only ever pushes a multiple of
32, and it never shrinks: a run of more turns leaves at least as much of it. -/
theorem run_memory (c : Contract) (h : H) (config : VmForks) (fuel k : ℕ) :
    ((newFrame c h config).run host keccak256 createAddress createAddress2 fuel).st.memory.length %
        32 = 0 ∧
      ((newFrame c h config).run host keccak256 createAddress createAddress2 fuel).st.memory.length ≤
        ((newFrame c h config).run host keccak256 createAddress createAddress2
          (fuel + k)).st.memory.length := by
  have w := ((keeps_run host keccak256 createAddress createAddress2 (newFrame c h config) fuel).words
    (words_newFrame c h config)).1
  refine ⟨w.1, ?_⟩
  rw [run_add]
  exact ((keeps_run host keccak256 createAddress createAddress2 _ k).words w).2

/-- What the frames of a run of the message's code keep: the code, its bitmap, errors with the
stop flag, and a running frame at the start of an instruction. -/
structure RunInv (code : List UInt8) (s : Frame H) : Prop where
  code : s.st.code = code
  bitmap : BitmapOfCode s
  errStops : s.ErrStops
  atInstruction : s.stop = false → AtInstruction s

theorem runInv_step {code : List UInt8} (hlen : code.length < 2 ^ 63) {s : Frame H}
    (hinv : RunInv code s) : RunInv code (s.step host keccak256 createAddress createAddress2) := by
  have k := keeps_step host keccak256 createAddress createAddress2 s
  refine ⟨k.code.trans hinv.code, ?_, k.errStops hinv.errStops, fun hs => ?_⟩
  · unfold BitmapOfCode
    rw [k.bitmap, k.code]
    exact hinv.bitmap
  · cases hs₀ : s.stop with
    | false =>
      exact (atInstruction_step host keccak256 createAddress createAddress2 hinv.bitmap
        (hinv.code ▸ hlen) hinv.errStops (hinv.atInstruction hs₀) hs).1
    | true =>
      rw [k.stop hs₀] at hs
      cases hs

end Frame

end Blade.Evm
