import Blade.Evm.Steps

/-!
The dispatch table against the instructions' lemmas, and one turn of the loop.

Every handler `init` registers is `Sound`: its instruction keeps the frame, charges gas itself or
stops when the table charges nothing, and moves `ip` as its opcode says (`IpMove`). One turn of
`Run` (`Frame.step`) is then a stop before the instruction, or the table's charge and the
instruction (`step_cases`); from that, a turn keeps the frame, spends gas unless it stops, and
leaves a frame that runs on at the start of an instruction of its code (`AtInstruction`): a
`PUSHn` is stepped over with its data, and a jump lands on a `JUMPDEST` that the decoding of the
code from its first byte reaches.
-/

namespace Blade.Evm

open State Blade.Evm.Frame

variable {H : Type}

/-- How the instruction of `op` moves `ip`: `PUSHn` to the last of its `n` bytes, `JUMP` and
`JUMPI` as `JumpsTo` says, the others not at all. -/
def IpMove (op : UInt8) (s s' : Frame H) : Prop :=
  if isPushOp op then s'.ip = s.ip + ((op.toNat - 0x5f : ℕ) : ℤ)
  else if op = 0x56 ∨ op = 0x57 then JumpsTo s s'
  else s'.ip = s.ip

def Plain (op : UInt8) : Prop := isPushOp op = false ∧ op ≠ 0x56 ∧ op ≠ 0x57

instance (op : UInt8) : Decidable (Plain op) := inferInstanceAs (Decidable (_ ∧ _ ∧ _))

namespace Handler

/-- What the loop needs of the handler registered for `op`. -/
structure Sound (host : Host H) (op : UInt8) (h : Handler H) : Prop where
  keeps : ∀ s, Keeps host s (h.inst s)
  spends : h.gas = 0 → ∀ s, Spends host s (h.inst s)
  ip : ∀ s, IpMove op s (h.inst s)

variable {host : Host H} {op : UInt8} {inst : Frame H → Frame H} {n : ℕ} {gas : UInt64}

theorem ipMove_of_plain (hop : Plain op) {s s' : Frame H} (h : s'.ip = s.ip) : IpMove op s s' := by
  unfold IpMove
  rw [if_neg (by simp [hop.1]), if_neg (by simp [hop.2.1, hop.2.2])]
  exact h

theorem sound_of_keepsIp (hop : Plain op) (hgas : gas ≠ 0) (hk : ∀ s, KeepsIp host s (inst s)) :
    Sound host op ⟨inst, n, gas⟩ :=
  ⟨fun s => (hk s).toKeeps, fun h => absurd h hgas, fun s => ipMove_of_plain hop (hk s).ip⟩

theorem sound_of_spends (hop : Plain op) (hk : ∀ s, Spends host s (inst s)) :
    Sound host op ⟨inst, n, gas⟩ :=
  ⟨fun s => (hk s).toKeeps, fun _ => hk, fun s => ipMove_of_plain hop (hk s).ip⟩

theorem sound_mapSt {f : State → State} (hop : Plain op) (hgas : gas ≠ 0)
    (hf : ∀ c, State.Keeps c (f c)) : Sound host op ⟨(·.mapSt f), n, gas⟩ :=
  sound_of_keepsIp hop hgas fun s => KeepsIp.mapSt (hf s.st)

theorem sound_jump (hop : isPushOp op = false) (hj : op = 0x56 ∨ op = 0x57) (hgas : gas ≠ 0)
    (hk : ∀ s, Keeps host s (inst s) ∧ JumpsTo s (inst s)) : Sound host op ⟨inst, n, gas⟩ := by
  refine ⟨fun s => (hk s).1, fun h => absurd h hgas, fun s => ?_⟩
  unfold IpMove
  rw [if_neg (by simp [hop]), if_pos hj]
  exact (hk s).2

theorem forall_mem_registerRange {P : UInt8 → Handler H → Prop} {lo hi : ℕ}
    {factory : ℕ → Frame H → Frame H}
    (h : ∀ i < hi - lo + 1, P (UInt8.ofNat (lo + i)) ⟨factory (i + 1), 0, gas⟩) :
    ∀ p ∈ registerRange lo hi factory gas, P p.1 p.2 := by
  intro p hp
  simp only [registerRange, List.mem_map, List.mem_range] at hp
  obtain ⟨i, hi, rfl⟩ := hp
  exact h i hi

theorem sound_pushRange :
    ∀ p ∈ registerRange 0x60 0x7F (opPush (H := H)) 3, Sound host p.1 p.2 := by
  refine forall_mem_registerRange fun i hi => ⟨fun s => (keeps_opPush s (i + 1)).1,
    fun h => absurd h (by simp), fun s => ?_⟩
  -- `PUSHn` is the opcode `0x5f + n`
  have hop : isPushOp (UInt8.ofNat (0x60 + i)) = true ∧ (UInt8.ofNat (0x60 + i)).toNat - 0x5f = i + 1 := by
    revert i
    decide
  unfold IpMove
  rw [if_pos hop.1, hop.2]
  exact (keeps_opPush s (i + 1) : Keeps host s _ ∧ _).2

theorem sound_plainRange {lo hi : ℕ} {factory : ℕ → Frame H → Frame H}
    (hop : ∀ i < hi - lo + 1, Plain (UInt8.ofNat (lo + i))) (hgas : gas ≠ 0)
    (hk : ∀ n s, KeepsIp host s (factory n s)) :
    ∀ p ∈ registerRange lo hi factory gas, Sound host p.1 p.2 :=
  forall_mem_registerRange fun i hi => sound_of_keepsIp (hop i hi) hgas (hk (i + 1))

variable (host) (keccak256 : List UInt8 → List UInt8) (createAddress : Address → ℕ → Address)
  (createAddress2 : Address → Hash → List UInt8 → Address)

theorem sound_registrations :
    ∀ p ∈ registrations host keccak256 createAddress createAddress2, Sound host p.1 p.2 := by
  simp only [registrations, List.forall_mem_append, List.forall_mem_cons, List.not_mem_nil,
    IsEmpty.forall_iff, implies_true, and_true]
  have push : ∀ {op : UInt8} {n : ℕ} {gas : UInt64} {v : Frame H → U256}, Plain op → gas ≠ 0 →
      Sound host op ⟨fun s => s.push (v s), n, gas⟩ :=
    fun hop hgas => sound_of_keepsIp hop hgas fun s => KeepsIp.push s _
  refine ⟨⟨⟨⟨⟨⟨?stop, ?arith⟩, sound_pushRange⟩, ?dup⟩, ?swap⟩, ?log⟩, ?rest⟩
  case stop => exact sound_of_spends (by decide) spends_opStop
  case arith =>
    exact ⟨sound_mapSt (by decide) (by decide) fun c => keeps_binaryOp c _,
      sound_mapSt (by decide) (by decide) fun c => keeps_binaryOp c _,
      sound_mapSt (by decide) (by decide) fun c => keeps_binaryOp c _,
      sound_mapSt (by decide) (by decide) fun c => keeps_binaryOp c _,
      sound_mapSt (by decide) (by decide) fun c => keeps_binaryOp c _,
      sound_mapSt (by decide) (by decide) fun c => keeps_binaryOp c _,
      sound_mapSt (by decide) (by decide) fun c => keeps_binaryOp c _,
      sound_of_keepsIp (by decide) (by decide) keepsIp_opExp,
      sound_of_keepsIp (by decide) (by decide) fun s => keepsIp_pushIf s _ _⟩
  case dup => exact sound_plainRange (by decide) (by decide) fun n s => keepsIp_opDup s n
  case swap => exact sound_plainRange (by decide) (by decide) fun n s => keepsIp_opSwap s n
  case log => exact sound_plainRange (by decide) (by decide) fun n s => keepsIp_opLog s n
  case rest =>
  exact ⟨
    -- arithmetic, comparisons and shifts
    sound_mapSt (by decide) (by decide) fun c => keeps_ternaryOp c _,
    sound_mapSt (by decide) (by decide) fun c => keeps_ternaryOp c _,
    sound_mapSt (by decide) (by decide) fun c => keeps_binaryOp c _,
    sound_mapSt (by decide) (by decide) fun c => keeps_binaryOp c _,
    sound_mapSt (by decide) (by decide) fun c => keeps_binaryOp c _,
    sound_mapSt (by decide) (by decide) fun c => keeps_binaryOp c _,
    sound_mapSt (by decide) (by decide) fun c => keeps_unaryOp c _,
    sound_mapSt (by decide) (by decide) fun c => keeps_unaryOp c _,
    sound_mapSt (by decide) (by decide) fun c => keeps_binaryOp c _,
    sound_mapSt (by decide) (by decide) fun c => keeps_binaryOp c _,
    sound_mapSt (by decide) (by decide) fun c => keeps_binaryOp c _,
    sound_mapSt (by decide) (by decide) fun c => keeps_binaryOp c _,
    sound_mapSt (by decide) (by decide) fun c => keeps_binaryOp c _,
    sound_mapSt (by decide) (by decide) fun c => keeps_binaryOp c _,
    sound_of_keepsIp (by decide) (by decide) fun s => keepsIp_shiftOp s _,
    sound_of_keepsIp (by decide) (by decide) fun s => keepsIp_shiftOp s _,
    sound_of_keepsIp (by decide) (by decide) fun s => keepsIp_shiftOp s _,
    -- calls and creations, RETURN and REVERT
    sound_of_keepsIp (by decide) (by decide) (keepsIp_opCreate createAddress createAddress2 _),
    sound_of_keepsIp (by decide) (by decide) (keepsIp_opCreate createAddress createAddress2 _),
    sound_of_spends (by decide) (spends_opCall _),
    sound_of_spends (by decide) (spends_opCall _),
    sound_of_spends (by decide) (spends_opCall _),
    sound_of_spends (by decide) (spends_opCall _),
    sound_of_spends (by decide) fun s => spends_opHalt s _,
    sound_of_spends (by decide) fun s => spends_opHalt s _,
    -- memory and storage
    sound_mapSt (by decide) (by decide) keeps_opMLoad,
    sound_mapSt (by decide) (by decide) keeps_opMStore,
    sound_mapSt (by decide) (by decide) keeps_opMStore8,
    sound_of_spends (by decide) spends_opSload,
    sound_of_spends (by decide) spends_opSStore,
    sound_mapSt (by decide) (by decide) fun c => keeps_opSha3 c keccak256,
    sound_mapSt (by decide) (by decide) keeps_opPop,
    sound_of_spends (by decide) spends_opExtCodeHash,
    -- context
    push (by decide) (by decide),
    sound_of_spends (by decide) spends_opBalance,
    sound_of_keepsIp (by decide) (by decide) keepsIp_opSelfBalance,
    push (by decide) (by decide),
    push (by decide) (by decide),
    sound_of_keepsIp (by decide) (by decide) keepsIp_opCallValue,
    sound_mapSt (by decide) (by decide) fun c => keeps_unaryOp c _,
    sound_mapSt (by decide) (by decide) fun c => State.Keeps.push c _,
    sound_mapSt (by decide) (by decide) fun c => State.Keeps.push c _,
    sound_of_spends (by decide) spends_opExtCodeSize,
    push (by decide) (by decide),
    sound_mapSt (by decide) (by decide) keeps_opReturnDataSize,
    sound_of_keepsIp (by decide) (by decide) fun s => keepsIp_pushIf s _ _,
    push (by decide) (by decide),
    sound_mapSt (by decide) (by decide) fun c => State.Keeps.push c _,
    sound_mapSt (by decide) (by decide) fun c => State.Keeps.push c _,
    sound_of_spends (by decide) spends_opExtCodeCopy,
    sound_mapSt (by decide) (by decide) keeps_opCallDataCopy,
    sound_mapSt (by decide) (by decide) keeps_opReturnDataCopy,
    sound_mapSt (by decide) (by decide) keeps_opCodeCopy,
    -- block information
    sound_of_keepsIp (by decide) (by decide) keepsIp_opBlockHash,
    push (by decide) (by decide),
    push (by decide) (by decide),
    push (by decide) (by decide),
    push (by decide) (by decide),
    push (by decide) (by decide),
    sound_of_keepsIp (by decide) (by decide) fun s => keepsIp_pushIf s _ _,
    sound_of_spends (by decide) spends_opSelfDestruct,
    -- jumps
    sound_jump (by decide) (by decide) (by decide) keeps_opJump,
    sound_jump (by decide) (by decide) (by decide) keeps_opJumpi,
    sound_of_keepsIp (by decide) (by decide) KeepsIp.refl⟩

theorem sound_dispatchTable {op : UInt8} {h : Handler H}
    (hd : dispatchTable host keccak256 createAddress createAddress2 op = some h) : h.Sound host op := by
  unfold dispatchTable at hd
  obtain ⟨p, hp, rfl⟩ := Option.map_eq_some_iff.1 hd
  have hop : p.1 = op := by simpa using List.find?_some hp
  rw [← hop]
  exact sound_registrations host keccak256 createAddress createAddress2 p (List.mem_of_find?_eq_some hp)

end Handler

/-! ## Instruction boundaries -/

namespace Reaches

variable {code : List UInt8} {i j k : ℕ}

theorem trans (h₁ : Reaches code i j) (h₂ : Reaches code j k) : Reaches code i k := by
  induction h₁ with
  | refl => exact h₂
  | step c hc _ ih => exact .step c hc (ih h₂)

theorem next {c : UInt8} (h : Reaches code i j) (hc : code[j]? = some c) :
    Reaches code i (j + instructionLength c) :=
  h.trans (.step c hc (.refl _))

end Reaches

theorem goInt_sub_one {d : ℕ} (hd : d < 2 ^ 63) : goInt (UInt64.ofNat d - 1) + 1 = d := by
  unfold goInt
  rcases Nat.eq_zero_or_pos d with rfl | hpos
  · decide
  · have h1 : (UInt64.ofNat d - 1).toNat = d - 1 := by
      rw [UInt64.toNat_sub_of_le _ _ (by rw [UInt64.le_iff_toNat_le]; simp; omega)]
      simp
      omega
    rw [h1, if_pos (by omega)]
    omega

/-- `ip` is at the start of an instruction: decoding the code from its first byte stops there. -/
def AtInstruction (s : Frame H) : Prop := 0 ≤ s.ip ∧ Reaches s.st.code 0 s.ip.toNat

/-- A taken `JUMP` or `JUMPI` at `s` leaves `s'` on a `JUMPDEST` of the code; one not taken
leaves it at the next byte. -/
def LandsOnJumpdest (s s' : Frame H) : Prop :=
  ∀ op, s.st.code[s.ip.toNat]? = some op → (op = 0x56 ∨ op = 0x57) →
    s'.ip = s.ip + 1 ∨ s'.st.code[s'.ip.toNat]? = some JUMPDEST

/-- The frame's bitmap is its code's, as `EVM.Run` sets it. -/
def BitmapOfCode (s : Frame H) : Prop := s.bitmap = (Bitmap.reset ⟨[]⟩).setCode s.st.code

theorem currentOpCode_eq_true {s : Frame H} {op : UInt8} (h : s.currentOpCode = (op, true))
    (hip : 0 ≤ s.ip) : s.st.code[s.ip.toNat]? = some op := by
  unfold Frame.currentOpCode at h
  split at h
  · cases h
  next hlt =>
    obtain ⟨rfl, -⟩ := Prod.mk.inj h
    have hlt' : s.ip.toNat < s.st.code.length := by omega
    rw [List.getD_eq_getElem?_getD, List.getElem?_eq_getElem hlt']
    rfl

/-! ## One turn of the loop -/

namespace Frame

variable (host : Host H) (keccak256 : List UInt8 → List UInt8) (createAddress : Address → ℕ → Address)
  (createAddress2 : Address → Hash → List UInt8 → Address)

theorem step_cases (s : Frame H) :
    (KeepsIp host s (s.step host keccak256 createAddress createAddress2) ∧
        (s.step host keccak256 createAddress createAddress2).stop = true) ∨
      ∃ op h s₁, s.currentOpCode = (op, true) ∧
        dispatchTable host keccak256 createAddress createAddress2 op = some h ∧
        s.consumeGas h.gas = (true, s₁) ∧
        ((s.step host keccak256 createAddress createAddress2 = h.inst s₁ ∧ (h.inst s₁).err.isSome = true) ∨
          (∃ e, s.step host keccak256 createAddress createAddress2 = (h.inst s₁).exit e) ∨
          s.step host keccak256 createAddress createAddress2 = { h.inst s₁ with ip := (h.inst s₁).ip + 1 }) := by
  unfold Frame.step
  split
  · exact Or.inl ⟨KeepsIp.halt s, rfl⟩
  next op hc =>
  split
  · exact Or.inl ⟨KeepsIp.exitMem s _, rfl⟩
  next h hd =>
  split
  · exact Or.inl ⟨KeepsIp.exit s _, rfl⟩
  split
  next s₁ h₁ => exact Or.inl ⟨KeepsIp.of_consumeGas h₁, stop_consumeGas_of_false h₁⟩
  next s₁ h₁ =>
  refine Or.inr ⟨op, h, s₁, hc, hd, h₁, ?_⟩
  dsimp only
  split
  next herr => exact Or.inl ⟨rfl, herr⟩
  split
  · exact Or.inr (Or.inl ⟨_, rfl⟩)
  · exact Or.inr (Or.inr rfl)

theorem keeps_step (s : Frame H) : Keeps host s (s.step host keccak256 createAddress createAddress2) := by
  rcases step_cases host keccak256 createAddress createAddress2 s with ⟨k, -⟩ | ⟨op, h, s₁, -, hd, h₁, hs⟩
  · exact k.toKeeps
  have k₁ := (KeepsIp.of_consumeGas h₁).toKeeps.trans
    ((Handler.sound_dispatchTable host keccak256 createAddress createAddress2 hd).keeps s₁)
  rcases hs with ⟨e, -⟩ | ⟨e, he⟩ | e
  · rw [e]
    exact k₁
  · rw [he]
    exact k₁.trans (KeepsIp.exit _ _).toKeeps
  · rw [e]
    exact k₁.setIp _

theorem gas_step_lt (hg : ReturnsGas host) (s : Frame H)
    (hs : (s.step host keccak256 createAddress createAddress2).stop = false) :
    (s.step host keccak256 createAddress createAddress2).gas.toNat < s.gas.toNat := by
  rcases step_cases host keccak256 createAddress createAddress2 s with ⟨-, hstop⟩ | ⟨op, h, s₁, -, hd, h₁, hs'⟩
  · rw [hstop] at hs
    cases hs
  -- the frame the instruction leaves has not stopped, and has the gas the turn ends with
  obtain ⟨hst, hgas⟩ : (h.inst s₁).stop = false ∧
      (s.step host keccak256 createAddress createAddress2).gas = (h.inst s₁).gas := by
    rcases hs' with ⟨e, -⟩ | ⟨e, he⟩ | e
    · rw [e] at hs ⊢
      exact ⟨hs, rfl⟩
    · rw [he] at hs
      cases hs
    · rw [e] at hs ⊢
      exact ⟨hs, rfl⟩
  rw [hgas]
  have hpaid := gas_consumeGas_of_true h₁
  have hsound := Handler.sound_dispatchTable host keccak256 createAddress createAddress2 hd
  by_cases h0 : h.gas = 0
  · have := (hsound.spends h0 s₁).spends hg hst
    omega
  · have := (hsound.keeps s₁).gas_le hg
    have : h.gas.toNat ≠ 0 := fun h' => h0 (UInt64.toNat_inj.1 h')
    omega

theorem atInstruction_step {s : Frame H} (hbit : BitmapOfCode s) (hlen : s.st.code.length < 2 ^ 63)
    (herr : s.ErrStops) (hat : AtInstruction s)
    (hs : (s.step host keccak256 createAddress createAddress2).stop = false) :
    AtInstruction (s.step host keccak256 createAddress createAddress2) ∧
      LandsOnJumpdest s (s.step host keccak256 createAddress createAddress2) := by
  rcases step_cases host keccak256 createAddress createAddress2 s with ⟨-, hstop⟩ | ⟨op, h, s₁, hc, hd, h₁, hs'⟩
  · rw [hstop] at hs
    cases hs
  have k₁ : KeepsIp host s s₁ := KeepsIp.of_consumeGas h₁
  have hsound := Handler.sound_dispatchTable host keccak256 createAddress createAddress2 hd
  have k₂ := k₁.toKeeps.trans (hsound.keeps s₁)
  -- an error stops the frame, so the turn that goes on moves `ip` past the instruction
  have e : s.step host keccak256 createAddress createAddress2 = { h.inst s₁ with ip := (h.inst s₁).ip + 1 } := by
    rcases hs' with ⟨e, herr'⟩ | ⟨e, he⟩ | e
    · rw [e] at hs
      rw [k₂.errStops herr herr'] at hs
      cases hs
    · rw [he] at hs
      cases hs
    · exact e
  have hcode : (h.inst s₁).st.code = s.st.code := k₂.code
  have hop := currentOpCode_eq_true hc hat.1
  have hip₀ := hat.1
  rw [e]
  unfold AtInstruction LandsOnJumpdest
  simp only [hcode]
  have hip := hsound.ip s₁
  unfold IpMove at hip
  rw [k₁.ip] at hip
  -- an instruction that is not a push is one byte long
  have hone : ¬isPushOp op = true → 0 ≤ s.ip + 1 ∧ Reaches s.st.code 0 (s.ip + 1).toNat := by
    intro hpush
    have hl := instructionLength_eq op
    rw [if_neg hpush] at hl
    have hr := hat.2.next hop
    rw [hl] at hr
    exact ⟨by omega, by convert hr using 1; omega⟩
  split_ifs at hip with hpush hjump
  · -- `PUSHn`: past its data, and not a jump
    have hl := instructionLength_eq op
    rw [if_pos hpush] at hl
    have := (isPushOp_iff op).1 hpush
    have hr := hat.2.next hop
    rw [hl] at hr
    refine ⟨⟨by omega, ?_⟩, ?_⟩
    · rw [hip]
      convert hr using 1
      omega
    · intro op' hop' hj
      rw [hop] at hop'
      cases hop'
      rcases hj with rfl | rfl <;> exact absurd hpush (by decide)
  · rcases hip with hip | ⟨dest, hv, hip⟩
    · rw [hip, k₁.ip]
      exact ⟨hone hpush, fun _ _ _ => .inl rfl⟩
    -- a jump lands on a `JUMPDEST` the decoding reaches
    rw [validJumpdest_of_keeps k₁.toKeeps] at hv
    unfold Frame.validJumpdest at hv
    rw [hbit, validJumpdest_exact _ _ (by omega)] at hv
    obtain ⟨hlt, hjd, hr⟩ := hv
    have hd : goInt (toUint64 dest - 1) + 1 = dest.val := goInt_sub_one (by omega)
    rw [hip, hd]
    exact ⟨⟨by omega, hr⟩, fun _ _ _ => .inr hjd⟩
  · rw [hip]
    refine ⟨hone hpush, fun op' hop' hj => ?_⟩
    rw [hop] at hop'
    cases hop'
    exact absurd hj hjump

end Frame

end Blade.Evm
