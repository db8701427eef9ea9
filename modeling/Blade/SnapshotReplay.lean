import Blade.ValidatorsSnapshot

/-!
What `GetSnapshot` computes, stated without the caches: the validator set after a block is the
replay of the epoch-ending deltas from genesis. Cached snapshots that agree with the replay keep
agreeing whatever the cache does and however the chain grows, so every reachable cache answers
with the replay.
-/

namespace Blade

def epochAt (chain : List Extra) (n : Nat) : Nat :=
  (chain[n]?.map (·.checkpoint.epochNumber)).getD 0

def deltaAt (chain : List Extra) (n : Nat) : Option ValidatorSetDelta :=
  chain[n]?.bind (·.validators)

/-- A chain of finalized headers as the checks of `fsm.Validate` leave it: epochs start at zero
and grow by at most one from a block to the next, a block carries a validator-set delta exactly
when it ends its epoch, and epoch numbers are `uint64`. -/
structure FinalizedChain where
  extras : List Extra
  genesis_epoch : epochAt extras 0 = 0
  genesis_delta : (deltaAt extras 0).isSome
  epoch_step : ∀ n, n + 1 < extras.length →
    epochAt extras (n + 1) = epochAt extras n ∨ epochAt extras (n + 1) = epochAt extras n + 1
  delta_iff_ending : ∀ n, n + 1 < extras.length →
    ((deltaAt extras n).isSome ↔ epochAt extras (n + 1) = epochAt extras n + 1)
  epoch_lt : ∀ n, n < extras.length → epochAt extras n < 2 ^ 64

def lastBlockOfEpoch (chain : List Extra) (e : Nat) : Nat :=
  chain.findIdx (fun extra => decide (e < extra.checkpoint.epochNumber)) - 1

/-- Some block of epoch `e` carries a delta: the epoch has ended in the chain. -/
def EpochEnded (chain : List Extra) (e : Nat) : Prop :=
  ∃ n, n < chain.length ∧ epochAt chain n = e ∧ (deltaAt chain n).isSome

/-- The validators after epoch `e`: the deltas of block 0 and of the last block of every later
epoch up to `e`, applied in turn to the empty set. -/
def replaySnapshot (chain : List Extra) : Nat → Except ApplyDeltaError AccountSet
  | 0 => AccountSet.applyDelta [] (deltaAt chain 0)
  | e + 1 => (replaySnapshot chain e).bind fun s =>
    AccountSet.applyDelta s (deltaAt chain (lastBlockOfEpoch chain (e + 1)))

/-- The last epoch that has ended at or before block `b`. -/
def lastEndedEpoch (chain : List Extra) (b : Nat) : Nat :=
  if (deltaAt chain b).isSome then epochAt chain b else epochAt chain b - 1

/-- The replay reaches epoch `k` without error, and no validator set on the way is empty (a
finalized block needs the signatures of a non-empty set). -/
def ReplayOk (chain : List Extra) (k : Nat) : Prop :=
  ∀ e ≤ k, ∃ vs, replaySnapshot chain e = .ok vs ∧ vs ≠ []

/-- A cached snapshot that agrees with the chain. -/
structure SnapshotCorrect (chain : List Extra) (s : ValidatorSnapshot) : Prop where
  ended : EpochEnded chain s.epoch
  epochEndingBlock_eq : s.epochEndingBlock = lastBlockOfEpoch chain s.epoch
  replay_eq : replaySnapshot chain s.epoch = .ok s.snapshot
  nonempty : s.snapshot ≠ []

/-- The headers handed to `GetSnapshot` agree with the chain wherever the chain has a block. -/
def ParentsAgree (chain : List Extra) (parents : List (Nat × Extra)) : Prop :=
  ∀ p ∈ parents, p.1 < chain.length → chain[p.1]? = some p.2

theorem epochAt_of_lt {chain : List Extra} {n : Nat} (h : n < chain.length) :
    epochAt chain n = chain[n].checkpoint.epochNumber := by
  simp [epochAt, List.getElem?_eq_getElem h]

theorem deltaAt_of_lt {chain : List Extra} {n : Nat} (h : n < chain.length) :
    deltaAt chain n = chain[n].validators := by
  simp [deltaAt, List.getElem?_eq_getElem h]

theorem decU64_of_pos {x : Nat} (h0 : 0 < x) (h : x < 2 ^ 64) : decU64 x = x - 1 := by
  unfold decU64
  rw [show x + 2 ^ 64 - 1 = (x - 1) + 2 ^ 64 by omega, Nat.add_mod_right,
    Nat.mod_eq_of_lt (by omega)]

theorem getBlockData_of_lt {chain : List Extra} {n : Nat} (h : n < chain.length) :
    getBlockData chain n = .ok chain[n] := by
  simp [getBlockData, List.getElem?_eq_getElem h]

theorem getBlockData_of_le {chain : List Extra} {n : Nat} (h : chain.length ≤ n) :
    getBlockData chain n = .error .noBlock := by
  simp [getBlockData, List.getElem?_eq_none h]

theorem scanEpochEnd_eq {chain : List Extra} {ep : Nat} :
    ∀ d m, m + d < chain.length →
      (∀ i, m < i → i ≤ m + d → epochAt chain i = ep) →
      (m + d + 1 < chain.length → epochAt chain (m + d + 1) ≠ ep) →
      scanEpochEnd ep m (chain.drop (m + 1)) = m + d
  | 0, m, _, _, hstop => by
    by_cases hnext : m + 1 < chain.length
    · have hne := hstop hnext
      rw [epochAt_of_lt hnext] at hne
      rw [List.drop_eq_getElem_cons hnext]
      simp [scanEpochEnd, hne]
    · rw [List.drop_eq_nil_of_le (by omega)]
      simp [scanEpochEnd]
  | d + 1, m, hlt, hrun, hstop => by
    have hnext : m + 1 < chain.length := by omega
    have he := hrun (m + 1) (by omega) (by omega)
    rw [epochAt_of_lt hnext] at he
    rw [List.drop_eq_getElem_cons hnext]
    simp only [scanEpochEnd, he, if_true]
    have ih := scanEpochEnd_eq d (m + 1) (by omega) (fun i h1 h2 => hrun i (by omega) (by omega))
      (fun h => by rw [show m + 1 + d + 1 = m + (d + 1) + 1 by omega]; exact hstop (by omega))
    rw [ih]
    omega

theorem findParent_mem {parents : List (Nat × Extra)} {n : Nat} {extra : Extra}
    (h : findParent parents n = some extra) : (n, extra) ∈ parents := by
  obtain ⟨⟨k, x⟩, hf, rfl⟩ := Option.map_eq_some_iff.mp h
  have hk : k = n := by simpa using List.find?_some hf
  subst hk
  exact List.mem_reverse.mp (List.mem_of_find?_eq_some hf)

theorem getHeaderExtra_of_agree {chain : List Extra} {parents : List (Nat × Extra)} {n : Nat}
    (hpar : ParentsAgree chain parents) (hn : n < chain.length) :
    getHeaderExtra chain parents n = chain[n]? := by
  unfold getHeaderExtra
  cases hf : findParent parents n with
  | none => rfl
  | some extra => exact (hpar _ (findParent_mem hf) hn).symm

theorem applyDelta_of_isEmpty (as : AccountSet) {d : ValidatorSetDelta} (hd : d.isEmpty = true) :
    AccountSet.applyDelta as (some d) = .ok as := by
  simp [AccountSet.applyDelta, hd]

namespace FinalizedChain

variable (C : FinalizedChain)

theorem epochAt_mono {i j : Nat} (hij : i ≤ j) (hj : j < C.extras.length) :
    epochAt C.extras i ≤ epochAt C.extras j := by
  induction j with
  | zero => rw [Nat.le_zero.mp hij]
  | succ j ih =>
    rcases Nat.lt_or_ge i (j + 1) with hlt | hge
    · have hstep := C.epoch_step j hj
      have := ih (by omega) (by omega)
      omega
    · rw [show i = j + 1 by omega]

theorem exists_ending_of_lt {b e : Nat} (hb : b < C.extras.length) (he : e < epochAt C.extras b) :
    ∃ n, n < b ∧ epochAt C.extras n = e ∧ epochAt C.extras (n + 1) = e + 1 := by
  induction b with
  | zero => rw [C.genesis_epoch] at he; omega
  | succ b ih =>
    rcases C.epoch_step b hb with hs | hs
    · obtain ⟨n, hn, hne⟩ := ih (by omega) (by omega)
      exact ⟨n, by omega, hne⟩
    · rcases Nat.lt_or_ge e (epochAt C.extras b) with hlt | hge
      · obtain ⟨n, hn, hne⟩ := ih (by omega) hlt
        exact ⟨n, by omega, hne⟩
      · exact ⟨b, by omega, by omega, by omega⟩

theorem ended_of_lt {b e : Nat} (hb : b < C.extras.length) (he : e < epochAt C.extras b) :
    EpochEnded C.extras e := by
  obtain ⟨n, hn, rfl, hsucc⟩ := C.exists_ending_of_lt hb he
  exact ⟨n, by omega, rfl, (C.delta_iff_ending n (by omega)).mpr hsucc⟩

theorem ended_of_le {k e : Nat} (hk : EpochEnded C.extras k) (he : e ≤ k) :
    EpochEnded C.extras e := by
  obtain ⟨n, hn, rfl, hd⟩ := hk
  rcases Nat.lt_or_ge e (epochAt C.extras n) with hlt | hge
  · exact C.ended_of_lt hn hlt
  · exact ⟨n, hn, by omega, hd⟩

theorem lastBlockOfEpoch_eq {n e : Nat} (hn : n < C.extras.length) (he : epochAt C.extras n = e)
    (hnext : n + 1 < C.extras.length → epochAt C.extras (n + 1) ≠ e) :
    lastBlockOfEpoch C.extras e = n := by
  have hle : ∀ j (hj : j < C.extras.length), j ≤ n →
      decide (e < C.extras[j].checkpoint.epochNumber) = false := by
    intro j hj hjn
    have := C.epochAt_mono hjn hn
    rw [epochAt_of_lt hj] at this
    simp only [decide_eq_false_iff_not, Nat.not_lt]
    omega
  have hidx : C.extras.findIdx (fun extra => decide (e < extra.checkpoint.epochNumber)) = n + 1 := by
    by_cases hlast : n + 1 < C.extras.length
    · rw [List.findIdx_eq hlast]
      refine ⟨?_, fun j hj => hle j (by omega) (by omega)⟩
      have hmono := C.epochAt_mono (Nat.le_succ n) hlast
      have hne := hnext hlast
      rw [epochAt_of_lt hlast] at hmono hne
      simp only [decide_eq_true_eq]
      omega
    · have hlen : C.extras.length = n + 1 := by omega
      rw [← hlen, List.findIdx_eq_length]
      intro x hx
      obtain ⟨j, hj, rfl⟩ := List.getElem_of_mem hx
      exact hle j hj (by omega)
  unfold lastBlockOfEpoch
  omega

theorem lastBlockOfEpoch_of_ended {e : Nat} (he : EpochEnded C.extras e) :
    lastBlockOfEpoch C.extras e < C.extras.length ∧
      epochAt C.extras (lastBlockOfEpoch C.extras e) = e ∧
      (deltaAt C.extras (lastBlockOfEpoch C.extras e)).isSome := by
  obtain ⟨n, hn, hne, hd⟩ := he
  have hlast : lastBlockOfEpoch C.extras e = n := by
    refine C.lastBlockOfEpoch_eq hn hne fun h => ?_
    have := (C.delta_iff_ending n h).mp hd
    omega
  rw [hlast]
  exact ⟨hn, hne, hd⟩

theorem next_of_ended {e : Nat} (he : EpochEnded C.extras e) (he' : EpochEnded C.extras (e + 1)) :
    lastBlockOfEpoch C.extras e + 1 < C.extras.length ∧
      epochAt C.extras (lastBlockOfEpoch C.extras e + 1) = e + 1 := by
  obtain ⟨hn, hne, hd⟩ := C.lastBlockOfEpoch_of_ended he
  obtain ⟨hn', hne', -⟩ := C.lastBlockOfEpoch_of_ended he'
  have hlt : lastBlockOfEpoch C.extras e < lastBlockOfEpoch C.extras (e + 1) := by
    by_contra hge
    have := C.epochAt_mono (Nat.le_of_not_lt hge) hn
    omega
  have hsucc : lastBlockOfEpoch C.extras e + 1 < C.extras.length := by omega
  refine ⟨hsucc, ?_⟩
  have := (C.delta_iff_ending _ hsucc).mp hd
  omega

theorem length_pos : 0 < C.extras.length := by
  have h := C.genesis_delta
  unfold deltaAt at h
  rcases hl : C.extras with _ | ⟨x, xs⟩
  · rw [hl] at h; simp at h
  · simp

theorem one_le_epochAt {b : Nat} (hb : b < C.extras.length) (h0 : 0 < b) : 1 ≤ epochAt C.extras b := by
  have h1 : epochAt C.extras 1 = 1 := by
    have := (C.delta_iff_ending 0 (by omega)).mp C.genesis_delta
    rwa [C.genesis_epoch] at this
  have := C.epochAt_mono (show 1 ≤ b by omega) hb
  omega

theorem ended_zero : EpochEnded C.extras 0 :=
  ⟨0, C.length_pos, C.genesis_epoch, C.genesis_delta⟩

theorem lastBlockOfEpoch_zero : lastBlockOfEpoch C.extras 0 = 0 := by
  refine C.lastBlockOfEpoch_eq C.length_pos C.genesis_epoch fun h => ?_
  have := (C.delta_iff_ending 0 h).mp C.genesis_delta
  omega

theorem ended_of_le_lastEndedEpoch {b e : Nat} (hb : b < C.extras.length)
    (he : e ≤ lastEndedEpoch C.extras b) : EpochEnded C.extras e := by
  unfold lastEndedEpoch at he
  split at he
  · exact C.ended_of_le ⟨b, hb, rfl, by assumption⟩ he
  · rename_i hd
    have hb0 : 0 < b := by
      rcases Nat.eq_zero_or_pos b with rfl | h
      · exact absurd C.genesis_delta hd
      · exact h
    have := C.one_le_epochAt hb hb0
    exact C.ended_of_lt hb (by omega)

theorem getNextEpochEndingBlock_eq {e : Nat} (he : EpochEnded C.extras e)
    (he' : EpochEnded C.extras (e + 1)) :
    getNextEpochEndingBlock C.extras (lastBlockOfEpoch C.extras e) =
      .ok (lastBlockOfEpoch C.extras (e + 1)) := by
  obtain ⟨hsucc, hepoch⟩ := C.next_of_ended he he'
  obtain ⟨-, hne, -⟩ := C.lastBlockOfEpoch_of_ended he
  obtain ⟨hn', hne', hd'⟩ := C.lastBlockOfEpoch_of_ended he'
  have hle : lastBlockOfEpoch C.extras e + 1 ≤ lastBlockOfEpoch C.extras (e + 1) := by
    by_contra hlt
    have := C.epochAt_mono (show lastBlockOfEpoch C.extras (e + 1) ≤ lastBlockOfEpoch C.extras e by omega)
      (by omega)
    omega
  obtain ⟨d, hd⟩ : ∃ d, lastBlockOfEpoch C.extras (e + 1) = lastBlockOfEpoch C.extras e + 1 + d :=
    ⟨_, (Nat.add_sub_of_le hle).symm⟩
  unfold getNextEpochEndingBlock
  rw [getBlockData_of_lt hsucc]
  simp only [bind, Except.bind, pure, Except.pure, Except.ok.injEq]
  rw [← epochAt_of_lt hsucc, hepoch, hd]
  refine scanEpochEnd_eq d _ (by omega) (fun i h1 h2 => ?_) (fun h => ?_)
  · have hlo := C.epochAt_mono (show lastBlockOfEpoch C.extras e + 1 ≤ i by omega) (by omega)
    have hhi := C.epochAt_mono (show i ≤ lastBlockOfEpoch C.extras (e + 1) by omega) hn'
    omega
  · rw [← hd] at h ⊢
    have := (C.delta_iff_ending _ h).mp hd'
    omega

theorem getNextEpochEndingBlock_of_length_one (h : C.extras.length = 1) (n : Nat) :
    getNextEpochEndingBlock C.extras n = .error .noBlock := by
  simp [getNextEpochEndingBlock, getBlockData_of_le (show C.extras.length ≤ n + 1 by omega),
    bind, Except.bind]

section Steps

variable {C} {parents : List (Nat × Extra)} (hpar : ParentsAgree C.extras parents)
include hpar

theorem correct_genesis {g : ValidatorSnapshot}
    (hg : computeSnapshot C.extras parents none 0 = .ok g) : SnapshotCorrect C.extras g := by
  obtain ⟨extra, hx, hd, hne, he, hb⟩ := computeSnapshot_eq_ok.mp hg
  rw [getHeaderExtra_of_agree hpar C.length_pos] at hx
  have hepoch : g.epoch = 0 := by simpa using he
  refine ⟨hepoch ▸ C.ended_zero, by rw [hb, hepoch, C.lastBlockOfEpoch_zero], ?_, hne⟩
  rw [hepoch, replaySnapshot, deltaAt, hx]
  simpa using hd

theorem computeSnapshot_genesis_isOk {vs : AccountSet} (hr : replaySnapshot C.extras 0 = .ok vs)
    (hvs : vs ≠ []) : computeSnapshot C.extras parents none 0 = .ok ⟨0, 0, vs⟩ := by
  have hx := getHeaderExtra_of_agree hpar C.length_pos
  rw [List.getElem?_eq_getElem C.length_pos] at hx
  refine computeSnapshot_eq_ok.mpr ⟨_, hx, ?_, hvs, rfl, rfl⟩
  rw [replaySnapshot, deltaAt, List.getElem?_eq_getElem C.length_pos] at hr
  simpa using hr

theorem correct_computeSnapshot_next {latest s : ValidatorSnapshot} {n : Nat}
    (hl : SnapshotCorrect C.extras latest) (hended : EpochEnded C.extras (latest.epoch + 1))
    (hn : getNextEpochEndingBlock C.extras latest.epochEndingBlock = .ok n)
    (hs : computeSnapshot C.extras parents (some latest) n = .ok s) : SnapshotCorrect C.extras s := by
  rw [hl.epochEndingBlock_eq, C.getNextEpochEndingBlock_eq hl.ended hended, Except.ok.injEq] at hn
  subst hn
  obtain ⟨extra, hx, hd, hne, he, hb⟩ := computeSnapshot_eq_ok.mp hs
  obtain ⟨hlt, -, -⟩ := C.lastBlockOfEpoch_of_ended hended
  rw [getHeaderExtra_of_agree hpar hlt] at hx
  have hepoch : s.epoch = latest.epoch + 1 := by simpa using he
  refine ⟨hepoch ▸ hended, by rw [hb, hepoch], ?_, hne⟩
  rw [hepoch, replaySnapshot, hl.replay_eq, deltaAt, hx]
  simpa [Except.bind] using hd

theorem computeSnapshot_next_isOk {latest : ValidatorSnapshot} {vs : AccountSet}
    (hl : SnapshotCorrect C.extras latest) (hended : EpochEnded C.extras (latest.epoch + 1))
    (hr : replaySnapshot C.extras (latest.epoch + 1) = .ok vs) (hvs : vs ≠ []) :
    ∃ n s, getNextEpochEndingBlock C.extras latest.epochEndingBlock = .ok n ∧
      computeSnapshot C.extras parents (some latest) n = .ok s := by
  obtain ⟨hlt, -, -⟩ := C.lastBlockOfEpoch_of_ended hended
  have hx := getHeaderExtra_of_agree hpar hlt
  rw [List.getElem?_eq_getElem hlt] at hx
  refine ⟨_, ⟨latest.epoch + 1, lastBlockOfEpoch C.extras (latest.epoch + 1), vs⟩,
    by rw [hl.epochEndingBlock_eq, C.getNextEpochEndingBlock_eq hl.ended hended],
    computeSnapshot_eq_ok.mpr ⟨_, hx, ?_, hvs, rfl, rfl⟩⟩
  rw [replaySnapshot, hl.replay_eq, deltaAt, List.getElem?_eq_getElem hlt] at hr
  simpa [Except.bind] using hr

end Steps

theorem epochToGetSnapshot_spec {b : Nat} (hb : b < C.extras.length) :
    ∃ K, epochToGetSnapshot C.extras b C.extras[b] = .ok K ∧
      (K = lastEndedEpoch C.extras b ∨
        (b + 1 = C.extras.length ∧ (∃ d, deltaAt C.extras b = some d ∧ d.isEmpty = true) ∧
          (K + 1 = lastEndedEpoch C.extras b ∨ C.extras.length = 1))) := by
  have hlt := C.epoch_lt b hb
  have hepoch := epochAt_of_lt hb
  have hdelta := deltaAt_of_lt hb
  -- below a block of a later epoch than genesis, `epochToGetSnapshot--` does not wrap
  have hdec : 0 < b → decU64 (epochAt C.extras b) = epochAt C.extras b - 1 := fun h0 =>
    decU64_of_pos (by have := C.one_le_epochAt hb h0; omega) hlt
  unfold epochToGetSnapshot isEpochEndingBlock
  rcases hv : C.extras[b].validators with _ | d
  · have hb0 : 0 < b := by
      rcases Nat.eq_zero_or_pos b with rfl | h
      · have := C.genesis_delta
        rw [hdelta, hv] at this
        cases this
      · exact h
    refine ⟨_, rfl, .inl ?_⟩
    simp only [lastEndedEpoch, hdelta, hv, Option.isSome_none, Bool.false_eq_true, if_false]
    rw [← hepoch, hdec hb0]
  · by_cases he : d.isEmpty = true
    · simp only [he, Bool.not_true, Bool.false_eq_true, if_false]
      by_cases hnext : b + 1 < C.extras.length
      · have hstep := (C.delta_iff_ending b hnext).mp (by rw [hdelta, hv]; rfl)
        rw [getBlockData_of_lt hnext]
        refine ⟨_, rfl, .inl ?_⟩
        simp only [lastEndedEpoch, hdelta, hv, Option.isSome_some, if_true]
        rw [← epochAt_of_lt hnext, ← hepoch, hstep]
        simp
      · rw [getBlockData_of_le (by omega)]
        refine ⟨_, rfl, .inr ⟨by omega, ⟨d, by rw [hdelta, hv], he⟩, ?_⟩⟩
        simp only [lastEndedEpoch, hdelta, hv, Option.isSome_some, if_true]
        rcases Nat.eq_zero_or_pos b with rfl | h0
        · exact .inr (by omega)
        · have := C.one_le_epochAt hb h0
          rw [← hepoch, hdec h0]
          exact .inl (by omega)
    · have he' : d.isEmpty = false := by simpa using he
      simp only [he', Bool.not_false, if_true]
      refine ⟨_, rfl, .inl ?_⟩
      simp [lastEndedEpoch, hdelta, hv, hepoch]



theorem target_ended {b K : Nat} (hb : b < C.extras.length)
    (hK : epochToGetSnapshot C.extras b C.extras[b] = .ok K) :
    (∀ e ≤ K, EpochEnded C.extras e) ∨ C.extras.length = 1 := by
  obtain ⟨K', hK', hcases⟩ := C.epochToGetSnapshot_spec hb
  rw [hK, Except.ok.injEq] at hK'
  subst hK'
  rcases hcases with rfl | ⟨-, -, hK1 | hlen⟩
  · exact .inl fun e he => C.ended_of_le_lastEndedEpoch hb he
  · exact .inl fun e he => C.ended_of_le_lastEndedEpoch hb (by omega)
  · exact .inr hlen

theorem target_replay {b K : Nat} (hb : b < C.extras.length)
    (hK : epochToGetSnapshot C.extras b C.extras[b] = .ok K)
    (hrep : ReplayOk C.extras (lastEndedEpoch C.extras b)) :
    (∀ e ≤ K, EpochEnded C.extras e) ∧ ReplayOk C.extras K ∧
      replaySnapshot C.extras K = replaySnapshot C.extras (lastEndedEpoch C.extras b) := by
  obtain ⟨K', hK', hcases⟩ := C.epochToGetSnapshot_spec hb
  rw [hK, Except.ok.injEq] at hK'
  subst hK'
  rcases hcases with rfl | ⟨hlast, ⟨d, hd, hempty⟩, hK1 | hlen⟩
  · exact ⟨fun e he => C.ended_of_le_lastEndedEpoch hb he, hrep, rfl⟩
  · have hepoch : epochAt C.extras b = K + 1 := by
      simp only [lastEndedEpoch, hd, Option.isSome_some, if_true] at hK1
      omega
    have hlastBlock : lastBlockOfEpoch C.extras (K + 1) = b :=
      C.lastBlockOfEpoch_eq hb hepoch fun h => absurd h (by omega)
    refine ⟨fun e he => C.ended_of_le_lastEndedEpoch hb (by omega),
      fun e he => hrep e (by omega), ?_⟩
    obtain ⟨vs, hvs, -⟩ := hrep K (by omega)
    rw [← hK1, replaySnapshot, hvs, hlastBlock, hd]
    simp [Except.bind, applyDelta_of_isEmpty vs hempty]
  · -- the genesis block alone with an empty delta: its validator set is empty
    have hb0 : b = 0 := by omega
    subst hb0
    obtain ⟨vs, hvs, hne⟩ := hrep 0 (Nat.zero_le _)
    rw [replaySnapshot, hd, applyDelta_of_isEmpty [] hempty, Except.ok.injEq] at hvs
    exact absurd hvs.symm hne

theorem getBlockData_eq_ok {b : Nat} {extra : Extra} (h : getBlockData C.extras b = .ok extra) :
    ∃ hb : b < C.extras.length, C.extras[b] = extra := by
  unfold getBlockData at h
  split at h
  · rename_i x hx
    cases h
    exact List.getElem?_eq_some_iff.mp hx
  · cases h

section Calls

variable {C} {parents : List (Nat × Extra)} (hpar : ParentsAgree C.extras parents)
include hpar

theorem correct_loop_step {b : Nat} (extra : Extra) (K : Nat)
    (hb : getBlockData C.extras b = .ok extra) (hK : epochToGetSnapshot C.extras b extra = .ok K)
    (latest : ValidatorSnapshot) (n : Nat) (s : ValidatorSnapshot)
    (hl : SnapshotCorrect C.extras latest) (hlt : latest.epoch < K)
    (hn : getNextEpochEndingBlock C.extras latest.epochEndingBlock = .ok n)
    (hs : computeSnapshot C.extras parents (some latest) n = .ok s) : SnapshotCorrect C.extras s := by
  obtain ⟨hbl, rfl⟩ := C.getBlockData_eq_ok hb
  rcases C.target_ended hbl hK with hall | hlen
  · exact correct_computeSnapshot_next hpar hl (hall _ (by omega)) hn hs
  · rw [C.getNextEpochEndingBlock_of_length_one hlen] at hn
    cases hn

theorem all_correct_getSnapshot {c : SnapshotCache} (hc : c.All (SnapshotCorrect C.extras))
    (b : Nat) (isPassedTxNil : Bool) :
    (getSnapshot C.extras parents b isPassedTxNil c).2.All (SnapshotCorrect C.extras) :=
  (all_getSnapshot hc (fun _ hg => correct_genesis hpar hg) (correct_loop_step hpar)).1

theorem getSnapshot_eq_replay_of_all {c : SnapshotCache} (hc : c.All (SnapshotCorrect C.extras))
    {b : Nat} (hb : b < C.extras.length) (hrep : ReplayOk C.extras (lastEndedEpoch C.extras b))
    (isPassedTxNil : Bool) :
    ∃ vs, replaySnapshot C.extras (lastEndedEpoch C.extras b) = .ok vs ∧
      (getSnapshot C.extras parents b isPassedTxNil c).1 = .ok vs := by
  obtain ⟨K, hK, -⟩ := C.epochToGetSnapshot_spec hb
  obtain ⟨hended, hrepK, hreplay⟩ := C.target_replay hb hK hrep
  have hstep := correct_loop_step hpar _ K (getBlockData_of_lt hb) hK
  obtain ⟨vs0, hvs0, hne0⟩ := hrepK 0 (Nat.zero_le _)
  have hgen := computeSnapshot_genesis_isOk hpar hvs0 hne0
  obtain ⟨vs, hvs⟩ : ∃ vs, (getSnapshot C.extras parents b isPassedTxNil c).1 = .ok vs :=
    getSnapshot_isOk hc (getBlockData_of_lt hb) hK
    ⟨_, hgen, correct_genesis hpar hgen⟩ hstep fun latest hl hlt => by
      obtain ⟨vs', hr, hne⟩ := hrepK (latest.epoch + 1) (by omega)
      exact computeSnapshot_next_isOk hpar hl (hended _ (by omega)) hr hne
  obtain ⟨extra, K', s, hb', hK', hsK, hs, rfl⟩ :=
    (all_getSnapshot hc (fun _ hg => correct_genesis hpar hg) (correct_loop_step hpar)).2 vs hvs
  rw [getBlockData_of_lt hb, Except.ok.injEq] at hb'
  subst hb'
  rw [hK, Except.ok.injEq] at hK'
  subst hK'
  exact ⟨s.snapshot, by rw [← hreplay, ← hsK, hs.replay_eq], hvs⟩

end Calls

end FinalizedChain

namespace FinalizedChain

section Growth

variable {C C' : FinalizedChain} (hpre : C.extras <+: C'.extras)
include hpre

theorem epochAt_of_extension {n : Nat} (hn : n < C.extras.length) :
    epochAt C'.extras n = epochAt C.extras n := by
  obtain ⟨t, ht⟩ := hpre
  simp [epochAt, ← ht, List.getElem?_append_left hn]

theorem deltaAt_of_extension {n : Nat} (hn : n < C.extras.length) :
    deltaAt C'.extras n = deltaAt C.extras n := by
  obtain ⟨t, ht⟩ := hpre
  simp [deltaAt, ← ht, List.getElem?_append_left hn]

theorem ended_of_extension {e : Nat} (he : EpochEnded C.extras e) : EpochEnded C'.extras e := by
  obtain ⟨n, hn, hne, hd⟩ := he
  exact ⟨n, Nat.lt_of_lt_of_le hn hpre.length_le, by rw [epochAt_of_extension hpre hn, hne],
    by rw [deltaAt_of_extension hpre hn]; exact hd⟩

theorem lastBlockOfEpoch_of_extension {e : Nat} (he : EpochEnded C.extras e) :
    lastBlockOfEpoch C'.extras e = lastBlockOfEpoch C.extras e := by
  obtain ⟨hn, hne, hd⟩ := C.lastBlockOfEpoch_of_ended he
  refine C'.lastBlockOfEpoch_eq (Nat.lt_of_lt_of_le hn hpre.length_le)
    (by rw [epochAt_of_extension hpre hn, hne]) fun h => ?_
  have := (C'.delta_iff_ending _ h).mp (by rw [deltaAt_of_extension hpre hn]; exact hd)
  rw [epochAt_of_extension hpre hn, hne] at this
  omega

theorem replaySnapshot_of_extension {k : Nat} (hk : EpochEnded C.extras k) :
    ∀ e ≤ k, replaySnapshot C'.extras e = replaySnapshot C.extras e
  | 0, _ => by rw [replaySnapshot, replaySnapshot, deltaAt_of_extension hpre C.length_pos]
  | e + 1, he => by
    have hended := C.ended_of_le hk he
    obtain ⟨hn, -, -⟩ := C.lastBlockOfEpoch_of_ended hended
    rw [replaySnapshot, replaySnapshot, replaySnapshot_of_extension hk e (by omega),
      lastBlockOfEpoch_of_extension hpre hended, deltaAt_of_extension hpre hn]

theorem snapshotCorrect_of_extension {s : ValidatorSnapshot} (hs : SnapshotCorrect C.extras s) :
    SnapshotCorrect C'.extras s :=
  ⟨ended_of_extension hpre hs.ended,
    by rw [lastBlockOfEpoch_of_extension hpre hs.ended]; exact hs.epochEndingBlock_eq,
    by rw [replaySnapshot_of_extension hpre hs.ended _ (le_refl _)]; exact hs.replay_eq,
    hs.nonempty⟩

end Growth

end FinalizedChain

/-- The states a node's validators snapshot cache goes through: both stores start empty, the
chain grows by finalized blocks, a restart loses the memory map and keeps the database, and
`GetSnapshot` is called for any block with headers that agree with the chain. -/
inductive SnapshotRun : FinalizedChain → SnapshotCache → Prop
  | init (C : FinalizedChain) : SnapshotRun C ⟨[], []⟩
  | grow {C : FinalizedChain} {c : SnapshotCache} (C' : FinalizedChain) :
      SnapshotRun C c → C.extras <+: C'.extras → SnapshotRun C' c
  | restart {C : FinalizedChain} {c : SnapshotCache} :
      SnapshotRun C c → SnapshotRun C { c with snapshots := [] }
  | getSnapshot {C : FinalizedChain} {c : SnapshotCache} (parents : List (Nat × Extra))
      (blockNumber : Nat) (isPassedTxNil : Bool) :
      SnapshotRun C c → ParentsAgree C.extras parents →
      SnapshotRun C (getSnapshot C.extras parents blockNumber isPassedTxNil c).2

theorem SnapshotRun.all_correct {C : FinalizedChain} {c : SnapshotCache} (h : SnapshotRun C c) :
    c.All (SnapshotCorrect C.extras) := by
  induction h with
  | init C => intro k s hm; simp at hm
  | grow C' _ hpre ih =>
    intro k s hm
    obtain ⟨hk, hs⟩ := ih k s hm
    exact ⟨hk, FinalizedChain.snapshotCorrect_of_extension hpre hs⟩
  | restart _ ih =>
    intro k s hm
    rcases hm with hm | hm
    · simp at hm
    · exact ih k s (.inr hm)
  | getSnapshot parents b isPassedTxNil _ hpar ih =>
    exact FinalizedChain.all_correct_getSnapshot hpar ih b isPassedTxNil

theorem getSnapshot_replay {C : FinalizedChain} {c : SnapshotCache} (hrun : SnapshotRun C c)
    {parents : List (Nat × Extra)} (hpar : ParentsAgree C.extras parents) {b : Nat}
    (hb : b < C.extras.length) (hrep : ReplayOk C.extras (lastEndedEpoch C.extras b))
    (isPassedTxNil : Bool) :
    ∃ vs, replaySnapshot C.extras (lastEndedEpoch C.extras b) = .ok vs ∧
      (getSnapshot C.extras parents b isPassedTxNil c).1 = .ok vs :=
  FinalizedChain.getSnapshot_eq_replay_of_all hpar hrun.all_correct hb hrep isPassedTxNil

/-- Genesis with one validator, an epoch that adds a second one, and a block of the third
epoch. -/
def twoEpochChain : FinalizedChain where
  extras :=
    [⟨some ⟨[⟨1, some [], 1, true⟩], [], ⟨[]⟩⟩, ⟨0, 0⟩⟩, ⟨none, ⟨0, 1⟩⟩,
      ⟨some ⟨[⟨2, some [], 1, true⟩], [], ⟨[]⟩⟩, ⟨0, 1⟩⟩, ⟨none, ⟨0, 2⟩⟩]
  genesis_epoch := rfl
  genesis_delta := rfl
  epoch_step := by
    intro n hn
    simp only [List.length_cons, List.length_nil] at hn
    have hn3 : n < 3 := by omega
    interval_cases n <;> decide
  delta_iff_ending := by
    intro n hn
    simp only [List.length_cons, List.length_nil] at hn
    have hn3 : n < 3 := by omega
    interval_cases n <;> decide
  epoch_lt := by
    intro n hn
    simp only [List.length_cons, List.length_nil] at hn
    interval_cases n <;> decide

theorem getSnapshot_replay_twoEpochChain :
    ∃ vs, replaySnapshot twoEpochChain.extras (lastEndedEpoch twoEpochChain.extras 3) = .ok vs ∧
      (getSnapshot twoEpochChain.extras [] 3 true
        (getSnapshot twoEpochChain.extras [] 1 true ⟨[], []⟩).2).1 = .ok vs :=
  getSnapshot_replay (.getSnapshot [] 1 true (.init twoEpochChain) (fun _ hp => by cases hp))
    (fun _ hp => by cases hp) (by decide)
    (by
      intro e he
      have hlast : lastEndedEpoch twoEpochChain.extras 3 = 1 := by decide
      rw [hlast] at he
      interval_cases e
      · exact ⟨_, rfl, by simp⟩
      · exact ⟨_, rfl, by simp⟩)
    true

/-- Blocks 1 and 2 are of epoch 1, whose validators, the set after block 0, sign both; block 2
ends the epoch, and its snapshot already holds the second validator that its own delta adds. -/
theorem getSnapshot_epochEnding_includes_own_delta :
    epochAt twoEpochChain.extras 1 = 1 ∧ epochAt twoEpochChain.extras 2 = 1 ∧
      replaySnapshot twoEpochChain.extras 0 = .ok [⟨1, some [], 1, true⟩] ∧
      (getSnapshot twoEpochChain.extras [] 1 true ⟨[], []⟩).1 = .ok [⟨1, some [], 1, true⟩] ∧
      (getSnapshot twoEpochChain.extras [] 2 true ⟨[], []⟩).1 =
        .ok [⟨1, some [], 1, true⟩, ⟨2, some [], 1, true⟩] :=
  ⟨by decide, by decide, by decide +kernel, by decide +kernel, by decide +kernel⟩

end Blade
