import Mathlib.Algebra.BigOperators.Fin
import Blade.ValidatorMetadata
import Blade.Lib.RoundRobin

/-!
`consensus/polybft/proposer_calculator.go`: proposers are chosen by a smooth weighted round robin
over the validators' priorities. Every `incrementProposerPriorityNTimes` call first rescales the
priorities into a window of twice the total voting power and centres them on zero
(`updateWithChangeSet`), then increments them `times` times.
-/

namespace Blade

structure PrioritizedValidator where
  metadata : ValidatorMetadata
  proposerPriority : ℤ
  deriving DecidableEq, Repr

structure ProposerSnapshot where
  height : Nat
  round : Nat
  /-- The position of the proposer among the validators. -/
  proposer : Option Nat
  validators : List PrioritizedValidator
  deriving DecidableEq, Repr

def priorityWindowSizeFactor : ℤ := 2

def newProposerSnapshot (height : Nat) (validators : AccountSet) : ProposerSnapshot :=
  ⟨height, 0, none, validators.map fun x => ⟨x, 0⟩⟩

def ProposerSnapshot.getTotalVotingPower (pcs : ProposerSnapshot) : ℤ :=
  (pcs.validators.map (·.metadata.votingPower)).sum

def bigIntDivCeil (a b : ℤ) : ℤ := (a + b - 1) / b

def computeMaxMinPriorityDiff : List PrioritizedValidator → ℤ
  -- the code reads `validators[0]`; its only caller has checked that there is one
  | [] => 0
  | v :: rest =>
    let bounds := rest.foldl (fun (b : ℤ × ℤ) x =>
      (if x.proposerPriority < b.1 then x.proposerPriority else b.1,
        if x.proposerPriority > b.2 then x.proposerPriority else b.2))
      (v.proposerPriority, v.proposerPriority)
    let diff := bounds.2 - bounds.1
    if diff < 0 then -diff else diff

def rescalePriorities (validators : List PrioritizedValidator) (totalVotingPower : ℤ) :
    Except String (List PrioritizedValidator) :=
  if validators.isEmpty then .error "validator set cannot be nul or empty"
  else
    let diffMax := priorityWindowSizeFactor * totalVotingPower
    let diff := computeMaxMinPriorityDiff validators
    -- `BigIntDivCeil` divides by `diffMax` before the comparison: a zero total panics
    if diffMax = 0 then .error "division by zero"
    else
      let ratio := bigIntDivCeil diff diffMax
      if diff > diffMax then
        .ok (validators.map fun val => { val with proposerPriority := val.proposerPriority.tdiv ratio })
      else .ok validators

def computeAvgProposerPriority (validators : List PrioritizedValidator) : Except String ℤ :=
  if validators.isEmpty then .error "validator set cannot be nul or empty"
  else .ok ((validators.map (·.proposerPriority)).sum / validators.length)

def shiftByAvgProposerPriority (validators : List PrioritizedValidator) :
    Except String (List PrioritizedValidator) :=
  match computeAvgProposerPriority validators with
  | .error e => .error ("cannot compute proposer priority: " ++ e)
  | .ok avgProposerPriority =>
    .ok (validators.map fun val =>
      { val with proposerPriority := val.proposerPriority - avgProposerPriority })

def updateWithChangeSet (validators : List PrioritizedValidator) (totalVotingPower : ℤ) :
    Except String (List PrioritizedValidator) :=
  match rescalePriorities validators totalVotingPower with
  | .error e => .error ("cannot rescale priorities: " ++ e)
  | .ok validators =>
    match shiftByAvgProposerPriority validators with
    | .error e => .error ("cannot shift proposer priorities: " ++ e)
    | .ok validators => .ok validators

/-- A validator is given with its position, which stands for its pointer. -/
def isBetterProposer (a : Nat × PrioritizedValidator) (b : Option (Nat × PrioritizedValidator)) :
    Bool :=
  match b with
  | none => true
  | some b =>
    if a.2.proposerPriority > b.2.proposerPriority then true
    -- `a.ProposerPriority == b.ProposerPriority` compares pointers, and every validator owns
    -- its priority: the address order is consulted for a validator against itself only
    else if a.1 = b.1 then decide (a.2.metadata.address ≤ b.2.metadata.address)
    else false

def getValWithMostPriorityFrom :
    Nat → List PrioritizedValidator → Option (Nat × PrioritizedValidator) →
      Option (Nat × PrioritizedValidator)
  | _, [], result => result
  | i, curr :: rest, result =>
    getValWithMostPriorityFrom (i + 1) rest
      (if isBetterProposer (i, curr) result then some (i, curr) else result)

def getValWithMostPriority (validators : List PrioritizedValidator) :
    Except String (Nat × PrioritizedValidator) :=
  match getValWithMostPriorityFrom 0 validators none with
  | some result => .ok result
  | none => .error "validators cannot be nil or empty"

/-- Returns the validators after the increment and the position of the proposer. -/
def incrementProposerPriority (validators : List PrioritizedValidator) (totalVotingPower : ℤ) :
    Except String (List PrioritizedValidator × Nat) :=
  let validators := validators.map fun val =>
    { val with proposerPriority := val.proposerPriority + val.metadata.votingPower }
  match getValWithMostPriority validators with
  | .error e => .error ("cannot get validator with most priority: " ++ e)
  | .ok (i, mostest) =>
    .ok (validators.set i { mostest with proposerPriority := mostest.proposerPriority - totalVotingPower }, i)

/-- The iterations of the loop of `incrementProposerPriorityNTimes`, with the proposer of each
iteration in order; the code keeps the last one. -/
def incrementProposerPriorityLoop (totalVotingPower : ℤ) :
    Nat → List PrioritizedValidator → Except String (List PrioritizedValidator × List Nat)
  | 0, validators => .ok (validators, [])
  | times + 1, validators =>
    match incrementProposerPriority validators totalVotingPower with
    | .error e => .error ("cannot increment proposer priority: " ++ e)
    | .ok (validators, proposer) =>
      match incrementProposerPriorityLoop totalVotingPower times validators with
      | .error e => .error e
      | .ok (validators, proposers) => .ok (validators, proposer :: proposers)

def incrementProposerPriorityNTimes (snapshot : ProposerSnapshot) (times : Nat) :
    Except String (Option Nat × ProposerSnapshot) :=
  if snapshot.validators.isEmpty then .error "validator set cannot be nul or empty"
  else if times = 0 then .error "cannot call IncrementProposerPriority with non-positive times"
  else
    let tvp := snapshot.getTotalVotingPower
    match updateWithChangeSet snapshot.validators tvp with
    | .error e => .error e
    | .ok validators =>
      match incrementProposerPriorityLoop tvp times validators with
      | .error e => .error e
      | .ok (validators, proposers) =>
        .ok (proposers.getLast?,
          { snapshot with validators, proposer := proposers.getLast?, round := times - 1 })

/-- Successive calls with an unchanged validator set, as `updatePerBlock` makes them (one per
block, `BlockRound + 1` times each), with the proposer each call returns. -/
def runCalls (snapshot : ProposerSnapshot) :
    List Nat → Except String (ProposerSnapshot × List (Option Nat))
  | [] => .ok (snapshot, [])
  | times :: rest =>
    match incrementProposerPriorityNTimes snapshot times with
    | .error e => .error e
    | .ok (proposer, snapshot) =>
      match runCalls snapshot rest with
      | .error e => .error e
      | .ok (snapshot, proposers) => .ok (snapshot, proposer :: proposers)

/-- `toMap` looked up: of two validators of one address the map keeps the later. -/
def lookupValidator (validators : List PrioritizedValidator) (addr : Address) :
    Option PrioritizedValidator :=
  validators.reverse.find? (·.metadata.address == addr)

/-- The voting power of the snapshot's validators missing from the new set, over the addresses
of the snapshot's map. -/
def removedVotingPower (validators : List PrioritizedValidator) (newValidatorSet : AccountSet) :
    ℤ :=
  (((validators.map (·.metadata.address)).dedup.filter
    (fun addr => !newValidatorSet.containsAddress addr)).map
      fun addr => ((lookupValidator validators addr).map (·.metadata.votingPower)).getD 0).sum

/-- The loop of `updateValidators` over the new validator set. A validator of the snapshot keeps
its priority; an added one gets `-(t + t / 8)`, where `t` is the running total, and the `Add`
that computes it writes `t + t / 8` back into the total the next added validator reads. -/
def prioritizeValidators (snapshotValidators : List PrioritizedValidator) :
    ℤ → AccountSet → List PrioritizedValidator
  | _, [] => []
  | tvp, newValidator :: rest =>
    match lookupValidator snapshotValidators newValidator.address with
    | some val => ⟨newValidator, val.proposerPriority⟩ :: prioritizeValidators snapshotValidators tvp rest
    | none =>
      let coefficient := tvp / 8
      ⟨newValidator, -(tvp + coefficient)⟩ ::
        prioritizeValidators snapshotValidators (tvp + coefficient) rest

/-- `updateValidators`. The new validator set comes from the validator-set contract, whose
addresses are distinct, so no two of the new validators share a priority object. -/
def updateValidators (snapshot : ProposerSnapshot) (newValidatorSet : AccountSet) :
    Except String ProposerSnapshot :=
  if newValidatorSet.length = 0 then .ok snapshot
  else
    let tvpAfterUpdatesBeforeRemovals :=
      newValidatorSet.getTotalVotingPower + removedVotingPower snapshot.validators newValidatorSet
    let snapshot := { snapshot with
      validators := prioritizeValidators snapshot.validators tvpAfterUpdatesBeforeRemovals
        newValidatorSet }
    match updateWithChangeSet snapshot.validators snapshot.getTotalVotingPower with
    | .error e => .error ("cannot update validator changeset: " ++ e)
    | .ok validators => .ok { snapshot with validators }

/-- `updatePerBlock`, given the round the block was decided in and the validator set of its
extra (empty when the extra announces no change). -/
def updatePerBlock (snapshot : ProposerSnapshot) (blockNumber blockRound : Nat)
    (newValidatorSet : AccountSet) : Except String ProposerSnapshot :=
  if snapshot.height ≠ blockNumber then
    .error "proposers snapshot update called for wrong block"
  else
    match incrementProposerPriorityNTimes snapshot (blockRound + 1) with
    | .error e => .error ("failed to update proposers snapshot: " ++ e)
    | .ok (_, snapshot) =>
      match updateValidators snapshot newValidatorSet with
      | .error e => .error ("cannot update validators: " ++ e)
      | .ok snapshot => .ok { snapshot with height := blockNumber + 1, round := 0, proposer := none }

/-- The address of the proposer a snapshot points to, if it points to one. -/
def ProposerSnapshot.proposerAddress (pcs : ProposerSnapshot) : Option Address :=
  pcs.proposer.bind fun i => pcs.validators[i]?.map (·.metadata.address)

/-- `CalcProposer`. The increments run on `Copy()`, which shares the priority objects with the
snapshot: `rescalePriorities` and `shiftByAvgProposerPriority` change them in place, so the
snapshot is left with the priorities `updateWithChangeSet` computes, while each increment gives
the copy's validators new ones. -/
def ProposerSnapshot.calcProposer (pcs : ProposerSnapshot) (round height : Nat) :
    Except String (Address × ProposerSnapshot) :=
  if height ≠ pcs.height then .error "invalid height"
  else
    match pcs.proposerAddress with
    | some addr =>
      if pcs.round = round then .ok (addr, pcs)
      else calcFresh
    | none => calcFresh
where
  calcFresh : Except String (Address × ProposerSnapshot) :=
    match incrementProposerPriorityNTimes pcs (round + 1) with
    | .error e => .error e
    | .ok (proposer, copy) =>
      match copy.proposerAddress with
      | none => .error "cannot increment proposer priority"
      | some addr =>
        let shared := match updateWithChangeSet pcs.validators pcs.getTotalVotingPower with
          | .ok validators => validators
          | .error _ => pcs.validators
        .ok (addr, { pcs with validators := shared, proposer, round })

/-- Successive `CalcProposer` calls at one height: a failed call leaves the snapshot as it was. -/
def ProposerSnapshot.calcProposers (pcs : ProposerSnapshot) (height : Nat) :
    List Nat → ProposerSnapshot × List (Except String Address)
  | [] => (pcs, [])
  | round :: rounds =>
    match pcs.calcProposer round height with
    | .error e =>
      let rest := pcs.calcProposers height rounds
      (rest.1, .error e :: rest.2)
    | .ok (addr, pcs') =>
      let rest := pcs'.calcProposers height rounds
      (rest.1, .ok addr :: rest.2)

/-! ### The choice of the proposer -/

/-- `x`, at position `k`, is the first validator of maximal priority. -/
def IsFirstMax (validators : List PrioritizedValidator) (k : Nat) (x : PrioritizedValidator) :
    Prop :=
  validators[k]? = some x ∧ (∀ y ∈ validators, y.proposerPriority ≤ x.proposerPriority) ∧
    ∀ j y, j < k → validators[j]? = some y → y.proposerPriority < x.proposerPriority

/-- One iteration of the loop of `getValWithMostPriority` keeps the first maximal validator of
the part already seen: a later validator replaces it only with a strictly greater priority, as
the pointer comparison never holds between two validators. -/
theorem isFirstMax_step (pre : List PrioritizedValidator) (curr : PrioritizedValidator)
    (r : Option (Nat × PrioritizedValidator)) (hnone : r = none ↔ pre = [])
    (hinv : ∀ k x, r = some (k, x) → IsFirstMax pre k x) :
    ∀ k x, (if isBetterProposer (pre.length, curr) r then some (pre.length, curr) else r) =
      some (k, x) → IsFirstMax (pre ++ [curr]) k x := by
  intro k x h
  cases r with
  | none =>
    obtain rfl := hnone.mp rfl
    simp only [isBetterProposer, if_true, Option.some.injEq, Prod.mk.injEq] at h
    obtain ⟨rfl, rfl⟩ := h
    exact ⟨rfl, by simp, fun j y hj _ => absurd hj (by simp)⟩
  | some r =>
    obtain ⟨k₀, x₀⟩ := r
    obtain ⟨hget, hmax, hfirst⟩ := hinv k₀ x₀ rfl
    have hk₀ : k₀ < pre.length := (List.getElem?_eq_some_iff.mp hget).1
    have hne : pre.length ≠ k₀ := by omega
    by_cases hgt : curr.proposerPriority > x₀.proposerPriority
    · simp only [isBetterProposer, hgt, if_true, Option.some.injEq, Prod.mk.injEq] at h
      obtain ⟨rfl, rfl⟩ := h
      refine ⟨List.getElem?_concat_length, fun y hy => ?_, fun j y hj hy => ?_⟩
      · rcases List.mem_append.mp hy with hy | hy
        · exact le_of_lt (lt_of_le_of_lt (hmax y hy) hgt)
        · rw [List.mem_singleton.mp hy]
      · rw [List.getElem?_append_left hj] at hy
        exact lt_of_le_of_lt (hmax y (List.mem_of_getElem? hy)) hgt
    · simp only [isBetterProposer, hgt, hne, if_false] at h
      obtain ⟨rfl, rfl⟩ := h
      refine ⟨by rw [List.getElem?_append_left hk₀, hget], fun y hy => ?_, fun j y hj hy => ?_⟩
      · rcases List.mem_append.mp hy with hy | hy
        · exact hmax y hy
        · rw [List.mem_singleton.mp hy]; exact not_lt.mp hgt
      · rw [List.getElem?_append_left (by omega)] at hy
        exact hfirst j y hj hy

theorem getValWithMostPriorityFrom_spec :
    ∀ (l pre : List PrioritizedValidator) (r : Option (Nat × PrioritizedValidator)),
      (r = none ↔ pre = []) → (∀ k x, r = some (k, x) → IsFirstMax pre k x) →
      (getValWithMostPriorityFrom pre.length l r = none ↔ pre ++ l = []) ∧
        ∀ k x, getValWithMostPriorityFrom pre.length l r = some (k, x) → IsFirstMax (pre ++ l) k x
  | [], pre, r, hnone, hinv => by simpa [getValWithMostPriorityFrom] using ⟨hnone, hinv⟩
  | curr :: rest, pre, r, hnone, hinv => by
    have hstep := isFirstMax_step pre curr r hnone hinv
    have hsome : (if isBetterProposer (pre.length, curr) r then some (pre.length, curr) else r) ≠
        none := by
      split
      · simp
      · rename_i hb
        cases r with
        | none => simp [isBetterProposer] at hb
        | some _ => simp
    have ih := getValWithMostPriorityFrom_spec rest (pre ++ [curr]) _
      (by simpa using hsome) hstep
    simp only [List.length_append, List.length_singleton, List.append_assoc,
      List.singleton_append] at ih
    exact ih

theorem getValWithMostPriority_eq_ok {validators : List PrioritizedValidator} {k : Nat}
    {x : PrioritizedValidator} (h : getValWithMostPriority validators = .ok (k, x)) :
    IsFirstMax validators k x := by
  have hspec := (getValWithMostPriorityFrom_spec validators [] none (by simp) (by simp)).2
  unfold getValWithMostPriority at h
  split at h
  · rename_i r hr
    cases h
    simpa using hspec k x hr
  · cases h

theorem getValWithMostPriority_isOk {validators : List PrioritizedValidator} (h : validators ≠ []) :
    ∃ k x, getValWithMostPriority validators = .ok (k, x) := by
  have hspec := (getValWithMostPriorityFrom_spec validators [] none (by simp) (by simp)).1
  unfold getValWithMostPriority
  split
  · rename_i r _
    exact ⟨r.1, r.2, rfl⟩
  · rename_i hr
    simp only [List.length_nil, List.nil_append] at hspec
    exact absurd (hspec.mp hr) h

/-- On every non-empty list `getValWithMostPriority` returns the first validator of maximal
priority, whatever the addresses: the pointer comparison in `isBetterProposer` never holds
between two validators, so of two equal priorities the earlier one stays. -/
theorem getValWithMostPriority_first_of_ties {validators : List PrioritizedValidator}
    (h : validators ≠ []) :
    ∃ k x, getValWithMostPriority validators = .ok (k, x) ∧ IsFirstMax validators k x := by
  obtain ⟨k, x, hg⟩ := getValWithMostPriority_isOk h
  exact ⟨k, x, hg, getValWithMostPriority_eq_ok hg⟩

/-- Two validators of equal priority, the greater address first: the first is returned, not the
one of the smaller address. -/
theorem getValWithMostPriority_first_of_ties_pair :
    let validators : List PrioritizedValidator :=
      [⟨⟨2, none, 1, true⟩, 0⟩, ⟨⟨1, none, 1, true⟩, 0⟩]
    (∃ k x, getValWithMostPriority validators = .ok (k, x) ∧ IsFirstMax validators k x) ∧
      getValWithMostPriority validators = .ok (0, ⟨⟨2, none, 1, true⟩, 0⟩) :=
  ⟨getValWithMostPriority_first_of_ties (by simp), rfl⟩

/-! ### One increment is a step of the smooth weighted round robin -/

def priorityAt (validators : List PrioritizedValidator) (i : Nat) : ℤ :=
  (validators[i]?.map (·.proposerPriority)).getD 0

def votingPowerAt (validators : List PrioritizedValidator) (i : Nat) : ℤ :=
  (validators[i]?.map (·.metadata.votingPower)).getD 0

theorem incrementProposerPriority_eq_ok {validators validators' : List PrioritizedValidator}
    {tvp : ℤ} {i : Nat} (h : incrementProposerPriority validators tvp = .ok (validators', i)) :
    i < validators.length ∧ validators'.length = validators.length ∧
      (∀ j, votingPowerAt validators' j = votingPowerAt validators j) ∧
      (∀ j < validators.length, priorityAt validators j + votingPowerAt validators j ≤
        priorityAt validators i + votingPowerAt validators i) ∧
      ∀ j, priorityAt validators' j =
        priorityAt validators j + votingPowerAt validators j - if j = i then tvp else 0 := by
  unfold incrementProposerPriority at h
  dsimp only at h
  split at h
  · cases h
  · rename_i k x hg
    simp only [Except.ok.injEq, Prod.mk.injEq] at h
    obtain ⟨rfl, rfl⟩ := h
    obtain ⟨hget, hmax, -⟩ := getValWithMostPriority_eq_ok hg
    obtain ⟨hk, hx⟩ := List.getElem?_eq_some_iff.mp hget
    simp only [List.length_map] at hk
    have hxk : x.proposerPriority = priorityAt validators k + votingPowerAt validators k ∧
        x.metadata = validators[k].metadata := by
      rw [← hx]; simp [priorityAt, votingPowerAt, List.getElem?_eq_getElem hk]
    refine ⟨hk, by simp, fun j => ?_, fun j hj => ?_, fun j => ?_⟩
    · by_cases hjk : k = j
      · subst hjk; simp [votingPowerAt, hk, hxk.2]
      · simp [votingPowerAt, hjk, Function.comp_def]
    · have hmem : { validators[j] with proposerPriority :=
          validators[j].proposerPriority + validators[j].metadata.votingPower } ∈
          validators.map fun (val : PrioritizedValidator) =>
            { val with proposerPriority := val.proposerPriority + val.metadata.votingPower } :=
        List.mem_map.mpr ⟨_, List.getElem_mem hj, rfl⟩
      have := hmax _ hmem
      rw [← hxk.1]
      simpa [priorityAt, votingPowerAt, List.getElem?_eq_getElem hj] using this
    · by_cases hjk : k = j
      · subst hjk
        simp only [priorityAt, List.getElem?_set, if_true, List.length_map, hk, Option.map_some,
          Option.getD_some]
        rw [hxk.1]
        simp [priorityAt]
      · have hne : j ≠ k := Ne.symm hjk
        rcases Nat.lt_or_ge j validators.length with hj | hj
        · simp [priorityAt, votingPowerAt, hjk, hne, List.getElem?_eq_getElem hj]
        · simp [priorityAt, votingPowerAt, hjk, hne, List.getElem?_eq_none hj]

theorem incrementProposerPriority_isOk {validators : List PrioritizedValidator} (tvp : ℤ)
    (h : validators ≠ []) : ∃ validators' i,
      incrementProposerPriority validators tvp = .ok (validators', i) := by
  have hinc : (validators.map fun (val : PrioritizedValidator) =>
      { val with proposerPriority := val.proposerPriority + val.metadata.votingPower }) ≠ [] := by
    simpa using h
  obtain ⟨k, x, hg⟩ := getValWithMostPriority_isOk hinc
  exact ⟨_, k, by simp only [incrementProposerPriority, hg]; rfl⟩

open Lib.RoundRobin in
/-- The iterations of one call run the smooth weighted round robin of the library on the
positions, with the voting powers as weights and the total voting power as `T`. -/
theorem incrementProposerPriorityLoop_run {n : Nat} (tvp : ℤ) :
    ∀ (times : Nat) (validators validators' : List PrioritizedValidator) (proposers : List Nat),
      validators.length = n →
      incrementProposerPriorityLoop tvp times validators = .ok (validators', proposers) →
      validators'.length = n ∧ (∀ j, votingPowerAt validators' j = votingPowerAt validators j) ∧
        proposers.length = times ∧ ∃ picks : List (Fin n), picks.map Fin.val = proposers ∧
          Run (fun j : Fin n => votingPowerAt validators j) tvp
            (fun j : Fin n => priorityAt validators j) picks (fun j : Fin n => priorityAt validators' j)
  | 0, validators, validators', proposers, _, h => by
    simp only [incrementProposerPriorityLoop, Except.ok.injEq, Prod.mk.injEq] at h
    obtain ⟨rfl, rfl⟩ := h
    exact ⟨by assumption, fun _ => rfl, rfl, [], rfl, .nil _⟩
  | times + 1, validators, validators', proposers, hlen, h => by
    unfold incrementProposerPriorityLoop at h
    split at h
    · cases h
    · rename_i mid i hinc
      split at h
      · cases h
      · rename_i rest ps hloop
        simp only [Except.ok.injEq, Prod.mk.injEq] at h
        obtain ⟨rfl, rfl⟩ := h
        obtain ⟨hi, hmidlen, hpow, hmax, hprio⟩ := incrementProposerPriority_eq_ok hinc
        obtain ⟨hlen', hpow', hps, picks, hpicks, hrun⟩ :=
          incrementProposerPriorityLoop_run (n := n) tvp times mid _ _ (by omega) hloop
        simp only [hpow] at hrun
        refine ⟨hlen', fun j => (hpow' j).trans (hpow j), by simp [hps], ⟨i, by omega⟩ :: picks,
          by simp [hpicks], .cons ⟨fun j => hmax j (by omega), fun j => ?_⟩ hrun⟩
        rw [hprio j]
        simp only [Fin.ext_iff]

theorem incrementProposerPriorityLoop_isOk (tvp : ℤ) :
    ∀ (times : Nat) (validators : List PrioritizedValidator), validators ≠ [] →
      ∃ validators' proposers,
        incrementProposerPriorityLoop tvp times validators = .ok (validators', proposers)
  | 0, validators, _ => ⟨validators, [], rfl⟩
  | times + 1, validators, h => by
    obtain ⟨mid, i, hinc⟩ := incrementProposerPriority_isOk tvp h
    have hmid : mid ≠ [] := by
      have := (incrementProposerPriority_eq_ok hinc).2.1
      intro hnil
      rw [hnil] at this
      exact h (List.length_eq_zero_iff.mp this.symm)
    obtain ⟨validators', proposers, hloop⟩ := incrementProposerPriorityLoop_isOk tvp times mid hmid
    exact ⟨validators', i :: proposers, by simp only [incrementProposerPriorityLoop, hinc, hloop]⟩

/-! ### Fairness of one call from zero priorities -/

theorem computeMaxMinPriorityDiff_of_zero {validators : List PrioritizedValidator}
    (h : ∀ v ∈ validators, v.proposerPriority = 0) : computeMaxMinPriorityDiff validators = 0 := by
  cases validators with
  | nil => rfl
  | cons v rest =>
    -- the running bounds stay at zero over zero priorities
    have hfold : ∀ l : List PrioritizedValidator, (∀ x ∈ l, x.proposerPriority = 0) →
        l.foldl (fun (b : ℤ × ℤ) x =>
          (if x.proposerPriority < b.1 then x.proposerPriority else b.1,
            if x.proposerPriority > b.2 then x.proposerPriority else b.2)) (0, 0) = (0, 0) := by
      intro l hl
      induction l with
      | nil => rfl
      | cons x l ih =>
        rw [List.foldl_cons, hl x List.mem_cons_self]
        exact ih fun y hy => hl y (List.mem_cons_of_mem x hy)
    simp only [computeMaxMinPriorityDiff, h v List.mem_cons_self,
      hfold rest fun x hx => h x (List.mem_cons_of_mem v hx)]
    simp

theorem updateWithChangeSet_of_zero {validators : List PrioritizedValidator} {tvp : ℤ}
    (hne : validators ≠ []) (h : ∀ v ∈ validators, v.proposerPriority = 0) (htvp : 0 < tvp) :
    updateWithChangeSet validators tvp = .ok validators := by
  have hsum : (validators.map (·.proposerPriority)).sum = 0 :=
    List.sum_eq_zero fun x hx => by
      obtain ⟨v, hv, rfl⟩ := List.mem_map.mp hx
      exact h v hv
  have hempty : validators.isEmpty = false := List.isEmpty_eq_false_iff.mpr hne
  have hrescale : rescalePriorities validators tvp = .ok validators := by
    have hne0 : tvp ≠ 0 := by omega
    have hnlt : ¬ 2 * tvp < 0 := by omega
    simp only [rescalePriorities, hempty, computeMaxMinPriorityDiff_of_zero h,
      priorityWindowSizeFactor]
    simp [hne0, hnlt]
  have hshift : shiftByAvgProposerPriority validators = .ok validators := by
    simp only [shiftByAvgProposerPriority, computeAvgProposerPriority, hempty, hsum]
    simp
  simp only [updateWithChangeSet, hrescale, hshift]

theorem getTotalVotingPower_eq_sum (snapshot : ProposerSnapshot) :
    snapshot.getTotalVotingPower =
      ∑ j : Fin snapshot.validators.length, votingPowerAt snapshot.validators j := by
  rw [ProposerSnapshot.getTotalVotingPower, ← Fin.sum_univ_fun_getElem]
  refine Finset.sum_congr rfl fun j _ => ?_
  simp [votingPowerAt]

open Lib.RoundRobin in
theorem incrementProposerPriorityNTimes_fair (snapshot : ProposerSnapshot)
    (hne : snapshot.validators ≠ [])
    (hpos : ∀ v ∈ snapshot.validators, 0 < v.metadata.votingPower)
    (hzero : ∀ v ∈ snapshot.validators, v.proposerPriority = 0) (times : Nat) (htimes : 0 < times) :
    ∃ validators proposers,
      incrementProposerPriorityLoop snapshot.getTotalVotingPower times snapshot.validators =
        .ok (validators, proposers) ∧
      incrementProposerPriorityNTimes snapshot times =
        .ok (proposers.getLast?,
          { snapshot with validators, proposer := proposers.getLast?, round := times - 1 }) ∧
      proposers.length = times ∧
      (∀ k, (k + 1) * snapshot.getTotalVotingPower.toNat ≤ times →
        ∀ i (hi : i < snapshot.validators.length),
          (((proposers.drop (k * snapshot.getTotalVotingPower.toNat)).take
            snapshot.getTotalVotingPower.toNat).count i : ℤ) =
            snapshot.validators[i].metadata.votingPower) ∧
      (snapshot.getTotalVotingPower.toNat ∣ times → ∀ v ∈ validators, v.proposerPriority = 0) := by
  have hT0 : 0 < snapshot.getTotalVotingPower := List.sum_pos _ (fun x hx => by
    obtain ⟨v, hv, rfl⟩ := List.mem_map.mp hx
    exact hpos v hv) (by simpa using hne)
  have hw : ∀ j : Fin snapshot.validators.length, 0 ≤ votingPowerAt snapshot.validators j :=
    fun j => by
      simp only [votingPowerAt, List.getElem?_eq_getElem j.2, Option.map_some, Option.getD_some]
      exact (hpos _ (List.getElem_mem j.2)).le
  have hTn : ((snapshot.getTotalVotingPower.toNat : ℕ) : ℤ) = snapshot.getTotalVotingPower :=
    Int.toNat_of_nonneg hT0.le
  obtain ⟨validators, proposers, hloop⟩ :=
    incrementProposerPriorityLoop_isOk snapshot.getTotalVotingPower times snapshot.validators hne
  obtain ⟨hlen, -, hps, picks, hpicks, hrun⟩ :=
    incrementProposerPriorityLoop_run (n := snapshot.validators.length) _ times _ _ _ rfl hloop
  -- the call starts from zero priorities
  have hstart : (fun j : Fin snapshot.validators.length => priorityAt snapshot.validators j) = 0 :=
    funext fun j => by
      simp [priorityAt, hzero _ (List.getElem_mem j.2)]
  rw [hstart] at hrun
  have hwin := hrun.windows hw (getTotalVotingPower_eq_sum snapshot).symm hT0 hTn
  have hpicklen : picks.length = times := by rw [← hps, ← hpicks, List.length_map]
  refine ⟨validators, proposers, hloop, ?_, hps, fun k hk i hi => ?_, fun hdvd v hv => ?_⟩
  · have hempty : snapshot.validators.isEmpty = false := List.isEmpty_eq_false_iff.mpr hne
    simp only [incrementProposerPriorityNTimes, hempty, Bool.false_eq_true, ↓reduceIte,
      Nat.pos_iff_ne_zero.mp htimes, updateWithChangeSet_of_zero hne hzero hT0, hloop]
  · have hcount := (hwin k (by rw [Nat.succ_mul] at hk; omega)).2 (by omega) ⟨i, hi⟩
    rw [← hpicks, ← List.map_drop, ← List.map_take]
    have hmap := List.count_map_of_injective
      ((picks.drop (k * snapshot.getTotalVotingPower.toNat)).take snapshot.getTotalVotingPower.toNat)
      Fin.val Fin.val_injective ⟨i, hi⟩
    simp only at hmap
    rw [hmap, hcount]
    simp [votingPowerAt, List.getElem?_eq_getElem hi]
  · -- a whole number of periods brings every priority back to zero
    obtain ⟨c, hc⟩ := hdvd
    have hend := (hwin c (by rw [hpicklen, hc, Nat.mul_comm])).1
    rw [show c * snapshot.getTotalVotingPower.toNat = picks.length by rw [hpicklen, hc, Nat.mul_comm],
      List.take_length] at hend
    have hzero' := congrFun (hrun.unique hend)
    obtain ⟨j, hj, rfl⟩ := List.getElem_of_mem hv
    have := hzero' ⟨j, by omega⟩
    simpa [priorityAt, List.getElem?_eq_getElem hj] using this

theorem incrementProposerPriorityNTimes_fair_two :
    let snapshot := newProposerSnapshot 1 [⟨1, none, 2, true⟩, ⟨2, none, 1, true⟩]
    ∃ validators proposers,
      incrementProposerPriorityLoop snapshot.getTotalVotingPower 3 snapshot.validators =
        .ok (validators, proposers) ∧
      incrementProposerPriorityNTimes snapshot 3 =
        .ok (proposers.getLast?,
          { snapshot with validators, proposer := proposers.getLast?, round := 3 - 1 }) ∧
      proposers.length = 3 ∧
      (∀ k, (k + 1) * snapshot.getTotalVotingPower.toNat ≤ 3 →
        ∀ i (hi : i < snapshot.validators.length),
          (((proposers.drop (k * snapshot.getTotalVotingPower.toNat)).take
            snapshot.getTotalVotingPower.toNat).count i : ℤ) =
            snapshot.validators[i].metadata.votingPower) ∧
      (snapshot.getTotalVotingPower.toNat ∣ 3 → ∀ v ∈ validators, v.proposerPriority = 0) :=
  incrementProposerPriorityNTimes_fair _ (by decide) (by decide) (by decide) 3 (by decide)

/-- With one selection per call, as blocks decided in round 0 make them, the window exceeds
twice the total power after 56 selections; the rescaling at the start of the next call halves
every priority, and the first 241 = T selections pick the validator of power 1 twice and one of
power 100 only 99 times, leaving non-zero priorities. -/
theorem runCalls_single_selections_unfair :
    (runCalls (newProposerSnapshot 1
      [⟨1, none, 100, true⟩, ⟨2, none, 100, true⟩, ⟨3, none, 8, true⟩, ⟨4, none, 8, true⟩,
        ⟨5, none, 8, true⟩, ⟨6, none, 8, true⟩, ⟨7, none, 8, true⟩, ⟨8, none, 1, true⟩])
      (List.replicate 241 1)).toOption.map
      (fun r => (r.2.count (some 7), r.2.count (some 1),
        r.1.validators.all (·.proposerPriority == 0))) = some (2, 99, false) := by
  decide +kernel

end Blade
