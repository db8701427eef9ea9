import Blade.ProposerCalculator

/-!
What the proposer snapshot's updates leave (`consensus/polybft/proposer_calculator.go`). With a
positive total voting power `T`, the rescaling brings the priorities within `2T` of each other
and the centring brings their sum into `[0, n)`; on such priorities both steps change nothing,
and the increments keep the sum.

That idempotence is what makes `CalcProposer` history independent: the copy it increments
shares the priority objects with the snapshot, so each call normalises the snapshot's own
priorities, but a normalised snapshot normalises to itself and every later call, and the next
`updatePerBlock`, computes what it would have computed without the call.

`updateValidators` adds validators one at a time and raises the total it reads as it goes, so
the penalty of an added validator depends on how many were added before it.
-/

namespace Blade

def prioritySum (validators : List PrioritizedValidator) : ℤ :=
  (validators.map (·.proposerPriority)).sum

/-- The priorities differ pairwise by at most `d`. -/
def PrioritySpread (validators : List PrioritizedValidator) (d : ℤ) : Prop :=
  ∀ v ∈ validators, ∀ w ∈ validators, v.proposerPriority - w.proposerPriority ≤ d

section Metadata

variable {validators validators' : List PrioritizedValidator}
  (h : validators'.map (·.metadata) = validators.map (·.metadata))
include h

theorem length_eq_of_metadata : validators'.length = validators.length := by
  simpa using congrArg List.length h

theorem ne_nil_of_metadata (hne : validators ≠ []) : validators' ≠ [] := by
  intro hnil
  rw [hnil] at h
  exact hne (List.map_eq_nil_iff.mp h.symm)

theorem votingPowerSum_eq_of_metadata :
    (validators'.map (·.metadata.votingPower)).sum = (validators.map (·.metadata.votingPower)).sum := by
  have := congrArg (fun l => (l.map (·.votingPower)).sum) h
  simpa [List.map_map, Function.comp_def] using this

theorem address_eq_of_metadata (i : Nat) :
    validators'[i]?.map (·.metadata.address) = validators[i]?.map (·.metadata.address) := by
  have := congrArg (fun l => l[i]?.map (·.address)) h
  simpa [Option.map_map, Function.comp_def] using this

end Metadata

/-! ### The spread `computeMaxMinPriorityDiff` measures -/

/-- The step of the loop of `computeMaxMinPriorityDiff`: the running minimum and maximum. -/
def minMaxStep (b : ℤ × ℤ) (x : PrioritizedValidator) : ℤ × ℤ :=
  (if x.proposerPriority < b.1 then x.proposerPriority else b.1,
    if x.proposerPriority > b.2 then x.proposerPriority else b.2)

theorem computeMaxMinPriorityDiff_cons (v : PrioritizedValidator) (rest : List PrioritizedValidator) :
    computeMaxMinPriorityDiff (v :: rest) =
      let bounds := rest.foldl minMaxStep (v.proposerPriority, v.proposerPriority)
      if bounds.2 - bounds.1 < 0 then -(bounds.2 - bounds.1) else bounds.2 - bounds.1 :=
  rfl

theorem minMaxStep_spec (b : ℤ × ℤ) (x : PrioritizedValidator) :
    (minMaxStep b x).1 ≤ b.1 ∧ b.2 ≤ (minMaxStep b x).2 ∧
      (minMaxStep b x).1 ≤ x.proposerPriority ∧ x.proposerPriority ≤ (minMaxStep b x).2 ∧
      ((minMaxStep b x).1 = b.1 ∨ (minMaxStep b x).1 = x.proposerPriority) ∧
      ((minMaxStep b x).2 = b.2 ∨ (minMaxStep b x).2 = x.proposerPriority) := by
  simp only [minMaxStep]
  split_ifs <;> omega

theorem foldl_minMaxStep (l : List PrioritizedValidator) :
    ∀ b : ℤ × ℤ, b.1 ≤ b.2 →
      let r := l.foldl minMaxStep b
      r.1 ≤ b.1 ∧ b.2 ≤ r.2 ∧ (∀ x ∈ l, r.1 ≤ x.proposerPriority ∧ x.proposerPriority ≤ r.2) ∧
        (r.1 = b.1 ∨ ∃ x ∈ l, x.proposerPriority = r.1) ∧
        (r.2 = b.2 ∨ ∃ x ∈ l, x.proposerPriority = r.2) := by
  induction l with
  | nil => intro b _; simp
  | cons x l ih =>
    intro b hb
    obtain ⟨s1, s2, s3, s4, s5, s6⟩ := minMaxStep_spec b x
    simp only [List.foldl_cons]
    generalize minMaxStep b x = c at s1 s2 s3 s4 s5 s6
    obtain ⟨hlo, hhi, hall, hlo', hhi'⟩ := ih c (by omega)
    refine ⟨by omega, by omega, ?_, ?_, ?_⟩
    · intro y hy
      rcases List.mem_cons.1 hy with rfl | hy
      · exact ⟨by omega, by omega⟩
      · exact hall y hy
    · rcases hlo' with h | ⟨y, hy, h⟩
      · rcases s5 with h' | h'
        · exact Or.inl (h.trans h')
        · exact Or.inr ⟨x, List.mem_cons_self, (h.trans h').symm⟩
      · exact Or.inr ⟨y, List.mem_cons_of_mem _ hy, h⟩
    · rcases hhi' with h | ⟨y, hy, h⟩
      · rcases s6 with h' | h'
        · exact Or.inl (h.trans h')
        · exact Or.inr ⟨x, List.mem_cons_self, (h.trans h').symm⟩
      · exact Or.inr ⟨y, List.mem_cons_of_mem _ hy, h⟩

theorem computeMaxMinPriorityDiff_spec {validators : List PrioritizedValidator}
    (hne : validators ≠ []) :
    ∃ lo hi, computeMaxMinPriorityDiff validators = hi - lo ∧
      (∀ x ∈ validators, lo ≤ x.proposerPriority ∧ x.proposerPriority ≤ hi) ∧
      (∃ x ∈ validators, x.proposerPriority = lo) ∧ ∃ x ∈ validators, x.proposerPriority = hi := by
  obtain ⟨v, rest, rfl⟩ := List.exists_cons_of_ne_nil hne
  obtain ⟨hlo, hhi, hall, hlo', hhi'⟩ :=
    foldl_minMaxStep rest (v.proposerPriority, v.proposerPriority) le_rfl
  set r := rest.foldl minMaxStep (v.proposerPriority, v.proposerPriority)
  have hnonneg : ¬ r.2 - r.1 < 0 := by
    simp only at hlo hhi
    omega
  refine ⟨r.1, r.2, by rw [computeMaxMinPriorityDiff_cons]; simp only [if_neg hnonneg, r], ?_, ?_, ?_⟩
  · intro x hx
    rcases List.mem_cons.1 hx with rfl | hx
    · simp only at hlo hhi
      omega
    · exact hall x hx
  · rcases hlo' with h | ⟨y, hy, h⟩
    · exact ⟨v, List.mem_cons_self, h.symm⟩
    · exact ⟨y, List.mem_cons_of_mem _ hy, h⟩
  · rcases hhi' with h | ⟨y, hy, h⟩
    · exact ⟨v, List.mem_cons_self, h.symm⟩
    · exact ⟨y, List.mem_cons_of_mem _ hy, h⟩

theorem prioritySpread_computeMaxMinPriorityDiff (validators : List PrioritizedValidator) :
    PrioritySpread validators (computeMaxMinPriorityDiff validators) := by
  intro v hv w hw
  obtain ⟨lo, hi, hdiff, hall, -, -⟩ := computeMaxMinPriorityDiff_spec (List.ne_nil_of_mem hv)
  have := hall v hv
  have := hall w hw
  omega

theorem computeMaxMinPriorityDiff_le {validators : List PrioritizedValidator} {d : ℤ}
    (hne : validators ≠ []) (h : PrioritySpread validators d) :
    computeMaxMinPriorityDiff validators ≤ d := by
  obtain ⟨lo, hi, hdiff, -, ⟨x, hx, rfl⟩, ⟨y, hy, rfl⟩⟩ := computeMaxMinPriorityDiff_spec hne
  rw [hdiff]
  exact h y hy x hx

/-! ### Rescaling and centring -/

theorem tdiv_sub_tdiv_le {a b r d : ℤ} (hr : 0 < r) (hba : b ≤ a) (hd : a - b ≤ d * r) :
    a.tdiv r - b.tdiv r ≤ d := by
  have ha := Int.tmod_def a r
  have hb := Int.tmod_def b r
  -- the remainders have the signs of the dividends, so `b`'s exceeds `a`'s by less than `r`
  have hrem : b.tmod r - a.tmod r < r := by
    rcases le_or_gt 0 a with h0 | h0
    · have := Int.tmod_nonneg r h0
      have := Int.tmod_lt_of_pos b hr
      omega
    · have hb0 : 0 ≤ (-b).tmod r := Int.tmod_nonneg r (by omega)
      rw [Int.neg_tmod] at hb0
      have := Int.lt_tmod_of_pos a hr
      omega
  by_contra hlt
  have h1 : (d + 1) * r ≤ (a.tdiv r - b.tdiv r) * r :=
    mul_le_mul_of_nonneg_right (by omega) hr.le
  linarith

theorem le_mul_bigIntDivCeil {diff d : ℤ} (hd : 0 < d) : diff ≤ d * bigIntDivCeil diff d := by
  have := Int.lt_ediv_add_one_mul_self (diff + d - 1) hd
  simp only [bigIntDivCeil]
  linarith

section Normalize

variable {validators validators' : List PrioritizedValidator} {tvp : ℤ}

theorem rescalePriorities_spec (hne : validators ≠ []) (hT : 0 < tvp) :
    ∃ validators', rescalePriorities validators tvp = .ok validators' ∧
      validators'.map (·.metadata) = validators.map (·.metadata) ∧
      PrioritySpread validators' (2 * tvp) ∧
      (PrioritySpread validators (2 * tvp) → validators' = validators) := by
  have hempty : validators.isEmpty = false := List.isEmpty_eq_false_iff.mpr hne
  have h2 : ¬ 2 * tvp = 0 := by omega
  by_cases hgt : computeMaxMinPriorityDiff validators > 2 * tvp
  · set r := bigIntDivCeil (computeMaxMinPriorityDiff validators) (2 * tvp)
    have hcover : computeMaxMinPriorityDiff validators ≤ 2 * tvp * r :=
      le_mul_bigIntDivCeil (by omega)
    have hr : 0 < r := by
      by_contra hr
      have : 2 * tvp * r ≤ 0 := Int.mul_nonpos_of_nonneg_of_nonpos (by omega) (by omega)
      omega
    refine ⟨validators.map fun val => { val with proposerPriority := val.proposerPriority.tdiv r },
      by simp [rescalePriorities, hempty, priorityWindowSizeFactor, h2, hgt, r], by simp [Function.comp_def],
      ?_, fun h => absurd (computeMaxMinPriorityDiff_le hne h) (by omega)⟩
    -- two rescaled priorities come from priorities at most the spread, so at most `2T * r`, apart
    intro v hv w hw
    obtain ⟨v₀, hv₀, rfl⟩ := List.mem_map.1 hv
    obtain ⟨w₀, hw₀, rfl⟩ := List.mem_map.1 hw
    have hspread := prioritySpread_computeMaxMinPriorityDiff validators v₀ hv₀ w₀ hw₀
    rcases le_or_gt w₀.proposerPriority v₀.proposerPriority with hle | hlt
    · exact tdiv_sub_tdiv_le hr hle (by linarith)
    · have := Int.tdiv_le_tdiv hr hlt.le
      dsimp only
      omega
  · refine ⟨validators, by simp [rescalePriorities, hempty, priorityWindowSizeFactor, h2, hgt], rfl,
      fun v hv w hw => ?_, fun _ => rfl⟩
    have := prioritySpread_computeMaxMinPriorityDiff validators v hv w hw
    omega

theorem prioritySum_map_sub (c : ℤ) (validators : List PrioritizedValidator) :
    prioritySum (validators.map fun val => { val with proposerPriority := val.proposerPriority - c }) =
      prioritySum validators - validators.length * c := by
  induction validators with
  | nil => simp [prioritySum]
  | cons v vs ih =>
    simp only [prioritySum, List.map_map, Function.comp_def, List.map_cons, List.sum_cons,
      List.length_cons] at ih ⊢
    rw [ih]
    push_cast
    ring

theorem shiftByAvgProposerPriority_spec (hne : validators ≠ []) :
    ∃ validators', shiftByAvgProposerPriority validators = .ok validators' ∧
      validators'.map (·.metadata) = validators.map (·.metadata) ∧
      (∀ d, PrioritySpread validators d → PrioritySpread validators' d) ∧
      0 ≤ prioritySum validators' ∧ prioritySum validators' < validators.length ∧
      (0 ≤ prioritySum validators → prioritySum validators < validators.length →
        validators' = validators) := by
  have hempty : validators.isEmpty = false := List.isEmpty_eq_false_iff.mpr hne
  have hn : (0 : ℤ) < validators.length := by
    have := List.length_pos_of_ne_nil hne
    omega
  set avg := prioritySum validators / validators.length
  have havg : computeAvgProposerPriority validators = .ok avg := by
    simp [computeAvgProposerPriority, hempty, avg, prioritySum]
  have hsum : prioritySum validators - validators.length * avg =
      prioritySum validators % validators.length := by
    rw [Int.emod_def]
  refine ⟨validators.map fun val => { val with proposerPriority := val.proposerPriority - avg },
    by simp only [shiftByAvgProposerPriority, havg], by simp [Function.comp_def], ?_, ?_, ?_, ?_⟩
  · intro d h v hv w hw
    obtain ⟨v₀, hv₀, rfl⟩ := List.mem_map.1 hv
    obtain ⟨w₀, hw₀, rfl⟩ := List.mem_map.1 hw
    have := h v₀ hv₀ w₀ hw₀
    dsimp only
    omega
  · rw [prioritySum_map_sub, hsum]
    exact Int.emod_nonneg _ (by omega)
  · rw [prioritySum_map_sub, hsum]
    exact Int.emod_lt_of_pos _ hn
  · intro h0 hlt
    have hzero : avg = 0 := Int.ediv_eq_zero_of_lt h0 hlt
    rw [hzero]
    simp

theorem updateWithChangeSet_spec (hne : validators ≠ []) (hT : 0 < tvp) :
    ∃ validators', updateWithChangeSet validators tvp = .ok validators' ∧
      validators'.map (·.metadata) = validators.map (·.metadata) ∧
      PrioritySpread validators' (2 * tvp) ∧
      0 ≤ prioritySum validators' ∧ prioritySum validators' < validators.length ∧
      (PrioritySpread validators (2 * tvp) → 0 ≤ prioritySum validators →
        prioritySum validators < validators.length → validators' = validators) := by
  obtain ⟨mid, hmid, hmeta, hspread, hkeep⟩ := rescalePriorities_spec hne hT
  obtain ⟨out, hout, hmeta', hspread', hlo, hhi, hkeep'⟩ :=
    shiftByAvgProposerPriority_spec (ne_nil_of_metadata hmeta hne)
  have hlen := length_eq_of_metadata hmeta
  refine ⟨out, by simp only [updateWithChangeSet, hmid, hout], hmeta'.trans hmeta,
    hspread' _ hspread, hlo, hlen ▸ hhi, fun hs h0 hlt => ?_⟩
  obtain rfl := hkeep hs
  exact hkeep' h0 hlt

theorem updateWithChangeSet_idem (hT : 0 < tvp)
    (h : updateWithChangeSet validators tvp = .ok validators') :
    updateWithChangeSet validators' tvp = .ok validators' := by
  have hne : validators ≠ [] := by
    rintro rfl
    simp [updateWithChangeSet, rescalePriorities] at h
  obtain ⟨out, hout, hmeta, hspread, hlo, hhi, -⟩ := updateWithChangeSet_spec hne hT
  rw [h, Except.ok.injEq] at hout
  subst hout
  obtain ⟨out', hout', -, -, -, -, hkeep⟩ := updateWithChangeSet_spec (ne_nil_of_metadata hmeta hne) hT
  rw [hout', hkeep hspread hlo (length_eq_of_metadata hmeta ▸ hhi)]

end Normalize

/-! ### The increments -/

section Increments

variable {validators validators' : List PrioritizedValidator} {tvp : ℤ}

theorem metadata_incrementProposerPriority {i : Nat}
    (h : incrementProposerPriority validators tvp = .ok (validators', i)) :
    validators'.map (·.metadata) = validators.map (·.metadata) := by
  unfold incrementProposerPriority at h
  dsimp only at h
  split at h
  · cases h
  · rename_i k x hg
    simp only [Except.ok.injEq, Prod.mk.injEq] at h
    obtain ⟨rfl, rfl⟩ := h
    obtain ⟨hget, -, -⟩ := getValWithMostPriority_eq_ok hg
    obtain ⟨hk, hx⟩ := List.getElem?_eq_some_iff.mp hget
    simp only [List.length_map] at hk
    -- the chosen validator brings back the metadata already at its position
    have hk' : k < (validators.map (·.metadata)).length := by simpa using hk
    have hxk : x.metadata = (validators.map (·.metadata))[k] := by
      rw [← hx]
      simp
    rw [List.map_set, List.map_map]
    have hmd : ((·.metadata) ∘ fun (val : PrioritizedValidator) =>
        { val with proposerPriority := val.proposerPriority + val.metadata.votingPower }) =
        (·.metadata) := rfl
    rw [hmd]
    simp only [hxk]
    exact List.set_getElem_self _

theorem metadata_incrementProposerPriorityLoop :
    ∀ (times : Nat) (validators validators' : List PrioritizedValidator) (proposers : List Nat),
      incrementProposerPriorityLoop tvp times validators = .ok (validators', proposers) →
      validators'.map (·.metadata) = validators.map (·.metadata)
  | 0, validators, validators', proposers, h => by
    simp only [incrementProposerPriorityLoop, Except.ok.injEq, Prod.mk.injEq] at h
    rw [h.1]
  | times + 1, validators, validators', proposers, h => by
    unfold incrementProposerPriorityLoop at h
    split at h
    · cases h
    · rename_i mid i hinc
      split at h
      · cases h
      · rename_i rest ps hloop
        simp only [Except.ok.injEq, Prod.mk.injEq] at h
        obtain ⟨rfl, rfl⟩ := h
        rw [metadata_incrementProposerPriorityLoop times mid _ _ hloop,
          metadata_incrementProposerPriority hinc]

theorem prioritySum_eq_sum {n : Nat} (h : validators.length = n) :
    prioritySum validators = ∑ j : Fin n, priorityAt validators j := by
  subst h
  rw [prioritySum, ← Fin.sum_univ_fun_getElem]
  refine Finset.sum_congr rfl fun j _ => ?_
  simp [priorityAt]

theorem votingPowerSum_eq_sum {n : Nat} (h : validators.length = n) :
    (validators.map (·.metadata.votingPower)).sum = ∑ j : Fin n, votingPowerAt validators j := by
  subst h
  rw [← Fin.sum_univ_fun_getElem]
  refine Finset.sum_congr rfl fun j _ => ?_
  simp [votingPowerAt]

open Lib.RoundRobin in
theorem prioritySum_incrementProposerPriority {i : Nat}
    (h : incrementProposerPriority validators (validators.map (·.metadata.votingPower)).sum =
      .ok (validators', i)) :
    prioritySum validators' = prioritySum validators := by
  obtain ⟨hi, hlen, -, hmax, hprio⟩ := incrementProposerPriority_eq_ok h
  have hstep : IsStep (fun j : Fin validators.length => votingPowerAt validators j)
      (validators.map (·.metadata.votingPower)).sum (fun j => priorityAt validators j) ⟨i, hi⟩
      (fun j => priorityAt validators' j) :=
    ⟨fun j => hmax j j.2, fun j => by dsimp only; rw [hprio j]; simp only [Fin.ext_iff]⟩
  rw [prioritySum_eq_sum hlen, prioritySum_eq_sum rfl, hstep.sum, votingPowerSum_eq_sum rfl,
    add_sub_cancel_right]

open Lib.RoundRobin in
theorem prioritySum_incrementProposerPriorityLoop {times : Nat} {proposers : List Nat}
    (h : incrementProposerPriorityLoop (validators.map (·.metadata.votingPower)).sum times
      validators = .ok (validators', proposers)) :
    prioritySum validators' = prioritySum validators := by
  obtain ⟨hlen, -, -, picks, -, hrun⟩ :=
    incrementProposerPriorityLoop_run (n := validators.length) _ times _ _ _ rfl h
  rw [prioritySum_eq_sum hlen, prioritySum_eq_sum rfl,
    hrun.sum_eq (votingPowerSum_eq_sum rfl).symm]

end Increments

/-! ### One call -/

theorem getTotalVotingPower_eq_of_metadata {s s' : ProposerSnapshot}
    (h : s'.validators.map (·.metadata) = s.validators.map (·.metadata)) :
    s'.getTotalVotingPower = s.getTotalVotingPower :=
  votingPowerSum_eq_of_metadata h

theorem incrementProposerPriorityNTimes_eq_ok {snapshot snapshot' : ProposerSnapshot}
    {times : Nat} {proposer : Option Nat}
    (h : incrementProposerPriorityNTimes snapshot times = .ok (proposer, snapshot')) :
    times ≠ 0 ∧ ∃ validators validators' proposers,
      updateWithChangeSet snapshot.validators snapshot.getTotalVotingPower = .ok validators ∧
      incrementProposerPriorityLoop snapshot.getTotalVotingPower times validators =
        .ok (validators', proposers) ∧
      proposer = proposers.getLast? ∧
      snapshot' =
        { snapshot with validators := validators', proposer := proposers.getLast?, round := times - 1 } := by
  unfold incrementProposerPriorityNTimes at h
  split at h
  · cases h
  · split at h
    · cases h
    · rename_i htimes
      dsimp only at h
      split at h
      · cases h
      · rename_i validators hupd
        split at h
        · cases h
        · rename_i validators' proposers hloop
          simp only [Except.ok.injEq, Prod.mk.injEq] at h
          exact ⟨htimes, validators, validators', proposers, hupd, hloop, h.1.symm, h.2.symm⟩

theorem incrementProposerPriorityNTimes_congr {s s' : ProposerSnapshot} (hh : s'.height = s.height)
    (hmeta : s'.validators.map (·.metadata) = s.validators.map (·.metadata))
    (hupd : updateWithChangeSet s'.validators s.getTotalVotingPower =
      updateWithChangeSet s.validators s.getTotalVotingPower) (times : Nat) :
    incrementProposerPriorityNTimes s' times = incrementProposerPriorityNTimes s times := by
  have hT := getTotalVotingPower_eq_of_metadata hmeta
  have hempty : s'.validators.isEmpty = s.validators.isEmpty := by
    have := congrArg List.length hmeta
    simp only [List.length_map] at this
    rw [Bool.eq_iff_iff, List.isEmpty_iff_length_eq_zero, List.isEmpty_iff_length_eq_zero, this]
  obtain ⟨h₁, r₁, p₁, v₁⟩ := s
  obtain ⟨h₂, r₂, p₂, v₂⟩ := s'
  dsimp only at hh hT hempty hupd ⊢
  subst hh
  simp only [incrementProposerPriorityNTimes, hT, hempty, hupd]

/-! ### Bounds on the priorities -/

section Frame

variable {validators validators' : List PrioritizedValidator} {tvp : ℤ}

/-- A zero total is a division by zero in `BigIntDivCeil`. -/
theorem updateWithChangeSet_ne_zero (h : updateWithChangeSet validators tvp = .ok validators') :
    tvp ≠ 0 := by
  rintro rfl
  unfold updateWithChangeSet rescalePriorities at h
  simp only [priorityWindowSizeFactor, mul_zero, if_true] at h
  by_cases hv : validators.isEmpty = true <;> simp [hv] at h

theorem metadata_updateWithChangeSet (h : updateWithChangeSet validators tvp = .ok validators') :
    validators'.map (·.metadata) = validators.map (·.metadata) := by
  unfold updateWithChangeSet at h
  split at h
  · cases h
  · rename_i mid hmid
    split at h
    · cases h
    · rename_i out hout
      cases h
      have hmid' : mid.map (·.metadata) = validators.map (·.metadata) := by
        unfold rescalePriorities at hmid
        dsimp only at hmid
        split_ifs at hmid <;> cases hmid
        · simp [Function.comp_def]
        · rfl
      rw [← hmid']
      unfold shiftByAvgProposerPriority at hout
      split at hout <;> cases hout
      simp [Function.comp_def]

end Frame

/-- With a positive total voting power `T`, `updateWithChangeSet` leaves priorities within `2T`
of each other and summing to a number in `[0, n)`; an increment by the total voting power keeps
the sum, so every call of `incrementProposerPriorityNTimes` ends with the sum in `[0, n)`. -/
theorem proposerPriorities_bounded (snapshot : ProposerSnapshot) (hne : snapshot.validators ≠ [])
    (hT : 0 < snapshot.getTotalVotingPower) :
    (∃ validators, updateWithChangeSet snapshot.validators snapshot.getTotalVotingPower =
        .ok validators ∧ PrioritySpread validators (2 * snapshot.getTotalVotingPower) ∧
        0 ≤ prioritySum validators ∧ prioritySum validators < snapshot.validators.length) ∧
      (∀ (validators validators' : List PrioritizedValidator) (i : Nat),
        incrementProposerPriority validators (validators.map (·.metadata.votingPower)).sum =
          .ok (validators', i) → prioritySum validators' = prioritySum validators) ∧
      ∀ times, 0 < times → ∃ proposer snapshot',
        incrementProposerPriorityNTimes snapshot times = .ok (proposer, snapshot') ∧
        0 ≤ prioritySum snapshot'.validators ∧
        prioritySum snapshot'.validators < snapshot'.validators.length := by
  obtain ⟨validators, hupd, hmeta, hspread, hlo, hhi, -⟩ := updateWithChangeSet_spec hne hT
  refine ⟨⟨validators, hupd, hspread, hlo, hhi⟩,
    fun _ _ _ h => prioritySum_incrementProposerPriority h, fun times htimes => ?_⟩
  -- the loop runs on the normalised priorities, by their own total, and keeps their sum
  obtain ⟨validators', proposers, hloop⟩ := incrementProposerPriorityLoop_isOk
    snapshot.getTotalVotingPower times validators (ne_nil_of_metadata hmeta hne)
  have hT' : snapshot.getTotalVotingPower = (validators.map (·.metadata.votingPower)).sum :=
    (votingPowerSum_eq_of_metadata hmeta).symm
  have hsum := prioritySum_incrementProposerPriorityLoop (hT' ▸ hloop)
  have hlen := (length_eq_of_metadata (metadata_incrementProposerPriorityLoop times _ _ _ hloop)).trans
    (length_eq_of_metadata hmeta)
  have hempty : snapshot.validators.isEmpty = false := List.isEmpty_eq_false_iff.mpr hne
  refine ⟨proposers.getLast?,
    { snapshot with validators := validators', proposer := proposers.getLast?, round := times - 1 },
    ?_, by simpa [hsum] using hlo, by simpa [hsum, hlen] using hhi⟩
  simp only [incrementProposerPriorityNTimes, hempty, Nat.pos_iff_ne_zero.mp htimes, hupd, hloop]
  rfl

/-- Priorities 150 apart over a total of 3 are divided by 25 and centred. -/
theorem proposerPriorities_bounded_rescaled :
    let snapshot : ProposerSnapshot :=
      ⟨1, 0, none, [⟨⟨1, none, 1, true⟩, 100⟩, ⟨⟨2, none, 2, true⟩, -50⟩]⟩
    updateWithChangeSet snapshot.validators snapshot.getTotalVotingPower =
        .ok [⟨⟨1, none, 1, true⟩, 3⟩, ⟨⟨2, none, 2, true⟩, -3⟩] ∧
      ((∃ validators, updateWithChangeSet snapshot.validators snapshot.getTotalVotingPower =
          .ok validators ∧ PrioritySpread validators (2 * snapshot.getTotalVotingPower) ∧
          0 ≤ prioritySum validators ∧ prioritySum validators < snapshot.validators.length) ∧
        (∀ (validators validators' : List PrioritizedValidator) (i : Nat),
          incrementProposerPriority validators (validators.map (·.metadata.votingPower)).sum =
            .ok (validators', i) → prioritySum validators' = prioritySum validators) ∧
        ∀ times, 0 < times → ∃ proposer snapshot',
          incrementProposerPriorityNTimes snapshot times = .ok (proposer, snapshot') ∧
          0 ≤ prioritySum snapshot'.validators ∧
          prioritySum snapshot'.validators < snapshot'.validators.length) :=
  ⟨rfl, proposerPriorities_bounded _ (by simp) (by decide)⟩

/-! ### `CalcProposer` changes no later answer -/

/-- The proposer of a round computed on an independent deep copy of the snapshot. -/
def ProposerSnapshot.freshProposer (s : ProposerSnapshot) (round : Nat) : Option Address :=
  (incrementProposerPriorityNTimes s (round + 1)).toOption.bind (·.2.proposerAddress)

/-- The proposer a snapshot has cached is the one its round gives. -/
def ProposerSnapshot.CacheValid (s : ProposerSnapshot) : Prop :=
  ∀ i, s.proposer = some i →
    ∃ copy, incrementProposerPriorityNTimes s (s.round + 1) = .ok (some i, copy)

theorem cacheValid_of_proposer_none {s : ProposerSnapshot} (h : s.proposer = none) :
    s.CacheValid := by
  intro i hi
  rw [h] at hi
  cases hi

theorem cacheValid_updatePerBlock {s s' : ProposerSnapshot} {blockNumber blockRound : Nat}
    {newValidatorSet : AccountSet}
    (h : updatePerBlock s blockNumber blockRound newValidatorSet = .ok s') : s'.CacheValid := by
  apply cacheValid_of_proposer_none
  unfold updatePerBlock at h
  split at h
  · cases h
  · split at h
    · cases h
    · split at h
      · cases h
      · cases h
        rfl

theorem proposerAddress_of_incrementProposerPriorityNTimes {s copy : ProposerSnapshot}
    {times : Nat} {proposer : Option Nat}
    (h : incrementProposerPriorityNTimes s times = .ok (proposer, copy)) :
    copy.proposerAddress = proposer.bind fun i => s.validators[i]?.map (·.metadata.address) := by
  obtain ⟨-, validators, validators', proposers, hupd, hloop, rfl, rfl⟩ :=
    incrementProposerPriorityNTimes_eq_ok h
  have hmeta := (metadata_incrementProposerPriorityLoop _ _ _ _ hloop).trans
    (metadata_updateWithChangeSet hupd)
  cases proposers.getLast? with
  | none => rfl
  | some i => exact address_eq_of_metadata hmeta i

section Calc

variable {s : ProposerSnapshot} (hT : 0 ≤ s.getTotalVotingPower)
include hT

theorem calcFresh_spec (round : Nat) :
    (ProposerSnapshot.calcProposer.calcFresh s round).toOption.map Prod.fst =
        s.freshProposer round ∧
      ∀ addr s', ProposerSnapshot.calcProposer.calcFresh s round = .ok (addr, s') →
        s'.height = s.height ∧ s'.validators.map (·.metadata) = s.validators.map (·.metadata) ∧
        (∀ times, incrementProposerPriorityNTimes s' times =
          incrementProposerPriorityNTimes s times) ∧ s'.CacheValid := by
  unfold ProposerSnapshot.calcProposer.calcFresh ProposerSnapshot.freshProposer
  split
  · rename_i e hN
    simp [hN, Except.toOption]
  · rename_i proposer copy hN
    split
    · rename_i hnone
      simp [hN, hnone, Except.toOption]
    · rename_i addr haddr
      obtain ⟨-, validators, validators', proposers, hupd, -, -, -⟩ :=
        incrementProposerPriorityNTimes_eq_ok hN
      have hpos : 0 < s.getTotalVotingPower :=
        lt_of_le_of_ne hT (updateWithChangeSet_ne_zero hupd).symm
      refine ⟨by simp [hN, haddr, Except.toOption], ?_⟩
      rintro a s' h
      simp only [hupd, Except.ok.injEq, Prod.mk.injEq] at h
      obtain ⟨rfl, rfl⟩ := h
      -- the snapshot now holds the normalised priorities, which normalise to themselves
      have hmeta := metadata_updateWithChangeSet hupd
      have hN' := @incrementProposerPriorityNTimes_congr s { s with validators, proposer, round }
        rfl hmeta ((updateWithChangeSet_idem hpos hupd).trans hupd.symm)
      refine ⟨rfl, hmeta, hN', fun i hi => ⟨copy, ?_⟩⟩
      simp only at hi ⊢
      rw [hN', hN, hi]

theorem calcProposer_spec (hc : s.CacheValid) (round height : Nat) :
    (s.calcProposer round height).toOption.map Prod.fst =
        (if height = s.height then s.freshProposer round else none) ∧
      ∀ addr s', s.calcProposer round height = .ok (addr, s') →
        s'.height = s.height ∧ s'.validators.map (·.metadata) = s.validators.map (·.metadata) ∧
        (∀ times, incrementProposerPriorityNTimes s' times =
          incrementProposerPriorityNTimes s times) ∧ s'.CacheValid := by
  obtain ⟨hfresh, hok⟩ := calcFresh_spec hT round
  unfold ProposerSnapshot.calcProposer
  by_cases hh : height = s.height
  · simp only [hh, ne_eq, not_true_eq_false, if_false, if_true]
    split
    · rename_i addr haddr
      split
      · rename_i hr
        -- the cached proposer is the one the deep copy computes
        refine ⟨?_, ?_⟩
        · obtain ⟨i, hi, hget⟩ : ∃ i, s.proposer = some i ∧
              s.validators[i]?.map (·.metadata.address) = some addr := by
            simpa [ProposerSnapshot.proposerAddress, Option.bind_eq_some_iff] using haddr
          obtain ⟨copy, hN⟩ := hc i hi
          rw [← hr]
          simp [ProposerSnapshot.freshProposer, hN, Except.toOption,
            proposerAddress_of_incrementProposerPriorityNTimes hN, hget]
        · rintro a s' h
          cases h
          exact ⟨rfl, rfl, fun _ => rfl, hc⟩
      · exact ⟨hfresh, hok⟩
    · exact ⟨hfresh, hok⟩
  · refine ⟨by simp [hh, Except.toOption], fun _ _ h => ?_⟩
    simp [hh] at h

end Calc

theorem calcProposers_spec (height : Nat) : ∀ (rounds : List Nat) (s : ProposerSnapshot),
    0 ≤ s.getTotalVotingPower → s.CacheValid →
    (s.calcProposers height rounds).2.map Except.toOption =
        rounds.map (fun round => if height = s.height then s.freshProposer round else none) ∧
      (s.calcProposers height rounds).1.height = s.height ∧
      ∀ times, incrementProposerPriorityNTimes (s.calcProposers height rounds).1 times =
        incrementProposerPriorityNTimes s times
  | [], s, _, _ => ⟨rfl, rfl, fun _ => rfl⟩
  | round :: rounds, s, hT, hc => by
    obtain ⟨hres, hok⟩ := calcProposer_spec hT hc round height
    unfold ProposerSnapshot.calcProposers
    split
    · rename_i e he
      obtain ⟨ih₁, ih₂, ih₃⟩ := calcProposers_spec height rounds s hT hc
      rw [he] at hres
      refine ⟨?_, ih₂, ih₃⟩
      simp only [List.map_cons, ih₁, List.cons.injEq, and_true]
      exact hres
    · rename_i addr s' hs'
      obtain ⟨hh, hmeta, hN, hc'⟩ := hok addr s' hs'
      have hT' : 0 ≤ s'.getTotalVotingPower := getTotalVotingPower_eq_of_metadata hmeta ▸ hT
      obtain ⟨ih₁, ih₂, ih₃⟩ := calcProposers_spec height rounds s' hT' hc'
      -- the next calls see a snapshot that increments as this one does
      have hfresh : s'.freshProposer = s.freshProposer :=
        funext fun r => by simp only [ProposerSnapshot.freshProposer, hN]
      rw [hs'] at hres
      refine ⟨?_, ih₂.trans hh, fun times => (ih₃ times).trans (hN times)⟩
      simp only [List.map_cons, ih₁, hh, hfresh, List.cons.injEq, and_true]
      exact hres

theorem updatePerBlock_congr {s s' : ProposerSnapshot} (hh : s'.height = s.height)
    (hN : ∀ times, incrementProposerPriorityNTimes s' times = incrementProposerPriorityNTimes s times)
    (blockNumber blockRound : Nat) (newValidatorSet : AccountSet) :
    updatePerBlock s' blockNumber blockRound newValidatorSet =
      updatePerBlock s blockNumber blockRound newValidatorSet := by
  simp only [updatePerBlock, hh, hN]

/-- `CalcProposer` is history independent: every call at a height answers what the increments
on an independent deep copy of the snapshot give, and the calls leave `updatePerBlock` as it
was, although they normalise the snapshot's priorities in place. -/
theorem calcProposer_history_independent (s : ProposerSnapshot) (hT : 0 ≤ s.getTotalVotingPower)
    (hc : s.CacheValid) (height : Nat) (rounds : List Nat) :
    (s.calcProposers height rounds).2.map Except.toOption =
        rounds.map (fun round => if height = s.height then s.freshProposer round else none) ∧
      ∀ blockNumber blockRound newValidatorSet,
        updatePerBlock (s.calcProposers height rounds).1 blockNumber blockRound newValidatorSet =
          updatePerBlock s blockNumber blockRound newValidatorSet := by
  obtain ⟨hres, hh, hN⟩ := calcProposers_spec height rounds s hT hc
  exact ⟨hres, updatePerBlock_congr hh hN⟩

/-- Three calls on a snapshot whose priorities the first call rescales in place: the snapshot
changes, the answers and the next `updatePerBlock` do not. -/
theorem calcProposer_history_independent_rescaled :
    let s : ProposerSnapshot := ⟨1, 0, none, [⟨⟨1, none, 1, true⟩, 100⟩, ⟨⟨2, none, 2, true⟩, -50⟩]⟩
    (s.calcProposers 1 [0, 0, 1]).1.validators ≠ s.validators ∧
      0 ≤ s.getTotalVotingPower ∧ s.CacheValid ∧
      ((s.calcProposers 1 [0, 0, 1]).2.map Except.toOption =
          [0, 0, 1].map (fun round => if 1 = s.height then s.freshProposer round else none) ∧
        ∀ blockNumber blockRound newValidatorSet,
          updatePerBlock (s.calcProposers 1 [0, 0, 1]).1 blockNumber blockRound newValidatorSet =
            updatePerBlock s blockNumber blockRound newValidatorSet) :=
  ⟨by decide, by decide, cacheValid_of_proposer_none rfl,
    calcProposer_history_independent _ (by decide) (cacheValid_of_proposer_none rfl) 1 [0, 0, 1]⟩

/-! ### Validators added by `updateValidators` -/

/-- The total the loop of `updateValidators` reads after `k` added validators: each added one
raises it by an eighth. -/
def addedTotal (tvp : ℤ) : ℕ → ℤ
  | 0 => tvp
  | k + 1 => addedTotal tvp k + addedTotal tvp k / 8

def isAdded (snapshotValidators : List PrioritizedValidator) (v : ValidatorMetadata) : Bool :=
  (lookupValidator snapshotValidators v.address).isNone

/-- The priority the loop gives the validator at position `j` of the new set, `k` validators
having been added before the set starts. -/
def priorityBeforeUpdate (snapshotValidators : List PrioritizedValidator) (P : ℤ) (k : ℕ)
    (newValidatorSet : AccountSet) (j : ℕ) (v : ValidatorMetadata) : ℤ :=
  match lookupValidator snapshotValidators v.address with
  | some val => val.proposerPriority
  | none => -addedTotal P (k + (newValidatorSet.take j).countP (isAdded snapshotValidators) + 1)

theorem getElem?_prioritizeValidators (snapshotValidators : List PrioritizedValidator) (P : ℤ) :
    ∀ (newValidatorSet : AccountSet) (k j : ℕ),
      (prioritizeValidators snapshotValidators (addedTotal P k) newValidatorSet)[j]? =
        newValidatorSet[j]?.map fun v =>
          ⟨v, priorityBeforeUpdate snapshotValidators P k newValidatorSet j v⟩
  | [], _, _ => rfl
  | v :: rest, k, j => by
    rcases hval : lookupValidator snapshotValidators v.address with _ | val
    · -- an added validator gets the raised total, which the next ones read
      have hadded : isAdded snapshotValidators v = true := by simp [isAdded, hval]
      cases j with
      | zero => simp [prioritizeValidators, hval, priorityBeforeUpdate, addedTotal]
      | succ j =>
        simp only [prioritizeValidators, hval, List.getElem?_cons_succ]
        rw [show addedTotal P k + addedTotal P k / 8 = addedTotal P (k + 1) from rfl,
          getElem?_prioritizeValidators snapshotValidators P rest (k + 1) j]
        have hcount : ∀ c, k + 1 + c + 1 = k + (c + 1) + 1 := fun c => by omega
        simp only [priorityBeforeUpdate, List.take_succ_cons, List.countP_cons, hadded, if_true,
          hcount]
    · -- a validator of the snapshot keeps its priority and the total stays
      have hadded : isAdded snapshotValidators v = false := by simp [isAdded, hval]
      cases j with
      | zero => simp [prioritizeValidators, hval, priorityBeforeUpdate]
      | succ j =>
        simp only [prioritizeValidators, hval, List.getElem?_cons_succ]
        rw [getElem?_prioritizeValidators snapshotValidators P rest k j]
        simp [priorityBeforeUpdate, List.take_succ_cons, hadded]

/-- `updateValidators` gives the `k`-th validator it adds `-(P_k + P_k / 8)`, where `P_0` is the
total voting power of the new set and the removed validators and `P_(k+1) = P_k + P_k / 8`,
then rescales and centres what its loop built. -/
theorem updateValidators_penalizes_by_position (snapshot : ProposerSnapshot)
    (newValidatorSet : AccountSet) :
    let P := newValidatorSet.getTotalVotingPower +
      removedVotingPower snapshot.validators newValidatorSet
    let before := prioritizeValidators snapshot.validators P newValidatorSet
    (∀ j, before[j]? = newValidatorSet[j]?.map fun v =>
        PrioritizedValidator.mk v (match lookupValidator snapshot.validators v.address with
          | some val => val.proposerPriority
          | none => -addedTotal P ((newValidatorSet.take j).countP (isAdded snapshot.validators) + 1))) ∧
      ∀ snapshot', newValidatorSet ≠ [] → updateValidators snapshot newValidatorSet = .ok snapshot' →
        updateWithChangeSet before (before.map (·.metadata.votingPower)).sum =
          .ok snapshot'.validators := by
  intro P before
  refine ⟨fun j => ?_, fun snapshot' hne h => ?_⟩
  · have := getElem?_prioritizeValidators snapshot.validators P newValidatorSet 0 j
    simpa [priorityBeforeUpdate, addedTotal] using this
  · have hlen : newValidatorSet.length ≠ 0 := by simpa using hne
    unfold updateValidators at h
    simp only [hlen, if_false] at h
    split at h
    · cases h
    · rename_i validators hupd
      cases h
      exact hupd

/-- Two validators added after one kept: the second added gets a larger penalty than the first,
and which of the two gets it depends on the order of the new set. -/
theorem updateValidators_penalizes_by_position_pair :
    let a : ValidatorMetadata := ⟨1, none, 8, true⟩
    let b : ValidatorMetadata := ⟨2, none, 8, true⟩
    let c : ValidatorMetadata := ⟨3, none, 8, true⟩
    let snapshot : ProposerSnapshot := ⟨1, 0, none, [⟨a, 0⟩]⟩
    prioritizeValidators snapshot.validators 24 [a, b, c] = [⟨a, 0⟩, ⟨b, -27⟩, ⟨c, -30⟩] ∧
      (updateValidators snapshot [a, b, c]).map (·.validators) =
        .ok [⟨a, 19⟩, ⟨b, -8⟩, ⟨c, -11⟩] ∧
      (updateValidators snapshot [a, c, b]).map (·.validators) =
        .ok [⟨a, 19⟩, ⟨c, -8⟩, ⟨b, -11⟩] ∧
      let P := AccountSet.getTotalVotingPower [a, b, c] +
        removedVotingPower snapshot.validators [a, b, c]
      let before := prioritizeValidators snapshot.validators P [a, b, c]
      (∀ j, before[j]? = [a, b, c][j]?.map fun v =>
          PrioritizedValidator.mk v (match lookupValidator snapshot.validators v.address with
            | some val => val.proposerPriority
            | none => -addedTotal P (([a, b, c].take j).countP (isAdded snapshot.validators) + 1))) ∧
        ∀ snapshot', [a, b, c] ≠ [] → updateValidators snapshot [a, b, c] = .ok snapshot' →
          updateWithChangeSet before (before.map (·.metadata.votingPower)).sum =
            .ok snapshot'.validators :=
  ⟨rfl, rfl, rfl, updateValidators_penalizes_by_position _ _⟩

end Blade
