import Mathlib.Data.List.Sort
import Blade.ValidatorMetadata

/-!
`consensus/polybft/stake_manager.go`: the next validator set is the `max` highest positive
stakes of the stake map, and `UpdateValidatorSet` encodes the move from the old set to it as
a `ValidatorSetDelta` (removal bitmap over old indices, added and updated validators).
-/

namespace Blade

structure ValidatorStakeMap where
  validators : List ValidatorMetadata
  distinct : (validators.map (·.address)).Nodup

def lessStake (v1 v2 : ValidatorMetadata) : Bool :=
  match compare v1.votingPower v2.votingPower with
  | .gt => true
  | .eq => decide (v1.address < v2.address)
  | .lt => false

def goInt (x : UInt64) : ℤ :=
  if x.toNat < 2 ^ 63 then x.toNat else (x.toNat : ℤ) - 2 ^ 64

namespace ValidatorStakeMap

def getSorted (sc : ValidatorStakeMap) (maxValidatorSetSize : ℤ) : Option AccountSet :=
  let activeValidators :=
    (sc.validators.filter (fun v => 0 < v.votingPower)).insertionSort (fun v1 v2 => lessStake v1 v2)
  if (activeValidators.length : ℤ) ≤ maxValidatorSetSize then some activeValidators
  else if maxValidatorSetSize < 0 then none
  else some (activeValidators.take maxValidatorSetSize.toNat)

end ValidatorStakeMap

inductive UpdateValidatorSetError where
  | slicePanic
  | blsKey (addr : Address) (err : String)
  deriving DecidableEq, Repr

def removedBitmap (addressesSet : List Address) : Nat → AccountSet → Bitmap → Bitmap
  | _, [], b => b
  | i, v :: vs, b =>
    removedBitmap addressesSet (i + 1) vs (if v.address ∈ addressesSet then b else b.set i)

def collectDelta (getBlsKey : Address → Except String BlsKey)
    (oldActiveMap : Address → Option ValidatorMetadata) :
    AccountSet → AccountSet → AccountSet → Except UpdateValidatorSetError (AccountSet × AccountSet)
  | [], updated, added => .ok (updated, added)
  | newValidator :: rest, updated, added =>
    match oldActiveMap newValidator.address with
    | some oldValidator =>
      collectDelta getBlsKey oldActiveMap rest
        (if oldValidator.votingPower ≠ newValidator.votingPower then updated ++ [newValidator]
          else updated) added
    | none =>
      match newValidator.blsKey with
      | some _ => collectDelta getBlsKey oldActiveMap rest updated (added ++ [newValidator])
      | none =>
        match getBlsKey newValidator.address with
        | .error err => .error (.blsKey newValidator.address err)
        | .ok key =>
          collectDelta getBlsKey oldActiveMap rest updated
            (added ++ [{ newValidator with blsKey := some key }])

def oldActiveMapOf (oldValidatorSet : AccountSet) : Address → Option ValidatorMetadata :=
  oldValidatorSet.foldl
    (fun (m : Address → Option ValidatorMetadata) (v : ValidatorMetadata) =>
      Function.update m v.address (some v)) fun _ => none

def updateValidatorSet (getBlsKey : Address → Except String BlsKey) (stakeMap : ValidatorStakeMap)
    (maxValidatorSetSize : UInt64) (oldValidatorSet : AccountSet) :
    Except UpdateValidatorSetError ValidatorSetDelta :=
  match stakeMap.getSorted (goInt maxValidatorSetSize) with
  | none => .error .slicePanic
  | some newValidatorSet => do
    let removed := removedBitmap newValidatorSet.getAddresses 0 oldValidatorSet ⟨[]⟩
    let (updated, added) ←
      collectDelta getBlsKey (oldActiveMapOf oldValidatorSet) newValidatorSet [] []
    pure { added := added, updated := updated, removed := removed }

def isUpdatedBy (oldActiveMap : Address → Option ValidatorMetadata) (nv : ValidatorMetadata) : Bool :=
  match oldActiveMap nv.address with
  | some oldValidator => decide (oldValidator.votingPower ≠ nv.votingPower)
  | none => false

def addressAndPower (v : ValidatorMetadata) : Address × ℤ := (v.address, v.votingPower)

namespace ValidatorStakeMap

theorem getSorted_spec (sc : ValidatorStakeMap) (k : ℤ) (N : AccountSet)
    (h : sc.getSorted k = some N) :
    (∀ v ∈ N, v ∈ sc.validators ∧ 0 < v.votingPower) ∧ N.getAddresses.Nodup := by
  let active := (sc.validators.filter (fun v => 0 < v.votingPower)).insertionSort
    (fun v1 v2 => lessStake v1 v2)
  have hperm := List.perm_insertionSort (fun v1 v2 => lessStake v1 v2)
    (sc.validators.filter (fun v => 0 < v.votingPower))
  have hsub : N.Sublist active := by
    simp only [getSorted] at h
    split_ifs at h
    · cases h; exact List.Sublist.refl _
    · cases h; exact List.take_sublist _ _
  have hnd : (active.map (·.address)).Nodup :=
    ((sc.distinct.sublist (List.filter_sublist.map _)).perm (hperm.map _).symm)
  refine ⟨fun v hv => ?_, hnd.sublist (hsub.map _)⟩
  have hmem : v ∈ sc.validators.filter (fun v => 0 < v.votingPower) :=
    hperm.subset (hsub.subset hv)
  simpa using hmem

end ValidatorStakeMap

theorem isSet_removedBitmap (addressesSet : List Address) (i : Nat) (vs : AccountSet) (b : Bitmap)
    (j : Nat) :
    (removedBitmap addressesSet i vs b).isSet j =
      (b.isSet j || (decide (i ≤ j) &&
        match vs[j - i]? with
        | some v => decide (v.address ∉ addressesSet)
        | none => false)) := by
  induction vs generalizing i b with
  | nil => simp [removedBitmap]
  | cons v vs ih =>
    rw [removedBitmap, ih]
    by_cases hj : j = i
    · subst hj
      by_cases hv : v.address ∈ addressesSet
      · simp [hv]
      · simp [hv, Bitmap.isSet_set]
    · have hstep : (b.set i).isSet j = b.isSet j := by simp [Bitmap.isSet_set, Ne.symm hj]
      by_cases hij : i + 1 ≤ j
      · have hidx : j - i = j - (i + 1) + 1 := by omega
        by_cases hv : v.address ∈ addressesSet
        · simp [hv, hij, hidx, show i ≤ j by omega]
        · simp [hv, hstep, hij, hidx, show i ≤ j by omega]
      · have hlt : ¬ i ≤ j := by omega
        by_cases hv : v.address ∈ addressesSet
        · simp [hv, hij, hlt]
        · simp [hv, hstep, hij, hlt]

theorem collectDelta_spec (getBlsKey : Address → Except String BlsKey)
    (oldActiveMap : Address → Option ValidatorMetadata) (N u₀ a₀ u a : AccountSet)
    (h : collectDelta getBlsKey oldActiveMap N u₀ a₀ = .ok (u, a)) :
    u = u₀ ++ N.filter (isUpdatedBy oldActiveMap) ∧
      a.map addressAndPower =
        a₀.map addressAndPower ++
          (N.filter (fun nv => (oldActiveMap nv.address).isNone)).map addressAndPower := by
  induction N generalizing u₀ a₀ with
  | nil =>
    simp only [collectDelta, Except.ok.injEq, Prod.mk.injEq] at h
    obtain ⟨rfl, rfl⟩ := h
    simp
  | cons nv rest ih =>
    unfold collectDelta at h
    cases hm : oldActiveMap nv.address with
    | some o =>
      rw [hm] at h
      obtain ⟨hu, ha⟩ := ih _ _ h
      refine ⟨?_, by simpa [List.filter_cons, hm] using ha⟩
      rw [hu, List.filter_cons]
      by_cases hp : o.votingPower ≠ nv.votingPower
      · simp [isUpdatedBy, hm, hp]
      · simp [isUpdatedBy, hm, hp]
    | none =>
      rw [hm] at h
      have hupd : isUpdatedBy oldActiveMap nv = false := by simp [isUpdatedBy, hm]
      cases hk : nv.blsKey with
      | some key =>
        rw [hk] at h
        obtain ⟨hu, ha⟩ := ih _ _ h
        exact ⟨by simp [hu, hupd], by simp [ha, hm]⟩
      | none =>
        rw [hk] at h
        cases hg : getBlsKey nv.address with
        | error e => rw [hg] at h; cases h
        | ok key =>
          rw [hg] at h
          obtain ⟨hu, ha⟩ := ih _ _ h
          exact ⟨by simp [hu, hupd], by simp [ha, hm, addressAndPower]⟩

theorem oldActiveMapOf_apply (old : AccountSet) (hold : old.getAddresses.Nodup) (a : Address) :
    oldActiveMapOf old a = old.find? (·.address == a) := by
  unfold oldActiveMapOf
  rw [AccountSet.foldl_update_apply (fun v => v) old _ a hold]
  cases old.find? (·.address == a) <;> rfl

theorem oldActiveMapOf_isNone (old : AccountSet) (hold : old.getAddresses.Nodup) (a : Address) :
    (oldActiveMapOf old a).isNone = decide (a ∉ old.getAddresses) := by
  rw [oldActiveMapOf_apply old hold, Bool.eq_iff_iff, Option.isNone_iff_eq_none,
    List.find?_eq_none, decide_eq_true_iff, AccountSet.mem_getAddresses]
  simp

theorem updateValidatorSet_eq_ok (getBlsKey : Address → Except String BlsKey)
    (stakeMap : ValidatorStakeMap) (maxValidatorSetSize : UInt64) (old : AccountSet)
    (delta : ValidatorSetDelta)
    (h : updateValidatorSet getBlsKey stakeMap maxValidatorSetSize old = .ok delta) :
    ∃ N, stakeMap.getSorted (goInt maxValidatorSetSize) = some N ∧
      ∃ updated added, collectDelta getBlsKey (oldActiveMapOf old) N [] [] = .ok (updated, added) ∧
        delta = { added := added, updated := updated,
                  removed := removedBitmap N.getAddresses 0 old ⟨[]⟩ } := by
  unfold updateValidatorSet at h
  cases hs : stakeMap.getSorted (goInt maxValidatorSetSize) with
  | none => rw [hs] at h; cases h
  | some N =>
    rw [hs] at h
    dsimp only at h
    cases hc : collectDelta getBlsKey (oldActiveMapOf old) N [] [] with
    | error e => rw [hc] at h; cases h
    | ok p =>
      obtain ⟨updated, added⟩ := p
      rw [hc] at h
      cases h
      exact ⟨N, rfl, updated, added, hc, rfl⟩

section UpdateDelta

variable (getBlsKey : Address → Except String BlsKey) (old N updated added : AccountSet)
  (hold : old.getAddresses.Nodup)
  (hc : collectDelta getBlsKey (oldActiveMapOf old) N [] [] = .ok (updated, added))

include hold hc in
theorem added_addressAndPower :
    added.map addressAndPower =
      (N.filter (fun nv => decide (nv.address ∉ old.getAddresses))).map addressAndPower := by
  have hspec := (collectDelta_spec getBlsKey _ N [] [] updated added hc).2
  rw [hspec, List.map_nil, List.nil_append]
  congr 1
  exact List.filter_congr fun nv _ => oldActiveMapOf_isNone old hold nv.address

include hold hc in
theorem added_getAddresses :
    added.getAddresses =
      AccountSet.getAddresses (N.filter (fun nv => decide (nv.address ∉ old.getAddresses))) := by
  have h := congrArg (List.map Prod.fst) (added_addressAndPower getBlsKey old N updated added hold hc)
  simpa [List.map_map, Function.comp_def, addressAndPower, AccountSet.getAddresses] using h

include hc in
theorem updated_eq_filter : updated = N.filter (isUpdatedBy (oldActiveMapOf old)) := by
  simpa using (collectDelta_spec getBlsKey _ N [] [] updated added hc).1

include hold hc in
theorem added_address_not_old (a : ValidatorMetadata) (ha : a ∈ added) :
    a.address ∉ old.getAddresses := by
  have hmem : a.address ∈ added.getAddresses := List.mem_map.mpr ⟨a, ha, rfl⟩
  rw [added_getAddresses getBlsKey old N updated added hold hc] at hmem
  obtain ⟨nv, hnv, he⟩ := List.mem_map.mp hmem
  have hp := (List.mem_filter.mp hnv).2
  rw [he] at hp
  simpa using hp

include hold hc in
theorem added_nodup (hN : N.getAddresses.Nodup) : added.getAddresses.Nodup := by
  rw [added_getAddresses getBlsKey old N updated added hold hc]
  exact hN.sublist ((List.filter_sublist).map _)

omit updated added hold hc in
theorem isSet_removed (j : Nat) (hj : j < old.length) :
    (removedBitmap N.getAddresses 0 old ⟨[]⟩).isSet j = decide (old[j].address ∉ N.getAddresses) := by
  rw [isSet_removedBitmap, Bitmap.isSet_empty, Nat.sub_zero, List.getElem?_eq_getElem hj]
  simp

include hold hc in
theorem keptValidators_removed :
    AccountSet.keptValidators
        { added := added, updated := updated, removed := removedBitmap N.getAddresses 0 old ⟨[]⟩ }
        0 old =
      old.filter (fun v => decide (v.address ∈ N.getAddresses)) := by
  apply AccountSet.keptValidators_eq_filter
  intro j hj
  have hfresh : AccountSet.containsAddress added old[j].address = false := by
    rw [Bool.eq_false_iff, ne_eq, AccountSet.containsAddress_iff]
    intro hmem
    obtain ⟨a, ha, hae⟩ := List.mem_map.mp hmem
    exact added_address_not_old getBlsKey old N updated added hold hc a ha
      (hae ▸ List.mem_map.mpr ⟨old[j], List.getElem_mem hj, rfl⟩)
  simp only [Nat.zero_add]
  rw [isSet_removed old N j hj, hfresh]
  simp

include hold hc in
theorem updated_address_mem_kept (u : ValidatorMetadata) (hu : u ∈ updated) :
    u.address ∈ AccountSet.getAddresses (old.filter (fun v => decide (v.address ∈ N.getAddresses))) := by
  rw [updated_eq_filter getBlsKey old N updated added hc] at hu
  obtain ⟨huN, hupd⟩ := List.mem_filter.mp hu
  unfold isUpdatedBy at hupd
  cases hm : oldActiveMapOf old u.address with
  | none => rw [hm] at hupd; cases hupd
  | some o =>
    rw [oldActiveMapOf_apply old hold] at hm
    have ho := List.mem_of_find?_eq_some hm
    have hoa : o.address = u.address := by simpa using List.find?_some hm
    refine List.mem_map.mpr ⟨o, List.mem_filter.mpr ⟨ho, ?_⟩, hoa⟩
    rw [hoa]
    exact decide_eq_true (List.mem_map.mpr ⟨u, huN, rfl⟩)

include hold hc in
theorem kept_added_nodup (hN : N.getAddresses.Nodup) :
    (AccountSet.getAddresses
      (old.filter (fun v => decide (v.address ∈ N.getAddresses)) ++ added)).Nodup := by
  have hkeptNodup : (AccountSet.getAddresses
      (old.filter (fun v => decide (v.address ∈ N.getAddresses)))).Nodup :=
    hold.sublist ((List.filter_sublist).map _)
  simp only [AccountSet.getAddresses, List.map_append]
  refine List.nodup_append.mpr ⟨hkeptNodup, added_nodup getBlsKey old N updated added hold hc hN, ?_⟩
  intro a ha b hb hab
  obtain ⟨w, hw, rfl⟩ := List.mem_map.mp hb
  exact added_address_not_old getBlsKey old N updated added hold hc w hw
    ((List.filter_sublist.map _).subset (hab ▸ ha))

include hold hc in
theorem applyDelta_updateValidatorSet (hN : N.getAddresses.Nodup) :
    old.applyDelta
        (some { added := added, updated := updated,
                removed := removedBitmap N.getAddresses 0 old ⟨[]⟩ }) =
      .ok ((old.filter (fun v => decide (v.address ∈ N.getAddresses)) ++ added).map
        (AccountSet.updatedOrSelf updated)) := by
  let kept : AccountSet := old.filter (fun v => decide (v.address ∈ N.getAddresses))
  have haddedNodup := added_nodup getBlsKey old N updated added hold hc hN
  have hdisj : ∀ a ∈ added, a.address ∉ kept.getAddresses := fun a ha hmem =>
    added_address_not_old getBlsKey old N updated added hold hc a ha
      ((List.filter_sublist.map _).subset hmem)
  have hupdNodup : updated.getAddresses.Nodup := by
    rw [updated_eq_filter getBlsKey old N updated added hc]
    exact hN.sublist ((List.filter_sublist).map _)
  unfold AccountSet.applyDelta
  dsimp only
  by_cases he : ValidatorSetDelta.isEmpty
      { added := added, updated := updated, removed := removedBitmap N.getAddresses 0 old ⟨[]⟩ }
  · -- an empty delta leaves the old set as it is: nothing was removed, added or updated
    rw [if_pos he]
    simp only [ValidatorSetDelta.isEmpty, Bool.and_eq_true, beq_iff_eq,
      List.length_eq_zero_iff] at he
    obtain ⟨⟨rfl, rfl⟩, hlen⟩ := he
    have hall : kept = old := by
      refine List.filter_eq_self.mpr fun v hv => ?_
      obtain ⟨j, hj, rfl⟩ := List.getElem_of_mem hv
      have hset := isSet_removed old N j hj
      have hfalse : (removedBitmap N.getAddresses 0 old ⟨[]⟩).isSet j = false := by
        simp [Bitmap.isSet, hlen]
      rw [hfalse] at hset
      simpa using hset
    have hid : (kept ++ []).map (AccountSet.updatedOrSelf []) = (kept ++ []).map (fun v => v) :=
      List.map_congr_left fun v _ => rfl
    change Except.ok old = Except.ok ((kept ++ []).map (AccountSet.updatedOrSelf []))
    rw [hid, List.map_id', List.append_nil, hall]
  · rw [if_neg he]
    have hkept := keptValidators_removed getBlsKey old N updated added hold hc
    rw [hkept, AccountSet.appendAdded_eq_ok kept added hdisj haddedNodup]
    refine AccountSet.overwriteUpdated_eq_ok (kept ++ added) updated
      (kept_added_nodup getBlsKey old N updated added hold hc hN) hupdNodup ?_
    intro u hu
    have hk := updated_address_mem_kept getBlsKey old N updated added hold hc u hu
    simp only [AccountSet.getAddresses, List.map_append, List.mem_append]
    exact Or.inl hk

include hold hc in
theorem result_power (w : ValidatorMetadata)
    (hw : w ∈ (old.filter (fun v => decide (v.address ∈ N.getAddresses)) ++ added).map
      (AccountSet.updatedOrSelf updated)) :
    ∃ nv ∈ N, nv.address = w.address ∧ nv.votingPower = w.votingPower := by
  obtain ⟨v, hv, rfl⟩ := List.mem_map.mp hw
  have hupdN : ∀ u ∈ updated, u ∈ N := fun u hu => by
    rw [updated_eq_filter getBlsKey old N updated added hc] at hu
    exact (List.mem_filter.mp hu).1
  unfold AccountSet.updatedOrSelf
  cases hf : updated.find? (·.address == v.address) with
  | some u => exact ⟨u, hupdN u (List.mem_of_find?_eq_some hf), rfl, rfl⟩
  | none =>
    simp only [Option.getD_none]
    rcases List.mem_append.mp hv with hk | ha
    · -- a kept validator keeps its power only when the stake map records the same power
      obtain ⟨hvo, hvN⟩ := List.mem_filter.mp hk
      obtain ⟨nv, hnv, hna⟩ := List.mem_map.mp (of_decide_eq_true hvN)
      refine ⟨nv, hnv, hna, ?_⟩
      by_contra hne
      have hmap : oldActiveMapOf old nv.address = some v := by
        rw [oldActiveMapOf_apply old hold, hna]
        exact AccountSet.find?_address_of_mem hold hvo
      have hnu : nv ∈ updated := by
        rw [updated_eq_filter getBlsKey old N updated added hc]
        refine List.mem_filter.mpr ⟨hnv, ?_⟩
        simp [isUpdatedBy, hmap, Ne.symm hne]
      have hnone := List.find?_eq_none.mp hf nv hnu
      simp [hna] at hnone
    · have hap : addressAndPower v ∈
          (N.filter (fun nv => decide (nv.address ∉ old.getAddresses))).map addressAndPower := by
        rw [← added_addressAndPower getBlsKey old N updated added hold hc]
        exact List.mem_map.mpr ⟨v, ha, rfl⟩
      obtain ⟨nv, hnv, he⟩ := List.mem_map.mp hap
      simp only [addressAndPower, Prod.mk.injEq] at he
      exact ⟨nv, (List.mem_filter.mp hnv).1, he.1, he.2⟩

include hold hc in
theorem result_mem_getAddresses (a : Address) :
    a ∈ AccountSet.getAddresses
        ((old.filter (fun v => decide (v.address ∈ N.getAddresses)) ++ added).map
          (AccountSet.updatedOrSelf updated)) ↔ a ∈ N.getAddresses := by
  rw [AccountSet.getAddresses_map_updatedOrSelf]
  simp only [AccountSet.getAddresses, List.map_append, List.mem_append]
  rw [show added.map (·.address) = added.getAddresses from rfl,
    added_getAddresses getBlsKey old N updated added hold hc]
  constructor
  · rintro (h | h)
    · obtain ⟨v, hv, rfl⟩ := List.mem_map.mp h
      exact of_decide_eq_true (List.mem_filter.mp hv).2
    · obtain ⟨v, hv, rfl⟩ := List.mem_map.mp h
      exact List.mem_map.mpr ⟨v, (List.mem_filter.mp hv).1, rfl⟩
  · intro h
    obtain ⟨nv, hnv, rfl⟩ := List.mem_map.mp h
    by_cases ho : nv.address ∈ old.getAddresses
    · obtain ⟨v, hv, hva⟩ := List.mem_map.mp ho
      exact Or.inl (List.mem_map.mpr ⟨v, List.mem_filter.mpr ⟨hv, by simpa [hva] using h⟩, hva⟩)
    · exact Or.inr (List.mem_map.mpr ⟨nv, List.mem_filter.mpr ⟨hnv, by simpa using ho⟩, rfl⟩)

end UpdateDelta

theorem updateValidatorSet_applyDelta (getBlsKey : Address → Except String BlsKey)
    (stakeMap : ValidatorStakeMap) (maxValidatorSetSize : UInt64) (old : AccountSet)
    (hold : old.getAddresses.Nodup) (delta : ValidatorSetDelta)
    (h : updateValidatorSet getBlsKey stakeMap maxValidatorSetSize old = .ok delta) :
    ∃ N, stakeMap.getSorted (goInt maxValidatorSetSize) = some N ∧
      ∃ res, old.applyDelta (some delta) = .ok res ∧
        (∀ a, a ∈ res.getAddresses ↔ a ∈ N.getAddresses) ∧
        (∀ v ∈ res, ∃ s ∈ stakeMap.validators, s.address = v.address ∧ s.votingPower = v.votingPower) ∧
        res.getAddresses.Nodup := by
  obtain ⟨N, hs, updated, added, hc, rfl⟩ :=
    updateValidatorSet_eq_ok getBlsKey stakeMap maxValidatorSetSize old delta h
  obtain ⟨hNstake, hN⟩ := ValidatorStakeMap.getSorted_spec stakeMap _ N hs
  refine ⟨N, hs, _, applyDelta_updateValidatorSet getBlsKey old N updated added hold hc hN,
    result_mem_getAddresses getBlsKey old N updated added hold hc, ?_, ?_⟩
  · intro w hw
    obtain ⟨nv, hnv, ha, hp⟩ := result_power getBlsKey old N updated added hold hc w hw
    exact ⟨nv, (hNstake nv hnv).1, ha, hp⟩
  · rw [AccountSet.getAddresses_map_updatedOrSelf]
    exact kept_added_nodup getBlsKey old N updated added hold hc hN

theorem updateValidatorSet_applyDelta_three :
    let stakeMap : ValidatorStakeMap :=
      ⟨[⟨1, some [], 5, true⟩, ⟨2, some [], 3, true⟩, ⟨3, none, 4, true⟩], by decide⟩
    let old : AccountSet := [⟨1, some [], 4, true⟩, ⟨2, some [], 3, true⟩]
    let delta : ValidatorSetDelta :=
      ⟨[⟨3, some [], 4, true⟩], [⟨1, some [], 5, true⟩], ⟨[2]⟩⟩
    (old.getAddresses.Nodup ∧ updateValidatorSet (fun _ => .ok []) stakeMap 2 old = .ok delta) ∧
      ∃ N, stakeMap.getSorted (goInt 2) = some N ∧
        ∃ res, old.applyDelta (some delta) = .ok res ∧
          (∀ a, a ∈ res.getAddresses ↔ a ∈ N.getAddresses) ∧
          (∀ v ∈ res, ∃ s ∈ stakeMap.validators,
            s.address = v.address ∧ s.votingPower = v.votingPower) ∧
          res.getAddresses.Nodup :=
  ⟨⟨by decide, by rfl⟩,
    updateValidatorSet_applyDelta (fun _ => .ok []) _ 2 _ (by decide) _ (by rfl)⟩

end Blade
