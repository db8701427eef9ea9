import Blade.Bitmap
import Blade.Lib.Word

/-!
Validator identities and account sets (`consensus/polybft/validator/validator_metadata.go`,
`validator_set_delta.go`). An account set is an ordered list of validators; a delta removes
validators by their index in the old list, appends added ones and overwrites updated ones
by address.
-/

namespace Blade

abbrev Address := Fin (2 ^ 160)

abbrev BlsKey := List UInt8

structure ValidatorMetadata where
  address : Address
  blsKey : Option BlsKey
  votingPower : ℤ
  isActive : Bool
  deriving DecidableEq, Repr

abbrev AccountSet := List ValidatorMetadata

namespace AccountSet

def getAddresses (as : AccountSet) : List Address := as.map (·.address)

def getTotalVotingPower (as : AccountSet) : ℤ := (as.map (·.votingPower)).sum

def index (as : AccountSet) (addr : Address) : ℤ :=
  match as.findIdx? (·.address == addr) with
  | some i => i
  | none => -1

def containsAddress (as : AccountSet) (addr : Address) : Bool := index as addr != -1

def getValidatorMetadata (as : AccountSet) (addr : Address) : Option ValidatorMetadata :=
  as.find? (·.address == addr)

def filterByBitmap (bitmap : Bitmap) : Nat → AccountSet → AccountSet
  | _, [] => []
  | i, v :: vs => if bitmap.isSet i then v :: filterByBitmap bitmap (i + 1) vs
      else filterByBitmap bitmap (i + 1) vs

def getFilteredValidators (as : AccountSet) (bitmap : Bitmap) : Except String AccountSet :=
  if as.length = 0 then .ok []
  else if as.length < bitmap.len ∧
      (List.range' as.length (bitmap.len - as.length)).any bitmap.isSet then
    .error "invalid bitmap filter provided"
  else .ok (filterByBitmap bitmap 0 as)

theorem foldl_update_apply {β : Type} (f : ValidatorMetadata → β) (vs : AccountSet)
    (m : Address → Option β) (a : Address) (h : vs.getAddresses.Nodup) :
    vs.foldl (fun (m : Address → Option β) (val : ValidatorMetadata) =>
      Function.update m val.address (some (f val))) m a =
      match vs.find? (·.address == a) with
      | some v => some (f v)
      | none => m a := by
  induction vs generalizing m with
  | nil => rfl
  | cons v vs ih =>
    simp only [getAddresses, List.map_cons, List.nodup_cons] at h
    rw [List.foldl_cons, ih _ h.2, List.find?_cons]
    by_cases hv : v.address = a
    · subst hv
      have hnone : vs.find? (·.address == v.address) = none := by
        rw [List.find?_eq_none]
        intro u hu he
        exact h.1 (List.mem_map.mpr ⟨u, hu, (beq_iff_eq.mp he)⟩)
      simp [hnone]
    · have hne : (v.address == a) = false := beq_false_of_ne hv
      rw [hne]
      cases vs.find? (·.address == a) <;> simp [Function.update_of_ne (Ne.symm hv)]

end AccountSet

structure ValidatorSetDelta where
  added : AccountSet
  updated : AccountSet
  removed : Bitmap
  deriving DecidableEq, Repr

def ValidatorSetDelta.isEmpty (d : ValidatorSetDelta) : Bool :=
  d.added.length == 0 && d.updated.length == 0 && d.removed.len == 0

inductive ApplyDeltaError where
  | alreadyPresent (addr : Address)
  | updatedNotFound (addr : Address)
  deriving DecidableEq, Repr

namespace AccountSet

def keptValidators (d : ValidatorSetDelta) : Nat → AccountSet → AccountSet
  | _, [] => []
  | i, v :: vs =>
    if !d.removed.isSet i || containsAddress d.added v.address then
      v :: keptValidators d (i + 1) vs
    else keptValidators d (i + 1) vs

def appendAdded : AccountSet → AccountSet → Except ApplyDeltaError AccountSet
  | validators, [] => .ok validators
  | validators, a :: rest =>
    if containsAddress validators a.address then .error (.alreadyPresent a.address)
    else appendAdded (validators ++ [a]) rest

def overwriteUpdated : AccountSet → AccountSet → Except ApplyDeltaError AccountSet
  | validators, [] => .ok validators
  | validators, u :: rest =>
    let validatorIndex := index validators u.address
    if validatorIndex = -1 then .error (.updatedNotFound u.address)
    else overwriteUpdated (validators.set validatorIndex.toNat u) rest

def applyDelta (as : AccountSet) (validatorsDelta : Option ValidatorSetDelta) :
    Except ApplyDeltaError AccountSet :=
  match validatorsDelta with
  | none => .ok as
  | some d =>
    if d.isEmpty then .ok as
    else do
      let validators ← appendAdded (keptValidators d 0 as) d.added
      overwriteUpdated validators d.updated

def updatedOrSelf (us : AccountSet) (v : ValidatorMetadata) : ValidatorMetadata :=
  (us.find? (·.address == v.address)).getD v

theorem mem_getAddresses (vs : AccountSet) (a : Address) :
    a ∈ vs.getAddresses ↔ ∃ v ∈ vs, v.address = a := by
  simp [getAddresses]

theorem index_eq_neg_one_iff (vs : AccountSet) (a : Address) :
    vs.index a = -1 ↔ a ∉ vs.getAddresses := by
  unfold index
  cases h : vs.findIdx? (·.address == a) with
  | none =>
    rw [List.findIdx?_eq_none_iff] at h
    simp only [true_iff, mem_getAddresses, not_exists, not_and]
    intro v hv he
    simp at h
    exact h v hv he
  | some i =>
    obtain ⟨hi, hp, -⟩ := List.findIdx?_eq_some_iff_getElem.mp h
    have hmem : a ∈ vs.getAddresses :=
      (mem_getAddresses vs a).mpr ⟨vs[i], List.getElem_mem hi, beq_iff_eq.mp hp⟩
    simp only [hmem, not_true_eq_false, iff_false]
    omega

theorem containsAddress_iff (vs : AccountSet) (a : Address) :
    vs.containsAddress a = true ↔ a ∈ vs.getAddresses := by
  rw [containsAddress, bne_iff_ne, ne_eq, index_eq_neg_one_iff, not_not]

theorem find?_address_of_mem {vs : AccountSet} (hn : vs.getAddresses.Nodup) {v : ValidatorMetadata}
    (hv : v ∈ vs) : vs.find? (·.address == v.address) = some v := by
  induction vs with
  | nil => simp at hv
  | cons x xs ih =>
    simp only [getAddresses, List.map_cons, List.nodup_cons] at hn
    rcases List.mem_cons.mp hv with rfl | hv
    · simp
    · have hne : x.address ≠ v.address := fun he => hn.1 (he ▸ List.mem_map.mpr ⟨v, hv, rfl⟩)
      simp [hne, ih hn.2 hv]

theorem address_updatedOrSelf (us : AccountSet) (v : ValidatorMetadata) :
    (updatedOrSelf us v).address = v.address := by
  unfold updatedOrSelf
  cases h : us.find? (·.address == v.address) with
  | none => rfl
  | some u =>
    have hu := List.find?_some h
    simpa using hu

theorem getAddresses_map_updatedOrSelf (us vs : AccountSet) :
    getAddresses (vs.map (updatedOrSelf us)) = vs.getAddresses := by
  simp [getAddresses, address_updatedOrSelf]

theorem set_index_eq_map (vs : AccountSet) (u : ValidatorMetadata) (hn : vs.getAddresses.Nodup)
    (hu : u.address ∈ vs.getAddresses) :
    vs.set (vs.index u.address).toNat u = vs.map (fun v => if v.address = u.address then u else v) := by
  induction vs with
  | nil => simp [getAddresses] at hu
  | cons x xs ih =>
    simp only [getAddresses, List.map_cons, List.nodup_cons, List.mem_cons] at hn hu
    by_cases hx : x.address = u.address
    · have hrest : ∀ w ∈ xs, w.address ≠ u.address :=
        fun w hw he => hn.1 (hx ▸ he ▸ List.mem_map.mpr ⟨w, hw, rfl⟩)
      have hidx : index (x :: xs) u.address = 0 := by simp [index, List.findIdx?_cons, hx]
      rw [hidx, List.map_cons, if_pos hx]
      simp only [Int.toNat_zero, List.set_cons_zero, List.cons.injEq, true_and]
      have hid : xs.map (fun v => if v.address = u.address then u else v) = xs.map (fun v => v) :=
        List.map_congr_left fun w hw => if_neg (hrest w hw)
      rw [hid, List.map_id']
    · have hu' : u.address ∈ getAddresses xs := hu.resolve_left (Ne.symm hx)
      obtain ⟨i, hi⟩ : ∃ i, xs.findIdx? (·.address == u.address) = some i := by
        apply Option.isSome_iff_exists.mp
        rw [List.findIdx?_isSome, List.any_eq_true]
        obtain ⟨w, hw, hwa⟩ := (mem_getAddresses xs _).mp hu'
        exact ⟨w, hw, by simp [hwa]⟩
      have hxs : (index xs u.address).toNat = i := by simp [index, hi]
      have hidx : (index (x :: xs) u.address).toNat = i + 1 := by
        simp [index, List.findIdx?_cons, hx, hi]
      have hset := ih hn.2 hu'
      rw [hxs] at hset
      rw [hidx, List.set_cons_succ, hset, List.map_cons, if_neg hx]

theorem keptValidators_eq_filter (d : ValidatorSetDelta) (P : ValidatorMetadata → Bool) (i : Nat)
    (vs : AccountSet)
    (h : ∀ j (hj : j < vs.length),
      (!d.removed.isSet (i + j) || containsAddress d.added vs[j].address) = P vs[j]) :
    keptValidators d i vs = vs.filter P := by
  induction vs generalizing i with
  | nil => rfl
  | cons v vs ih =>
    have hhead := h 0 (by simp)
    have htail : keptValidators d (i + 1) vs = vs.filter P := by
      apply ih
      intro j hj
      have hj' := h (j + 1) (by simpa using hj)
      simpa [Nat.add_assoc, Nat.add_comm 1 j] using hj'
    simp only [Nat.add_zero, List.getElem_cons_zero] at hhead
    rw [keptValidators, hhead, htail, List.filter_cons]

theorem appendAdded_eq_ok (vs added : AccountSet)
    (hdisj : ∀ a ∈ added, a.address ∉ vs.getAddresses) (hnd : added.getAddresses.Nodup) :
    appendAdded vs added = .ok (vs ++ added) := by
  induction added generalizing vs with
  | nil => simp [appendAdded]
  | cons a rest ih =>
    simp only [getAddresses, List.map_cons, List.nodup_cons] at hnd
    have hfresh : containsAddress vs a.address = false := by
      rw [Bool.eq_false_iff, ne_eq, containsAddress_iff]
      exact hdisj a (List.mem_cons_self ..)
    have hdisj' : ∀ b ∈ rest, b.address ∉ getAddresses (vs ++ [a]) := by
      intro b hb hmem
      simp only [getAddresses, List.map_append, List.map_cons, List.map_nil, List.mem_append,
        List.mem_singleton] at hmem
      rcases hmem with hmem | hmem
      · exact hdisj b (List.mem_cons_of_mem _ hb) hmem
      · exact hnd.1 (hmem ▸ List.mem_map.mpr ⟨b, hb, rfl⟩)
    rw [appendAdded, hfresh, if_neg Bool.false_ne_true, ih _ hdisj' hnd.2, List.append_assoc,
      List.singleton_append]

theorem overwriteUpdated_eq_ok (vs us : AccountSet) (hvs : vs.getAddresses.Nodup)
    (hus : us.getAddresses.Nodup) (hsub : ∀ u ∈ us, u.address ∈ vs.getAddresses) :
    overwriteUpdated vs us = .ok (vs.map (updatedOrSelf us)) := by
  induction us generalizing vs with
  | nil =>
    have hid : vs.map (updatedOrSelf []) = vs.map (fun v => v) :=
      List.map_congr_left fun v _ => rfl
    rw [overwriteUpdated, hid, List.map_id']
  | cons u rest ih =>
    simp only [getAddresses, List.map_cons, List.nodup_cons] at hus
    have hu : u.address ∈ vs.getAddresses := hsub u (List.mem_cons_self ..)
    have hidx : index vs u.address ≠ -1 := fun h => (index_eq_neg_one_iff vs _).mp h hu
    let vs' := vs.map (fun v => if v.address = u.address then u else v)
    have haddr : getAddresses vs' = vs.getAddresses := by
      simp only [vs', getAddresses, List.map_map]
      exact List.map_congr_left fun v _ => by by_cases hv : v.address = u.address <;> simp [hv]
    have hstep := ih vs' (haddr ▸ hvs) hus.2
      (fun w hw => haddr ▸ hsub w (List.mem_cons_of_mem _ hw))
    rw [overwriteUpdated, if_neg hidx, set_index_eq_map vs u hvs hu, hstep, List.map_map]
    congr 1
    refine List.map_congr_left fun v _ => ?_
    have hnot : rest.find? (·.address == u.address) = none := by
      rw [List.find?_eq_none]
      intro w hw he
      exact hus.1 (beq_iff_eq.mp he ▸ List.mem_map.mpr ⟨w, hw, rfl⟩)
    by_cases hv : v.address = u.address
    · simp [updatedOrSelf, hv, hnot]
    · have hne : (u.address == v.address) = false := beq_false_of_ne (Ne.symm hv)
      simp [updatedOrSelf, hv, hne]

end AccountSet

end Blade
