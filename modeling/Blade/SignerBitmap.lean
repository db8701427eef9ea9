import Blade.ValidatorMetadata

/-!
The signer bitmap of a committed block (`consensus/polybft/fsm.go`, `fsm.Insert`): the position
of each committed seal's signer in the validator list is set in a bitmap, which
`GetFilteredValidators` (`validator/validator_metadata.go`) reads back. The seals' signatures
are aggregated on the side and are not modelled; a seal whose signature does not unmarshal ends
the loop with an error, as an unknown signer does.

Setting the positions of any signers, in any order, and filtering gives back exactly the
validators at those positions in list order. Of a bitmap with a bit set past the list,
`GetFilteredValidators` refuses every one, except for the empty list, which it answers with
the empty list before it looks at the bitmap.
-/

namespace Blade

def writeIndex (m : Address → Option Nat) (p : Address × Nat) : Address → Option Nat :=
  Function.update m p.1 (some p.2)

/-- `nodeIDIndexMap` of `fsm.Insert`: each address is written with its position, so of two
equal addresses the later position stays. -/
def nodeIDIndexMap (validators : AccountSet) : Address → Option Nat :=
  validators.getAddresses.zipIdx.foldl writeIndex fun _ => none

/-- The loop of `fsm.Insert` over the committed seals' signers. -/
def insertSignerBits (indexMap : Address → Option Nat) :
    Bitmap → List Address → Except String Bitmap
  | bitmap, [] => .ok bitmap
  | bitmap, signer :: signers =>
    match indexMap signer with
    | none => .error "invalid node id"
    | some index => insertSignerBits indexMap (bitmap.set index) signers

/-- The bitmap `fsm.Insert` stores in the extra's committed signature. -/
def signersBitmap (validators : AccountSet) (signers : List Address) : Except String Bitmap :=
  insertSignerBits (nodeIDIndexMap validators) ⟨[]⟩ signers

/-! ### The index map -/

section IndexMap

variable {a : Address} {i : Nat}

theorem foldl_update_zipIdx_eq_some :
    ∀ (l : List Address) (n : Nat) (m : Address → Option Nat),
      (l.zipIdx n).foldl writeIndex m a = some i →
        m a = some i ∨ n ≤ i ∧ l[i - n]? = some a
  | [], _, _, h => Or.inl h
  | x :: l, n, m, h => by
    rw [List.zipIdx_cons, List.foldl_cons] at h
    rcases foldl_update_zipIdx_eq_some l (n + 1) _ h with h' | ⟨hle, hget⟩
    · by_cases hax : a = x
      · subst hax
        simp only [writeIndex, Function.update_self, Option.some.injEq] at h'
        subst h'
        exact Or.inr ⟨le_rfl, by simp⟩
      · rw [writeIndex, Function.update_of_ne hax] at h'
        exact Or.inl h'
    · refine Or.inr ⟨by omega, ?_⟩
      rw [show i - n = i - (n + 1) + 1 by omega, List.getElem?_cons_succ]
      exact hget

theorem foldl_update_zipIdx_isSome :
    ∀ (l : List Address) (n : Nat) (m : Address → Option Nat), (m a).isSome ∨ a ∈ l →
      ((l.zipIdx n).foldl writeIndex m a).isSome
  | [], _, _, h => by simpa using h
  | x :: l, n, m, h => by
    rw [List.zipIdx_cons, List.foldl_cons]
    apply foldl_update_zipIdx_isSome l (n + 1)
    by_cases hax : a = x
    · subst hax
      simp [writeIndex]
    · rw [writeIndex, Function.update_of_ne hax]
      simpa [hax] using h

theorem nodeIDIndexMap_eq_some {validators : AccountSet}
    (h : nodeIDIndexMap validators a = some i) : validators.getAddresses[i]? = some a := by
  rcases foldl_update_zipIdx_eq_some _ 0 _ h with h' | ⟨-, hget⟩
  · cases h'
  · simpa using hget

theorem nodeIDIndexMap_isSome {validators : AccountSet} (h : a ∈ validators.getAddresses) :
    (nodeIDIndexMap validators a).isSome :=
  foldl_update_zipIdx_isSome _ 0 _ (Or.inr h)

end IndexMap

/-! ### Building and reading the bitmap -/

theorem insertSignerBits_eq_ok (indexMap : Address → Option Nat) :
    ∀ (signers : List Address) (bitmap : Bitmap), (∀ a ∈ signers, (indexMap a).isSome) →
      ∃ bitmap', insertSignerBits indexMap bitmap signers = .ok bitmap' ∧
        ∀ j, bitmap'.isSet j = (bitmap.isSet j || signers.any fun a => indexMap a == some j)
  | [], bitmap, _ => ⟨bitmap, rfl, fun j => by simp⟩
  | signer :: signers, bitmap, h => by
    obtain ⟨index, hindex⟩ := Option.isSome_iff_exists.mp (h signer List.mem_cons_self)
    obtain ⟨bitmap', hins, hset⟩ := insertSignerBits_eq_ok indexMap signers (bitmap.set index)
      fun a ha => h a (List.mem_cons_of_mem _ ha)
    refine ⟨bitmap', by simp only [insertSignerBits, hindex, hins], fun j => ?_⟩
    rw [hset j, Bitmap.isSet_set, List.any_cons, hindex]
    by_cases hj : index = j
    · subst hj
      simp
    · simp [hj, beq_eq_false_iff_ne.mpr hj]

theorem filterByBitmap_eq (bitmap : Bitmap) :
    ∀ (n : Nat) (validators : AccountSet),
      AccountSet.filterByBitmap bitmap n validators =
        ((validators.zipIdx n).filter fun p => bitmap.isSet p.2).map Prod.fst
  | _, [] => rfl
  | n, v :: vs => by
    rw [AccountSet.filterByBitmap, List.zipIdx_cons, List.filter_cons, filterByBitmap_eq bitmap (n + 1) vs]
    split <;> simp

theorem getFilteredValidators_eq_error_iff {validators : AccountSet} (hne : validators ≠ [])
    (bitmap : Bitmap) :
    (∃ e, AccountSet.getFilteredValidators validators bitmap = .error e) ↔
      ∃ i, validators.length ≤ i ∧ bitmap.isSet i = true := by
  have hlen : ¬ validators.length = 0 := by simpa using hne
  -- a set bit lies below the bitmap's length
  have hbelow : ∀ i, bitmap.isSet i = true → i < bitmap.len := by
    intro i hi
    by_contra hge
    simp [Bitmap.isSet, not_lt.mp hge] at hi
  unfold AccountSet.getFilteredValidators
  simp only [hlen, if_false]
  split
  · rename_i hcond
    obtain ⟨hlt, hany⟩ := hcond
    obtain ⟨i, hi, hset⟩ := List.any_eq_true.mp hany
    rw [List.mem_range'_1] at hi
    exact ⟨fun _ => ⟨i, hi.1, hset⟩, fun _ => ⟨_, rfl⟩⟩
  · rename_i hcond
    constructor
    · rintro ⟨e, he⟩
      cases he
    · rintro ⟨i, hi, hset⟩
      have := hbelow i hset
      exact absurd ⟨by omega, List.any_eq_true.mpr ⟨i, List.mem_range'_1.mpr ⟨hi, by omega⟩, hset⟩⟩
        hcond

theorem getFilteredValidators_of_lt {validators : AccountSet} {bitmap : Bitmap}
    (h : ∀ j, bitmap.isSet j = true → j < validators.length) :
    AccountSet.getFilteredValidators validators bitmap =
      .ok (AccountSet.filterByBitmap bitmap 0 validators) := by
  rcases validators with _ | ⟨v, vs⟩
  · rfl
  · have hok : ¬ ∃ e, AccountSet.getFilteredValidators (v :: vs) bitmap = .error e := by
      rw [getFilteredValidators_eq_error_iff (List.cons_ne_nil v vs)]
      rintro ⟨i, hi, hset⟩
      exact absurd (h i hset) (by omega)
    unfold AccountSet.getFilteredValidators at hok ⊢
    simp only [List.length_cons, Nat.add_one_ne_zero, if_false] at hok ⊢
    split
    · rename_i hc
      simp only [hc] at hok
      exact absurd ⟨_, rfl⟩ hok
    · rfl

/-- The signer bitmap read back: for any signers of the list, in any order, the validators at
the signers' positions in list order; and of an arbitrary bitmap, a non-empty list refuses
exactly those with a bit set past its end, while the empty list answers every bitmap with the
empty list. -/
theorem signersBitmap_roundTrip (validators : AccountSet) :
    (∀ signers : List Address, (∀ a ∈ signers, a ∈ validators.getAddresses) →
      ∃ bitmap, signersBitmap validators signers = .ok bitmap ∧
        AccountSet.getFilteredValidators validators bitmap =
          .ok ((validators.zipIdx.filter fun p =>
            signers.any fun a => nodeIDIndexMap validators a == some p.2).map Prod.fst)) ∧
      ∀ bitmap : Bitmap,
        (validators ≠ [] → ((∃ e, AccountSet.getFilteredValidators validators bitmap = .error e) ↔
          ∃ i, validators.length ≤ i ∧ bitmap.isSet i = true)) ∧
        (validators = [] → AccountSet.getFilteredValidators validators bitmap = .ok []) := by
  refine ⟨fun signers hsigners => ?_, fun bitmap =>
    ⟨fun hne => getFilteredValidators_eq_error_iff hne bitmap, fun h => by subst h; rfl⟩⟩
  obtain ⟨bitmap, hins, hset⟩ := insertSignerBits_eq_ok (nodeIDIndexMap validators) signers ⟨[]⟩
    fun a ha => nodeIDIndexMap_isSome (hsigners a ha)
  -- every set bit is a signer's position, which lies in the list
  have hlt : ∀ j, bitmap.isSet j = true → j < validators.length := by
    intro j hj
    rw [hset j, Bitmap.isSet_empty, Bool.false_or, List.any_eq_true] at hj
    obtain ⟨a, -, ha⟩ := hj
    have hget := nodeIDIndexMap_eq_some (beq_iff_eq.mp ha)
    simpa [AccountSet.getAddresses] using (List.getElem?_eq_some_iff.mp hget).1
  refine ⟨bitmap, hins, ?_⟩
  rw [getFilteredValidators_of_lt hlt, filterByBitmap_eq]
  congr 3
  funext p
  rw [hset, Bitmap.isSet_empty, Bool.false_or]

/-- Three validators, the third and the first signing in that order: bits 0 and 2 are set, and
the first and third validators are read back. -/
theorem signersBitmap_roundTrip_three :
    let validators : AccountSet := [⟨1, none, 1, true⟩, ⟨2, none, 1, true⟩, ⟨3, none, 1, true⟩]
    signersBitmap validators [3, 1] = .ok ⟨[5]⟩ ∧
      AccountSet.getFilteredValidators validators ⟨[5]⟩ =
        .ok [⟨1, none, 1, true⟩, ⟨3, none, 1, true⟩] ∧
      ((∀ signers : List Address, (∀ a ∈ signers, a ∈ validators.getAddresses) →
        ∃ bitmap, signersBitmap validators signers = .ok bitmap ∧
          AccountSet.getFilteredValidators validators bitmap =
            .ok ((validators.zipIdx.filter fun p =>
              signers.any fun a => nodeIDIndexMap validators a == some p.2).map Prod.fst)) ∧
        ∀ bitmap : Bitmap,
          (validators ≠ [] → ((∃ e, AccountSet.getFilteredValidators validators bitmap = .error e) ↔
            ∃ i, validators.length ≤ i ∧ bitmap.isSet i = true)) ∧
          (validators = [] → AccountSet.getFilteredValidators validators bitmap = .ok [])) :=
  ⟨rfl, rfl, signersBitmap_roundTrip _⟩

/-- The empty validator list answers a bitmap with bit 0 set, past its end, with the empty
list. -/
theorem getFilteredValidators_nil_accepts_set_bit :
    (⟨[1]⟩ : Bitmap).isSet 0 = true ∧ AccountSet.getFilteredValidators [] ⟨[1]⟩ = .ok [] :=
  ⟨by decide, rfl⟩

end Blade
