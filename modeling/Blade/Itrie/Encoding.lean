import Mathlib.Tactic.NormNum

/-!
The nibble keys of the immutable trie (`state/immutable-trie/encoding.go`). A key of bytes is
spelt as its nibbles, high one first, followed by the terminator `16`; a node's key is stored
in the compact (hex-prefix) form, two nibbles a byte behind a flag nibble that says whether
the key was terminated and whether its length was odd.

The compact form is read back exactly: `decodeCompact` inverts `encodeCompact` on every key of
nibbles below sixteen, with or without the terminator.
-/

namespace Blade.Itrie

def hasTerminator (hex : List UInt8) : Bool := hex.getLast? == some 16

/-- Two nibbles to a byte, high one first; the source's loop over an even-length slice. -/
def packNibbles : List UInt8 → List UInt8
  | a :: b :: rest => (a <<< 4 ||| b) :: packNibbles rest
  | _ => []

def encodeCompact (hex : List UInt8) : List UInt8 :=
  let terminator := if hasTerminator hex then 1 else 0
  -- remove terminator flag
  let hex := if hasTerminator hex then hex.dropLast else hex
  let oddLen := hex.length % 2
  let flag := UInt8.ofNat (2 * terminator + oddLen)
  packNibbles (if oddLen = 1 then flag :: hex else flag :: 0 :: hex)

def bytesToHexNibbles (bytes : List UInt8) : List UInt8 :=
  bytes.flatMap (fun b => [b / 16, b % 16]) ++ [16]

/-- `decodeCompact`. The source indexes the first nibble of `base`, which is never empty. -/
def decodeCompact (compact : List UInt8) : List UInt8 :=
  let base := bytesToHexNibbles compact
  -- remove the terminator flag
  let base := if base.headD 0 < 2 then base.dropLast else base
  -- remove prefix flag
  if base.headD 0 &&& 1 = 1 then base.drop 1 else base.drop 2

/-- A key of nibbles: each below sixteen, and the terminator at the end when `term` is set. -/
def hexKey (body : List UInt8) (term : Bool) : List UInt8 := if term then body ++ [16] else body

section Lemmas

variable {body : List UInt8}

theorem hasTerminator_hexKey (hbody : ∀ x ∈ body, x < 16) (term : Bool) :
    hasTerminator (hexKey body term) = term := by
  cases term with
  | true => simp [hasTerminator, hexKey]
  | false =>
    simp only [hasTerminator, hexKey, Bool.false_eq_true, if_false, beq_eq_false_iff_ne]
    intro hlast
    have h16 := hbody _ (List.mem_of_getLast? hlast)
    exact absurd h16 (by decide)

theorem pack_fin : ∀ a b : Fin 16, (UInt8.ofNat a <<< 4 ||| UInt8.ofNat b) / 16 = UInt8.ofNat a ∧
    (UInt8.ofNat a <<< 4 ||| UInt8.ofNat b) % 16 = UInt8.ofNat b := by
  decide

theorem pack_split {a b : UInt8} (ha : a < 16) (hb : b < 16) :
    (a <<< 4 ||| b) / 16 = a ∧ (a <<< 4 ||| b) % 16 = b := by
  have ha' : a.toNat < 16 := ha
  have hb' : b.toNat < 16 := hb
  simpa using pack_fin ⟨a.toNat, ha'⟩ ⟨b.toNat, hb'⟩

theorem bytesToHexNibbles_packNibbles {xs : List UInt8} (hxs : ∀ x ∈ xs, x < 16)
    (heven : xs.length % 2 = 0) : bytesToHexNibbles (packNibbles xs) = xs ++ [16] := by
  fun_induction packNibbles xs with
  | case1 a b rest ih =>
    have hrest : ∀ x ∈ rest, x < 16 := fun x hx => hxs x (by simp [hx])
    have hlen : rest.length % 2 = 0 := by simp at heven; omega
    obtain ⟨hdiv, hmod⟩ := pack_split (hxs a (by simp)) (hxs b (by simp))
    have h := ih hrest hlen
    simp only [bytesToHexNibbles, List.flatMap_cons] at h ⊢
    rw [List.append_assoc, h, hdiv, hmod]
    rfl
  | case2 xs hnot =>
    -- an even list that is not two nibbles and a rest is empty
    rcases xs with _ | ⟨a, _ | ⟨b, rest⟩⟩
    · rfl
    · simp at heven
    · exact absurd rfl (hnot a b rest)

theorem flag_facts : ∀ (term : Bool) (o : Fin 2),
    UInt8.ofNat (2 * (if term then 1 else 0) + o) < 16 ∧
      (UInt8.ofNat (2 * (if term then 1 else 0) + o) < 2 ↔ term = false) ∧
      (UInt8.ofNat (2 * (if term then 1 else 0) + o) &&& 1 = 1 ↔ o.val = 1) := by
  decide

theorem decodeCompact_encodeCompact (hbody : ∀ x ∈ body, x < 16) (term : Bool) :
    decodeCompact (encodeCompact (hexKey body term)) = hexKey body term := by
  have hdrop : (if term then (hexKey body term).dropLast else hexKey body term) = body := by
    cases term <;> simp [hexKey]
  simp only [encodeCompact, hasTerminator_hexKey hbody, hdrop]
  -- the flag nibble, and the padding nibble before an even body
  obtain ⟨hflag16, hlow, hodd⟩ := flag_facts term ⟨body.length % 2, Nat.mod_lt _ (by norm_num)⟩
  simp only at hflag16 hlow hodd
  generalize UInt8.ofNat (2 * (if term then 1 else 0) + body.length % 2) = flag at hflag16 hlow hodd ⊢
  have hlast : ∀ p : List UInt8, (p ++ body ++ [16]).dropLast = p ++ body := fun _ =>
    List.dropLast_concat
  by_cases hlen : body.length % 2 = 1
  · -- an odd body follows the flag nibble directly
    have hb := bytesToHexNibbles_packNibbles (List.forall_mem_cons.2 ⟨hflag16, hbody⟩)
      (by simp; omega)
    rw [if_pos hlen, decodeCompact, hb]
    have hodd' : flag &&& 1 = 1 := hodd.2 hlen
    cases term with
    | false =>
      have hlt : flag < 2 := hlow.2 rfl
      have := hlast [flag]
      simp_all [hexKey]
    | true =>
      have hge : ¬ flag < 2 := fun h => Bool.noConfusion (hlow.1 h)
      simp [hexKey, hge, hodd']
  · -- an even body is padded by a zero nibble
    have hb := bytesToHexNibbles_packNibbles
      (List.forall_mem_cons.2 ⟨hflag16, List.forall_mem_cons.2 ⟨(by decide : (0 : UInt8) < 16), hbody⟩⟩)
      (by simp; omega)
    rw [if_neg hlen, decodeCompact, hb]
    have heven : ¬ flag &&& 1 = 1 := fun h => hlen (hodd.1 h)
    cases term with
    | false =>
      have hlt : flag < 2 := hlow.2 rfl
      have := hlast [flag, 0]
      simp_all [hexKey]
    | true =>
      have hge : ¬ flag < 2 := fun h => Bool.noConfusion (hlow.1 h)
      simp [hexKey, hge, heven]

/-- Both directions of the compact form: a key is read back from its compact form, and a compact
form the encoder produced is produced again from what it decodes to. -/
theorem compact_roundTrip (hbody : ∀ x ∈ body, x < 16) (term : Bool) :
    decodeCompact (encodeCompact (hexKey body term)) = hexKey body term ∧
      encodeCompact (decodeCompact (encodeCompact (hexKey body term))) =
        encodeCompact (hexKey body term) := by
  have h := decodeCompact_encodeCompact hbody term
  exact ⟨h, by rw [h]⟩

/-- An odd key with the terminator, whose flag nibble shares the first byte. -/
theorem compact_roundTrip_oddLeaf :
    (∀ x ∈ ([1, 2, 3] : List UInt8), x < 16) ∧
      decodeCompact [0x31, 0x23] = [1, 2, 3, 16] ∧ encodeCompact [1, 2, 3, 16] = [0x31, 0x23] ∧
      decodeCompact (encodeCompact (hexKey [1, 2, 3] true)) = hexKey [1, 2, 3] true ∧
      encodeCompact (decodeCompact (encodeCompact (hexKey [1, 2, 3] true))) =
        encodeCompact (hexKey [1, 2, 3] true) :=
  ⟨by simp, by decide, by decide, compact_roundTrip (by simp) true⟩

end Lemmas

end Blade.Itrie
