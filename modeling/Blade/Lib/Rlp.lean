import Mathlib.Data.Nat.Digits.Lemmas
import Mathlib.Tactic.Linarith
import Mathlib.Tactic.Positivity
import Mathlib.Tactic.NormNum

/-!
Recursive-length-prefix items: a byte string or a list of items. Integers are written as
their minimal big-endian byte string (`toBytesBE`), and `decode` reads the short and long
forms of both kinds of item with a fuel bound that the input length pays for.
-/

namespace Blade.Lib.Rlp

inductive Item
  | bytes (b : List UInt8)
  | list (items : List Item)
  deriving Repr

mutual
def Item.decEq : (a b : Item) → Decidable (a = b)
  | .bytes x, .bytes y =>
    if h : x = y then isTrue (h ▸ rfl) else isFalse (fun e => h (Item.bytes.inj e))
  | .list xs, .list ys =>
    match Item.decEqList xs ys with
    | isTrue h => isTrue (h ▸ rfl)
    | isFalse h => isFalse (fun e => h (Item.list.inj e))
  | .bytes _, .list _ => isFalse nofun
  | .list _, .bytes _ => isFalse nofun
def Item.decEqList : (a b : List Item) → Decidable (a = b)
  | [], [] => isTrue rfl
  | x :: xs, y :: ys =>
    match Item.decEq x y, Item.decEqList xs ys with
    | isTrue h₁, isTrue h₂ => isTrue (h₁ ▸ h₂ ▸ rfl)
    | isFalse h, _ => isFalse (fun e => h (List.cons.inj e).1)
    | _, isFalse h => isFalse (fun e => h (List.cons.inj e).2)
  | [], _ :: _ => isFalse nofun
  | _ :: _, [] => isFalse nofun
end

instance : DecidableEq Item := Item.decEq

/-! ## Integers -/

/-- The minimal big-endian bytes of `n`; zero is the empty string. -/
def toBytesBE (n : ℕ) : List UInt8 := ((Nat.digits 256 n).map UInt8.ofNat).reverse

def ofBytesBE (bs : List UInt8) : ℕ := Nat.ofDigits 256 (bs.reverse.map UInt8.toNat)

theorem ofBytesBE_toBytesBE (n : ℕ) : ofBytesBE (toBytesBE n) = n := by
  have hdig : ∀ d ∈ Nat.digits 256 n, (UInt8.ofNat d).toNat = d := by
    intro d hd
    have hlt : d < 256 := Nat.digits_lt_base (by norm_num) hd
    simp [Nat.mod_eq_of_lt hlt]
  have hmap : (Nat.digits 256 n).map (fun d => (UInt8.ofNat d).toNat) = Nat.digits 256 n := by
    rw [List.map_congr_left hdig, List.map_id']
  simp only [ofBytesBE, toBytesBE, List.reverse_reverse, List.map_map, Function.comp_def, hmap]
  exact Nat.ofDigits_digits 256 n

theorem toBytesBE_injective : Function.Injective toBytesBE := by
  intro m n h
  rw [← ofBytesBE_toBytesBE m, h, ofBytesBE_toBytesBE]

@[simp] theorem toBytesBE_inj {m n : ℕ} : toBytesBE m = toBytesBE n ↔ m = n :=
  toBytesBE_injective.eq_iff

@[simp] theorem toBytesBE_zero : toBytesBE 0 = [] := by
  simp [toBytesBE]

theorem toBytesBE_of_lt {n : ℕ} (h0 : n ≠ 0) (h : n < 256) : toBytesBE n = [UInt8.ofNat n] := by
  simp [toBytesBE, Nat.digits_of_lt 256 n h0 h]

/-- The `w` low bytes of `n`, most significant first: a fixed-width field such as an
address or a hash. -/
def toBytesFixed (w n : ℕ) : List UInt8 :=
  (List.range w).reverse.map fun i => UInt8.ofNat (n / 256 ^ i)

theorem length_toBytesFixed (w n : ℕ) : (toBytesFixed w n).length = w := by
  simp [toBytesFixed]

theorem toBytesFixed_succ (w n : ℕ) :
    toBytesFixed (w + 1) n = UInt8.ofNat (n / 256 ^ w) :: toBytesFixed w n := by
  simp [toBytesFixed, List.range_succ]

theorem ofBytesBE_cons (b : UInt8) (bs : List UInt8) :
    ofBytesBE (b :: bs) = ofBytesBE bs + 256 ^ bs.length * b.toNat := by
  simp [ofBytesBE, Nat.ofDigits_append, Nat.ofDigits_cons]

theorem ofBytesBE_toBytesFixed (w n : ℕ) : ofBytesBE (toBytesFixed w n) = n % 256 ^ w := by
  induction w with
  | zero => simp [toBytesFixed, ofBytesBE, Nat.mod_one]
  | succ w ih =>
    rw [toBytesFixed_succ, ofBytesBE_cons, ih, length_toBytesFixed, Nat.mod_pow_succ]
    simp

theorem ofBytesBE_lt (b : List UInt8) : ofBytesBE b < 256 ^ b.length := by
  induction b with
  | nil => simp [ofBytesBE]
  | cons x bs ih =>
    have hx := x.toNat_lt
    rw [ofBytesBE_cons, List.length_cons, pow_succ]
    nlinarith

theorem ofBytesBE_inj {a b : List UInt8} (hl : a.length = b.length)
    (h : ofBytesBE a = ofBytesBE b) : a = b := by
  induction a generalizing b with
  | nil =>
    rw [List.length_nil, eq_comm, List.length_eq_zero_iff] at hl
    exact hl.symm
  | cons x xs ih =>
    obtain ⟨y, ys, rfl⟩ := List.exists_cons_of_length_eq_add_one hl.symm
    have hl' : xs.length = ys.length := by simpa using hl
    rw [ofBytesBE_cons, ofBytesBE_cons, hl'] at h
    have hxs := ofBytesBE_lt xs
    have hys := ofBytesBE_lt ys
    rw [hl'] at hxs
    -- the leading byte is the quotient by the weight of the rest, the rest the remainder
    have hq : x.toNat = y.toNat := by
      have h1 := congrArg (· / 256 ^ ys.length) h
      simp only [Nat.add_mul_div_left _ _ (by positivity : 0 < 256 ^ ys.length),
        Nat.div_eq_of_lt hxs, Nat.div_eq_of_lt hys, zero_add] at h1
      exact h1
    have hr : ofBytesBE xs = ofBytesBE ys := by
      have h1 := congrArg (· % 256 ^ ys.length) h
      simp only [Nat.add_mul_mod_self_left, Nat.mod_eq_of_lt hxs, Nat.mod_eq_of_lt hys] at h1
      exact h1
    rw [UInt8.toNat_inj.1 hq, ih hl' hr]

theorem toBytesFixed_ofBytesBE {b : List UInt8} {w : ℕ} (h : b.length = w) :
    toBytesFixed w (ofBytesBE b) = b := by
  apply ofBytesBE_inj (by rw [length_toBytesFixed, h])
  rw [ofBytesBE_toBytesFixed, Nat.mod_eq_of_lt (h ▸ ofBytesBE_lt b)]

/-! ## Encoding -/

/-- The header of a payload of `len` bytes; `offset` is `0x80` for strings and `0xc0`
for lists. -/
def encodeLength (len offset : ℕ) : List UInt8 :=
  if len ≤ 55 then [UInt8.ofNat (offset + len)]
  else UInt8.ofNat (offset + 55 + (toBytesBE len).length) :: toBytesBE len

mutual
def encode : Item → List UInt8
  | .bytes [b] => if b.toNat < 0x80 then [b] else encodeLength 1 0x80 ++ [b]
  | .bytes b => encodeLength b.length 0x80 ++ b
  | .list items => encodeLength (encodeList items).length 0xc0 ++ encodeList items
def encodeList : List Item → List UInt8
  | [] => []
  | i :: is => encode i ++ encodeList is
end

/-! ## Decoding

A prefix byte below `0x80` is a one-byte string; up to `0xb7` a string of that length minus
`0x80`; up to `0xbf` a string whose length follows in `p - 0xb7` big-endian bytes; the
ranges from `0xc0` are the same for lists, whose payload is decoded item by item. -/

/-- The payload length and header size that the prefix byte `p` announces over `rest`. -/
def payloadSpan (p : UInt8) (rest : List UInt8) (short : ℕ) : ℕ × ℕ :=
  if p.toNat ≤ short + 55 then (p.toNat - short, 0)
  else
    let ll := p.toNat - (short + 55)
    (ofBytesBE (rest.take ll), ll)

mutual
def decodeItem : ℕ → List UInt8 → Option (Item × List UInt8)
  | 0, _ => none
  | _ + 1, [] => none
  | fuel + 1, p :: rest =>
    if p.toNat < 0x80 then some (.bytes [p], rest)
    else if p.toNat < 0xc0 then
      let (n, ll) := payloadSpan p rest 0x80
      if ll + n ≤ rest.length then some (.bytes ((rest.drop ll).take n), rest.drop (ll + n))
      else none
    else
      let (n, ll) := payloadSpan p rest 0xc0
      if ll + n ≤ rest.length then
        (decodeItems fuel ((rest.drop ll).take n)).map fun items => (.list items, rest.drop (ll + n))
      else none
def decodeItems : ℕ → List UInt8 → Option (List Item)
  | _, [] => some []
  | 0, _ :: _ => none
  | fuel + 1, bs =>
    match decodeItem fuel bs with
    | some (i, rest) => (decodeItems fuel rest).map (i :: ·)
    | none => none
end

/-- Decode one item that spans the whole input. Every header and every item consumes a
byte, so twice the length plus two bounds the recursion. -/
def decode (bs : List UInt8) : Except String Item :=
  match decodeItem (2 * bs.length + 2) bs with
  | some (i, []) => .ok i
  | some (_, _ :: _) => .error "rlp: trailing bytes"
  | none => .error "rlp: malformed input"

example : decode [0xc1, 0x02] = .ok (.list [.bytes [0x02]]) := by decide +kernel

/-! ## Decoding what `encode` writes

A payload shorter than `2 ^ 64` bytes has a length of at most eight bytes, so its header
byte stays in its range; every item of a shorter encoding has a shorter payload. -/

theorem length_toBytesBE_le {n k : ℕ} (h : n < 256 ^ k) : (toBytesBE n).length ≤ k := by
  simpa [toBytesBE] using (Nat.digits_length_le_iff (by norm_num) n).2 h

theorem length_toBytesBE_pos {n : ℕ} (h : n ≠ 0) : 0 < (toBytesBE n).length := by
  have := (Nat.digits_ne_nil_iff_ne_zero (b := 256)).2 h
  simpa [toBytesBE, List.length_pos_iff] using this

theorem encodeLength_spec {len offset : ℕ} (hlen : len < 2 ^ 64) (hoff : offset ≤ 0xc0) :
    ∃ p hd, encodeLength len offset = p :: hd ∧ offset ≤ p.toNat ∧ p.toNat < offset + 64 ∧
      ∀ tail, payloadSpan p (hd ++ tail) offset = (len, hd.length) := by
  unfold encodeLength
  by_cases hs : len ≤ 55
  · refine ⟨UInt8.ofNat (offset + len), [], by rw [if_pos hs], ?_⟩
    have hp : (UInt8.ofNat (offset + len)).toNat = offset + len := by
      rw [UInt8.toNat_ofNat', Nat.mod_eq_of_lt (by omega)]
    refine ⟨by omega, by omega, fun tail => ?_⟩
    simp only [payloadSpan, hp, if_pos (show offset + len ≤ offset + 55 by omega),
      Nat.add_sub_cancel_left, List.length_nil]
  · have hk := length_toBytesBE_le (k := 8) (by norm_num; omega)
    have hk0 := length_toBytesBE_pos (n := len) (by omega)
    have hp : (UInt8.ofNat (offset + 55 + (toBytesBE len).length)).toNat =
        offset + 55 + (toBytesBE len).length := by
      rw [UInt8.toNat_ofNat', Nat.mod_eq_of_lt (by omega)]
    refine ⟨_, toBytesBE len, by rw [if_neg hs], by omega, by omega, fun tail => ?_⟩
    have hll : offset + 55 + (toBytesBE len).length - (offset + 55) = (toBytesBE len).length := by
      omega
    simp only [payloadSpan, hp, hll, List.take_left' rfl, ofBytesBE_toBytesBE]
    rw [if_neg (by omega)]

theorem length_encode_pos (i : Item) : 0 < (encode i).length := by
  cases i with
  | bytes b =>
    match b with
    | [x] =>
      simp only [encode]
      split <;> simp
    | [] => simp [encode, encodeLength]
    | _ :: _ :: _ => simp [encode]
  | list items => simp [encode, encodeLength]; split <;> simp

theorem encode_bytes_of_header {b : List UInt8} (hb : ∀ x, b = [x] → 0x80 ≤ x.toNat) :
    encode (.bytes b) = encodeLength b.length 0x80 ++ b := by
  match b, hb with
  | [x], hb =>
    have := hb x rfl
    simp only [encode, List.length_singleton]
    rw [if_neg (by omega)]
  | [], _ => simp [encode]
  | _ :: _ :: _, _ => simp [encode]

theorem decodeItem_bytes_header {fuel : ℕ} {b rest : List UInt8} (hlen : b.length < 2 ^ 64) :
    decodeItem (fuel + 1) (encodeLength b.length 0x80 ++ b ++ rest) = some (.bytes b, rest) := by
  obtain ⟨p, hd, he, hlo, hhi, hspan⟩ := @encodeLength_spec _ 0x80 hlen (by norm_num)
  simp only [he, List.cons_append, List.append_assoc]
  simp only [decodeItem, hspan, List.length_append]
  rw [if_neg (by omega), if_pos (by omega), if_pos (by omega)]
  simp

mutual
theorem decodeItem_encode :
    ∀ (fuel : ℕ) (i : Item) (rest : List UInt8), 2 * (encode i).length ≤ fuel →
      (encode i).length < 2 ^ 64 → decodeItem fuel (encode i ++ rest) = some (i, rest)
  | 0, i, _, hf, _ => absurd hf (by have := length_encode_pos i; omega)
  | fuel + 1, .bytes b, rest, _, hlen => by
    by_cases hsmall : ∃ x, b = [x] ∧ x.toNat < 0x80
    · obtain ⟨x, rfl, hx⟩ := hsmall
      have he : encode (.bytes [x]) = [x] := by
        rw [encode, if_pos hx]
      rw [he, List.singleton_append, decodeItem, if_pos hx]
    · have hb : ∀ x, b = [x] → 0x80 ≤ x.toNat := fun x hx => by
        by_contra hlt
        exact hsmall ⟨x, hx, by omega⟩
      rw [encode_bytes_of_header hb] at hlen ⊢
      exact decodeItem_bytes_header (by simp at hlen; omega)
  | fuel + 1, .list items, rest, hf, hlen => by
    have hl : (encodeList items).length < 2 ^ 64 := by
      simp only [encode, List.length_append] at hlen
      omega
    obtain ⟨p, hd, he, hlo, hhi, hspan⟩ := @encodeLength_spec _ 0xc0 hl (le_refl _)
    have hf' : 2 * (encodeList items).length + 1 ≤ fuel := by
      simp only [encode, he, List.length_append, List.length_cons] at hf
      omega
    simp only [encode, he, List.cons_append, List.append_assoc]
    simp only [decodeItem, hspan, List.length_append]
    rw [if_neg (by omega), if_neg (by omega), if_pos (by omega)]
    simp [decodeItems_encodeList fuel items hf' hl]
theorem decodeItems_encodeList :
    ∀ (fuel : ℕ) (items : List Item), 2 * (encodeList items).length + 1 ≤ fuel →
      (encodeList items).length < 2 ^ 64 → decodeItems fuel (encodeList items) = some items
  | _, [], _, _ => by simp [encodeList, decodeItems]
  | 0, _ :: _, hf, _ => absurd hf (by omega)
  | fuel + 1, i :: is, hf, hlen => by
    have hpos := length_encode_pos i
    have hi : (encode i).length < 2 ^ 64 := by
      simp only [encodeList, List.length_append] at hlen
      omega
    have his : (encodeList is).length < 2 ^ 64 := by
      simp only [encodeList, List.length_append] at hlen
      omega
    simp only [encodeList, List.length_append] at hf
    obtain ⟨x, xs, hx⟩ : ∃ x xs, encode i ++ encodeList is = x :: xs := by
      cases h : encode i with
      | nil => simp [h] at hpos
      | cons x xs => exact ⟨x, xs ++ encodeList is, rfl⟩
    simp only [encodeList]
    rw [hx, decodeItems, ← hx, decodeItem_encode fuel i (encodeList is) (by omega) hi]
    · simp only [decodeItems_encodeList fuel is (by omega) his, Option.map_some]
    · exact List.cons_ne_nil x xs
end

theorem encode_list_cons {items : List Item} (h : (encodeList items).length < 2 ^ 64) :
    ∃ p rest, encode (.list items) = p :: rest ∧ 0xc0 ≤ p.toNat := by
  obtain ⟨p, hd, he, hlo, -, -⟩ := @encodeLength_spec _ 0xc0 h (le_refl _)
  exact ⟨p, hd ++ encodeList items, by simp [encode, he], hlo⟩

theorem decode_encode {i : Item} (h : (encode i).length < 2 ^ 64) : decode (encode i) = .ok i := by
  unfold decode
  rw [← List.append_nil (encode i), decodeItem_encode _ i [] (by simp) h]

@[simp] theorem ite_nil_list {α : Type} (xs : List α) (f : α → Item) :
    (if xs = [] then Item.list [] else .list (xs.map f)) = .list (xs.map f) := by
  split <;> simp_all

end Blade.Lib.Rlp

namespace Blade.Lib

open Rlp

/-! ## A library of items

What a program uses of an RLP library: a parser and a writer, the arena's integer
constructors, and the getters that check a value's length or range. A value is an `Item`, so
`Bytes()` and `GetElems()` are its two projections; the null value and the null array are
the empty string and the empty list they are written as. -/

structure RlpOps where
  parse : List UInt8 → Except String Item
  marshalTo : Item → List UInt8
  newUint : ℕ → Item
  newBigInt : Option ℤ → Item
  getUint64 : Item → Except String UInt64
  getBigInt : Item → Except String ℕ
  getBytesOfLength : Item → (n : ℕ) → Except String { b : List UInt8 // b.length = n }
  getHash : Item → Except String { b : List UInt8 // b.length = 32 }
  getAddr : Item → Except String { b : List UInt8 // b.length = 20 }

/-- What a user of the library relies on: written items parse back, a list is written with a
list header, integers are written as their minimal big-endian bytes and read back, and each
fixed-length getter accepts a string of its length. -/
structure RlpOps.Lawful (rlp : RlpOps) : Prop where
  parse_marshalTo : ∀ i, (rlp.marshalTo i).length < 2 ^ 64 → rlp.parse (rlp.marshalTo i) = .ok i
  marshalTo_list : ∀ items, (rlp.marshalTo (.list items)).length < 2 ^ 64 →
    ∃ p rest, rlp.marshalTo (.list items) = p :: rest ∧ 0xc0 ≤ p.toNat
  newUint_eq : ∀ n, rlp.newUint n = .bytes (toBytesBE n)
  getUint64_bytes : ∀ b : List UInt8, b.length ≤ 8 →
    rlp.getUint64 (.bytes b) = .ok (UInt64.ofNat (ofBytesBE b))
  getBigInt_newBigInt : ∀ x, rlp.getBigInt (rlp.newBigInt (some x)) = .ok x.natAbs
  getBytesOfLength_bytes : ∀ n (b : { b : List UInt8 // b.length = n }),
    rlp.getBytesOfLength (.bytes b.val) n = .ok b
  getHash_bytes : ∀ b : { b : List UInt8 // b.length = 32 }, rlp.getHash (.bytes b.val) = .ok b
  getAddr_bytes : ∀ b : { b : List UInt8 // b.length = 20 }, rlp.getAddr (.bytes b.val) = .ok b

namespace RlpOps.Lawful

variable {rlp : RlpOps} (h : rlp.Lawful)
include h

theorem getUint64_newUint {n : ℕ} (hn : n < 2 ^ 64) :
    rlp.getUint64 (rlp.newUint n) = .ok (UInt64.ofNat n) := by
  rw [h.newUint_eq, h.getUint64_bytes _ (length_toBytesBE_le (by norm_num; omega)),
    ofBytesBE_toBytesBE]

theorem getUint64_newUint_toNat (n : UInt64) : rlp.getUint64 (rlp.newUint n.toNat) = .ok n := by
  rw [h.getUint64_newUint n.toNat_lt, UInt64.ofNat_toNat]

theorem newBigInt_ne {x y : ℤ} (hxy : x.natAbs ≠ y.natAbs) :
    rlp.newBigInt (some x) ≠ rlp.newBigInt (some y) := by
  intro he
  have hx := h.getBigInt_newBigInt x
  rw [he, h.getBigInt_newBigInt y] at hx
  exact hxy (Except.ok.inj hx).symm

theorem marshalTo_inj {i j : Item} (hi : (rlp.marshalTo i).length < 2 ^ 64)
    (he : rlp.marshalTo i = rlp.marshalTo j) : i = j := by
  have hj := h.parse_marshalTo j (he ▸ hi)
  rw [← he, h.parse_marshalTo i hi] at hj
  exact Except.ok.inj hj

end RlpOps.Lawful

namespace Rlp

/-- The library this file implements, with fastrlp's getters on the items it writes. -/
def ops : RlpOps where
  parse := decode
  marshalTo := encode
  newUint n := .bytes (toBytesBE n)
  newBigInt
    | some x => .bytes (toBytesBE x.natAbs)
    | none => .bytes []
  getUint64
    | .bytes b => if 8 < b.length then .error ("bytes " ++ toString b.length ++ " too long for uint64")
        else .ok (UInt64.ofNat (ofBytesBE b))
    | .list _ => .error "value is not of type bytes"
  getBigInt
    | .bytes b => .ok (ofBytesBE b)
    | .list _ => .error "value is not of type bytes"
  getBytesOfLength
    | .bytes b, n => if h : b.length = n then .ok ⟨b, h⟩
        else .error ("bad length, expected " ++ toString n ++ " but found " ++ toString b.length)
    | .list _, _ => .error "value is not of type bytes"
  getHash
    | .bytes b => if h : b.length = 32 then .ok ⟨b, h⟩ else .error "incorrect length"
    | .list _ => .error "value is not of type bytes"
  getAddr
    | .bytes b => if h : b.length = 20 then .ok ⟨b, h⟩ else .error "incorrect length"
    | .list _ => .error "value is not of type bytes"

theorem lawful_ops : ops.Lawful where
  parse_marshalTo _ hi := decode_encode hi
  marshalTo_list items hl := encode_list_cons (by simp only [ops, encode, List.length_append] at hl; omega)
  newUint_eq _ := rfl
  getUint64_bytes b hb := by simp [ops, not_lt.2 hb]
  getBigInt_newBigInt _ := by simp [ops, ofBytesBE_toBytesBE]
  getBytesOfLength_bytes _ b := by simp [ops, b.property]
  getHash_bytes b := by simp [ops, b.property]
  getAddr_bytes b := by simp [ops, b.property]

end Rlp

end Blade.Lib
