import Blade.Types.Transaction
import Mathlib.Data.Int.GCD

/-!
Hashing a message to a point of BN254's G1 for BLS signatures (`bls/arithmetic.go`).

`expandMsgSHA256XMD` stretches the message as `expand_message_xmd`; `hashToFpXMDSHA256` cuts it
into 48-byte chunks and reduces each modulo the field prime, but keeps a chunk equal to the
modulus as it is; `mapToPoint` is the Shallue-van de Woestijne map of the Solidity code in its
comments, and `hashToPoint` adds the points of the two field elements.

SHA-256 is the parameter `sha256`, `big.Int`'s `ModSqrt` modulo the prime the parameter
`modSqrt`, and the G1 decoding and addition of `go-eth-bn256` the parameters `unmarshal` and
`add`. `ModInverse` is modelled: it returns nil for a value without inverse, where the Solidity
code's `inverse` (an exponentiation by `p - 2`) returns zero, and the next `mulmod` then
dereferences the nil. So `mapToPoint` panics on every multiple of the prime, the field element
zero among them.
-/

namespace Blade

def Common.padLeftOrTrim (bb : List UInt8) (size : ℕ) : List UInt8 :=
  if bb.length = size then bb
  else if bb.length > size then bb.drop (bb.length - size)
  else List.replicate (size - bb.length) 0 ++ bb

namespace Bls

open Lib.Rlp

/-- How a function of the package ends besides returning: an error it returns, or a run-time
panic. -/
inductive BlsError
  | error (msg : String)
  | nilDereference
  | sliceBoundsOutOfRange
  | indexOutOfRange
  deriving DecidableEq, Repr

def z0 : ℕ := 0x0000000000000000b3c4d79d41a91759a9e4c7e359b6b89eaec68e62effffffd

def z1 : ℕ := 0x000000000000000059e26bcea0d48bacd4f263f1acdb5c4f5763473177fffffe

def pPrime : ℕ := 21888242871839275222246405745257275088696311157297823662689037894645226208583

def modulus : ℕ := 0x30644e72e131a029b85045b68181585d97816a916871ca8d3c208c16d87cfd47

def mulmod (x y n : ℕ) : ℕ := x * y % n

def addmod (x y n : ℕ) : ℕ := (x + y) % n

/-- `ModInverse`: nil when `x` and `n` are not coprime. -/
def inversemod (x n : ℕ) : Option ℕ :=
  if Nat.gcd x n = 1 then some (Nat.gcdA x n % n).toNat else none

section HashToPoint

variable (sha256 : List UInt8 → Hash) (modSqrt : ℕ → Option ℕ)

/-- The blocks `b_1 ‖ … ‖ b_ell` of `expandMsgSHA256XMD`: `bi` is the block of index `i`, and
`rest` blocks follow it. -/
def expandBlocks (b0 dstPrime : List UInt8) : ℕ → ℕ → Hash → List UInt8
  | 0, _, bi => bi.bytes
  | rest + 1, i, bi =>
    bi.bytes ++ expandBlocks b0 dstPrime rest (i + 1)
      (sha256 (List.zipWith (· ^^^ ·) b0 bi.bytes ++ [1 + i.toUInt8] ++ dstPrime))

def expandMsgSHA256XMD (msg domain : List UInt8) (outLen : ℕ) : Except BlsError (List UInt8) :=
  if domain.length > 255 then .error (.error "invalid domain length")
  else
    let domainLen := domain.length.toUInt8
    let dstPrime := domain ++ [domainLen]
    let b0 := (sha256 (List.replicate 64 (0 : UInt8) ++ msg ++
      [(outLen >>> 8).toUInt8, outLen.toUInt8] ++ [0] ++ dstPrime)).bytes
    let b1 := sha256 (b0 ++ [1] ++ dstPrime)
    let ell := (outLen + 32 - 1) / 32
    -- the last block is copied to `out[(ell - 1) * 32:]`, out of range when `ell` is zero
    if ell = 0 then .error .sliceBoundsOutOfRange
    else .ok ((expandBlocks sha256 b0 dstPrime (ell - 1) 1 b1).take outLen)

/-- The field element of one 48-byte chunk: reduced modulo the prime, except on the fast path,
which keeps a chunk equal to the modulus. -/
def chunkToField (chunk : List UInt8) : ℕ :=
  let num := ofBytesBE chunk
  if num = modulus then num
  else if num < modulus then num
  else num % modulus

def hashToFpXMDSHA256 (msg domain : List UInt8) (count : ℕ) : Except BlsError (List ℕ) := do
  let randBytes ← expandMsgSHA256XMD sha256 msg domain (count * 48)
  return (List.range count).map fun i => chunkToField ((randBytes.drop (i * 48)).take 48)

/-- `sqrt`: the root that `ModSqrt` gives, when it squares back to `xx`. -/
def sqrt (xx : ℕ) : Option ℕ :=
  match modSqrt xx with
  | some x => if mulmod x x pPrime = xx then some x else none
  | none => none

/-- The ordinate of `mapToPoint` for the abscissa `x`, negated unless the input was a square. -/
def curveOrdinate (decision : Bool) (x : ℕ) : Option ℕ :=
  (sqrt modSqrt (addmod (mulmod (mulmod x x pPrime) x pPrime) 3 pPrime)).map fun y =>
    if decision then y else pPrime - y

/-- `mapToPoint` from the inverse `a2` of `a1 * a0` on, where `a0 = x ^ 2 + 4` and `a1 = x * z0`:
the three abscissae in turn, the first on the curve taken. -/
def mapToPointOfInverse (decision : Bool) (x a0 a1 : ℕ) : Option ℕ → Except BlsError (ℕ × ℕ)
  -- `mulmod(a1, a2, pPrime)` dereferences the nil inverse
  | none => .error .nilDereference
  | some a2 =>
    let a1 := mulmod (mulmod a1 a1 pPrime) a2 pPrime
    let x1 := addmod z1 (pPrime - mulmod x a1 pPrime) pPrime
    match curveOrdinate modSqrt decision x1 with
    | some y => .ok (x1, y)
    | none =>
      let x2 := pPrime - addmod x1 1 pPrime
      match curveOrdinate modSqrt decision x2 with
      | some y => .ok (x2, y)
      | none =>
        let x3 := addmod (mulmod (mulmod (mulmod (mulmod a0 a0 pPrime) (mulmod a0 a0 pPrime)
          pPrime) a2 pPrime) a2 pPrime) 1 pPrime
        match curveOrdinate modSqrt decision x3 with
        | some y => .ok (x3, y)
        | none => .error (.error "bad ft mapping implementation")

def mapToPoint (x : ℕ) : Except BlsError (ℕ × ℕ) :=
  let a0 := addmod (mulmod x x pPrime) 4 pPrime
  let a1 := mulmod x z0 pPrime
  mapToPointOfInverse modSqrt (sqrt modSqrt x).isSome x a0 a1
    (inversemod (mulmod a1 a0 pPrime) pPrime)

variable {G1 : Type} (unmarshal : List UInt8 → Except String G1) (add : G1 → G1 → G1)

def mapToG1Point (b : ℕ) : Except BlsError G1 := do
  let (xx, yy) ← mapToPoint modSqrt b
  let pointBytes := Common.padLeftOrTrim (toBytesBE xx) 32 ++ Common.padLeftOrTrim (toBytesBE yy) 32
  (unmarshal pointBytes).mapError .error

/-- `hashToPoint` from the field elements on: `res[0]` and `res[1]` mapped and added. -/
def hashToPointOfElements : List ℕ → Except BlsError G1
  | [a, b] => do
    let g1 ← mapToG1Point modSqrt unmarshal a
    let g2 ← mapToG1Point modSqrt unmarshal b
    return add g1 g2
  | _ => .error .indexOutOfRange

def hashToPoint (msg domain : List UInt8) : Except BlsError G1 := do
  let res ← hashToFpXMDSHA256 sha256 msg domain 2
  hashToPointOfElements modSqrt unmarshal add res

theorem modulus_eq_pPrime : modulus = pPrime := by decide

/-- The fast path keeps a chunk equal to the modulus, which is not a field element. -/
theorem chunkToField_of_modulus {chunk : List UInt8} (h : ofBytesBE chunk = modulus) :
    chunkToField chunk = pPrime := by
  simp [chunkToField, h, modulus_eq_pPrime]

theorem inversemod_zero : inversemod 0 pPrime = none := by
  rw [inversemod, if_neg]
  rw [Nat.gcd_zero_left]
  decide

/-- `mapToPoint` panics on every multiple of the prime: the denominator of the map is zero there,
and `ModInverse` returns nil for it. -/
theorem mapToPoint_of_dvd {x : ℕ} (hx : pPrime ∣ x) : mapToPoint modSqrt x = .error .nilDereference := by
  have ha1 : mulmod x z0 pPrime = 0 :=
    Nat.mod_eq_zero_of_dvd (Nat.dvd_trans hx (Nat.dvd_mul_right x z0))
  have ha2 : mulmod 0 (addmod (mulmod x x pPrime) 4 pPrime) pPrime = 0 := by
    rw [mulmod, Nat.zero_mul, Nat.zero_mod]
  rw [mapToPoint, ha1, ha2, inversemod_zero, mapToPointOfInverse]

theorem mapToG1Point_of_dvd {x : ℕ} (hx : pPrime ∣ x) :
    mapToG1Point modSqrt unmarshal x = .error .nilDereference := by
  simp only [mapToG1Point, mapToPoint_of_dvd modSqrt hx]
  rfl

theorem hashToPoint_eq {msg domain : List UInt8} {a b : ℕ}
    (hres : hashToFpXMDSHA256 sha256 msg domain 2 = .ok [a, b]) :
    hashToPoint sha256 modSqrt unmarshal add msg domain =
      hashToPointOfElements modSqrt unmarshal add [a, b] := by
  simp only [hashToPoint, hres, bind, Except.bind]

/-- `hashToPoint` panics when either field element of the message is a multiple of the prime,
the second one once the point of the first decodes. -/
theorem hashToPoint_panics_on_zero_element :
    (∀ x, pPrime ∣ x → mapToPoint modSqrt x = .error .nilDereference) ∧
      ∀ msg domain a b, hashToFpXMDSHA256 sha256 msg domain 2 = .ok [a, b] →
        (pPrime ∣ a → hashToPoint sha256 modSqrt unmarshal add msg domain = .error .nilDereference) ∧
        (∀ g1, mapToG1Point modSqrt unmarshal a = .ok g1 → pPrime ∣ b →
          hashToPoint sha256 modSqrt unmarshal add msg domain = .error .nilDereference) := by
  refine ⟨fun x hx => mapToPoint_of_dvd modSqrt hx, fun msg domain a b hres => ⟨fun ha => ?_,
    fun g1 hg1 hb => ?_⟩⟩
  · rw [hashToPoint_eq sha256 modSqrt unmarshal add hres, hashToPointOfElements,
      mapToG1Point_of_dvd modSqrt unmarshal ha]
    simp only [bind, Except.bind]
  · rw [hashToPoint_eq sha256 modSqrt unmarshal add hres, hashToPointOfElements, hg1,
      mapToG1Point_of_dvd modSqrt unmarshal hb]
    simp only [bind, Except.bind]

/-- The field element zero, a multiple of the prime, makes `mapToPoint` panic, with a square
root that finds none: the panic comes before any square root is taken. -/
theorem hashToPoint_panics_on_zero_element_mapZero :
    pPrime ∣ 0 ∧ mapToPoint (fun _ => none) 0 = .error .nilDereference :=
  ⟨dvd_zero _, (hashToPoint_panics_on_zero_element (fun _ => 0) (fun _ => none)
    (fun _ => (.ok () : Except String Unit)) (fun _ _ => ())).1 0 (dvd_zero _)⟩

end HashToPoint

end Bls

end Blade
