import Mathlib.Algebra.GroupWithZero.Nat

/-!
The 256-bit words of the EVM and `types.Hash` are `Fin (2 ^ 256)`, and `types.Address` is
`Fin (2 ^ 160)`; their numerals need the bound to be nonzero. The two instances are declared
once, by name, so that the numerals of every module that uses these types rest on these proofs
rather than each on a proof of its own.
-/

namespace Blade.Lib

instance twoPow256NeZero : NeZero (2 ^ 256 : ℕ) := ⟨Nat.pos_iff_ne_zero.mp (Nat.two_pow_pos 256)⟩

instance twoPow160NeZero : NeZero (2 ^ 160 : ℕ) := ⟨Nat.pos_iff_ne_zero.mp (Nat.two_pow_pos 160)⟩

end Blade.Lib
