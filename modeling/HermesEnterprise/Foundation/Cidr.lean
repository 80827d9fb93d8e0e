import Mathlib.Data.Nat.Bitwise

/-! # Blocks of addresses

An address is a number, and a block fixes all but its last bits. A mask of the first bits compares the same
part of two addresses.
-/
namespace HermesEnterprise.Foundation.Cidr

/-- A block of addresses: those that agree with its base but for the last bits. -/
structure Block where
  base : ℕ
  hostBits : ℕ
  deriving DecidableEq, Repr

def Block.contains (b : Block) (address : ℕ) : Prop := address / 2 ^ b.hostBits = b.base / 2 ^ b.hostBits

instance (b : Block) (address : ℕ) : Decidable (b.contains address) := inferInstanceAs (Decidable (_ = _))

/-- The number that is written with these digits, the first one the highest. -/
def numberOf (radix : ℕ) (digits : List ℕ) : ℕ := digits.foldl (fun n d => n * radix + d) 0

end HermesEnterprise.Foundation.Cidr
