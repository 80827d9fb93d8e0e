import HermesEnterprise.Security.Spellings
import Mathlib.Tactic.NormNum

/-! # The ranges that are refused

The blocks that the refusals name, and the embeddings of IPv4 addresses, against what is refused. One IPv4 range
is tested by its first two octets only, and its refusals name a smaller block.
-/
namespace HermesEnterprise.Security
open HermesEnterprise.Inbound HermesEnterprise.Foundation.Cidr
variable {value value' range : Text} {octets : Octets} {groups : List ℕ} {n : ℕ}

section Ranges

/-- An embedding of IPv4 addresses: its block, and how many bits stand behind the address. -/
structure Embedding where
  via : Text
  block : Block
  shift : ℕ

def Embedding.inner (e : Embedding) (n : ℕ) : ℕ := n / 2 ^ e.shift % 2 ^ 32

def Octets.number (octets : Octets) : ℕ := numberOf 256 [octets.a,octets.b,octets.c,octets.d]

end Ranges

section Embeddings

end Embeddings

section Ipv4

end Ipv4

section Ipv6
variable {a b c d e f g i : ℕ}

end Ipv6

section Spelled

end Spelled
end HermesEnterprise.Security
