import HermesEnterprise.Security.Addresses
import HermesEnterprise.Inbound.Safety

/-! # Spellings of an address

What each parser accepts, and that the check of a spelling is the check of the address that it parses to.
-/
namespace HermesEnterprise.Security
open HermesEnterprise.Inbound HermesEnterprise.Foundation.Cidr
variable {value part dotted start : Text} {octets : Octets} {groups : List ℕ} {n : ℕ} {c : CodeUnit}

section Units

end Units

section Dotted

end Dotted

section Groups

end Groups

section Whole

end Whole

section Verdicts

end Verdicts
end HermesEnterprise.Security
