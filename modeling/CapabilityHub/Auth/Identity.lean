import CapabilityHub.Data.Checks
import CapabilityHub.Text.Unicode

/-! # Authenticated identities -/

namespace CapabilityHub.Auth

/-- A field of an identity as `AuthIdentity.__post_init__` leaves it. -/
def SafeField (value : String) : Prop :=
  value ≠ "" ∧ value.length ≤ 256 ∧ value.toList.all fun character => !isSpace character

instance {value : String} : Decidable (SafeField value) :=
  inferInstanceAs (Decidable (_ ∧ _ ∧ _))

structure AuthIdentity where
  tenantId : String
  principalId : String
  source : String
  sessionId : String
  safe : SafeField tenantId ∧ SafeField principalId ∧ SafeField source ∧ SafeField sessionId
  deriving DecidableEq

end CapabilityHub.Auth
