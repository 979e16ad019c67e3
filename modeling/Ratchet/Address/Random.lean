import Ratchet.Suite

/-!
# Random devices

A new device is named by a random UUID, so that no two devices need to agree on
their names.
-/

set_option autoImplicit false

namespace Ratchet

/-- A device named by sixteen random bytes. -/
def DeviceId.random : Attempt DeviceId :=
  DeviceId.ofRandom <$> Attempt.random 16 (.storage "entropy exhausted")

end Ratchet
