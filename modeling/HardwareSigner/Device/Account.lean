import HardwareSigner.Address
import HardwareSigner.Path
/-! Accounts: keys as they were derived at a path. -/

namespace HardwareSigner

structure Account where
  publicKey : PublicKey
  address : Address
  path : Path
  deriving DecidableEq

/-- The account of a key at a path. -/
def Account.ofKey (key : PublicKey) (path : Path) : Account :=
  ⟨key, .ofPublicKey key, path⟩

end HardwareSigner
