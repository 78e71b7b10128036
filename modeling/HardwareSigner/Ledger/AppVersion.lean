/-! Versions of the Ethereum app on a device. -/

namespace HardwareSigner

structure AppVersion where
  major : UInt8
  minor : UInt8
  patch : UInt8
  deriving DecidableEq

namespace AppVersion

def display (v : AppVersion) : String :=
  "v" ++ toString v.major.toNat ++ "." ++ toString v.minor.toNat ++ "." ++ toString v.patch.toNat

/-- Major before minor before patch. -/
def compare (v w : AppVersion) : Ordering :=
  (Ord.compare v.major.toNat w.major.toNat).then
    ((Ord.compare v.minor.toNat w.minor.toNat).then (Ord.compare v.patch.toNat w.patch.toNat))

/-- The first version that signs typed data from its hashes. -/
def minTypedData : AppVersion := ⟨1, 5, 0⟩

def signsTypedData (v : AppVersion) : Bool :=
  (v.compare minTypedData).isGE

end AppVersion

end HardwareSigner
