import HardwareSigner.Bytes
import HardwareSigner.Secp256k1.Curve
/-! Public and secret keys and their byte forms. -/

namespace HardwareSigner

/-- A point that is somebody's key. -/
structure PublicKey where
  point : Secp256k1.Point
  deriving DecidableEq

namespace PublicKey
open Secp256k1

/-- The mark `04` and both coordinates: the form that a keyring keeps. -/
def uncompressed (key : PublicKey) : Bytes :=
  0x04 :: (Bytes.ofNat 32 key.point.x ++ Bytes.ofNat 32 key.point.y)

/-- The abscissa behind a mark for the parity of the ordinate. -/
def compressed (key : PublicKey) : Bytes :=
  (if key.point.y % 2 = 0 then 0x02 else 0x03) :: Bytes.ofNat 32 key.point.x

/-- Reads either form; the mark `05` stands for an even ordinate too. -/
def ofBytes? : Bytes → Option PublicKey
  | [] => none
  | mark :: body =>
    if mark = 0x04 ∧ body.length = 64 then
      let point : Point := ⟨Bytes.toNat (body.take 32), Bytes.toNat (body.drop 32)⟩
      if point.onCurve then some ⟨point⟩ else none
    else if (mark = 0x02 ∨ mark = 0x03 ∨ mark = 0x05) ∧ body.length = 32 then
      (Point.lift? (Bytes.toNat body) (mark == 0x03)).map PublicKey.mk
    else none

end PublicKey

/-- A secret scalar. -/
structure SecretKey where
  scalar : Nat
  pos : 0 < scalar
  lt : scalar < Secp256k1.order
  deriving DecidableEq

namespace SecretKey
open Secp256k1

def ofNat? (scalar : Nat) : Option SecretKey :=
  if h : 0 < scalar ∧ scalar < order then some ⟨scalar, h.1, h.2⟩ else none

def bytes (key : SecretKey) : Bytes :=
  Bytes.ofNat 32 key.scalar

def publicKey (key : SecretKey) : PublicKey :=
  ⟨(Jacobian.mul key.scalar (.ofPoint basePoint)).toPoint⟩

end SecretKey

end HardwareSigner
