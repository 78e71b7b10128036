import HardwareSigner.Error
/-! Trees of secret keys: every node yields a child for each index. -/

namespace HardwareSigner

/-- A node: its key, and the code that its children depend on too. -/
structure ExtendedKey where
  key : SecretKey
  chainCode : Word
  deriving DecidableEq

namespace ExtendedKey
open Secp256k1

/-- Splits a digest into a number to be added to the parent's key, and a chain code. -/
def ofDigest (digest : Bytes) (parent : Nat) : Except DerivationFault ExtendedKey :=
  let tweak := Bytes.toNat (digest.take 32)
  if order ≤ tweak then .error .tweakOutOfRange
  else
    match SecretKey.ofNat? ((tweak + parent) % order) with
    | none => .error .zeroKey
    | some key => .ok ⟨key, .padRight (digest.drop 32)⟩

/-- The root of the tree that a seed stands for. -/
def master (seed : Bytes) : Except DerivationFault ExtendedKey :=
  ofDigest (Hmac.mac .sha512 (Bytes.ofString "Bitcoin seed") seed) 0

/-- What a child is made of: the secret key for a hardened index, else the public one. -/
def childData (node : ExtendedKey) (index : UInt32) : Bytes :=
  (if Path.isHardened index then 0x00 :: node.key.bytes else node.key.publicKey.compressed)
    ++ Bytes.ofNat 4 index.toNat

def child (node : ExtendedKey) (index : UInt32) : Except DerivationFault ExtendedKey :=
  ofDigest (Hmac.mac .sha512 node.chainCode.bytes (node.childData index)) node.key.scalar

/-- The node at the end of a path. -/
def descend (node : ExtendedKey) : List UInt32 → Except DerivationFault ExtendedKey
  | [] => .ok node
  | index :: rest =>
    match node.child index with
    | .error fault => .error fault
    | .ok next => next.descend rest

def derive (node : ExtendedKey) (path : Path) : Except DerivationFault SecretKey :=
  (node.descend path.indices).map key

end ExtendedKey

end HardwareSigner
