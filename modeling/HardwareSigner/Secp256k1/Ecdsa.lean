import HardwareSigner.Hash.Hmac
import HardwareSigner.Secp256k1.Key
/-!
Recoverable signatures over a hash, written `r`, `s` and one byte that tells which point `r` came
from.  The per-signature scalar is drawn from the key and the hash alone, so signing is a function.
-/

namespace HardwareSigner

/-- Why bytes are no signature, or why no key can be recovered from them. -/
inductive SignatureFault where
  | rejected
  | length (size : Nat)
  | recoveryId (value : UInt8)
  | emptyReply
  deriving DecidableEq

namespace SignatureFault

def message : SignatureFault → String
  | rejected => "signature error"
  | length size => "expected 65 bytes, got " ++ toString size
  | recoveryId value => "bad recovery id " ++ toString value.toNat
  | emptyReply => "empty signature reply"

end SignatureFault

namespace Ecdsa
open Secp256k1

/-- The state of the generator that yields candidate scalars. -/
structure Generator where
  key : Bytes
  value : Bytes

namespace Generator

def mac (key message : Bytes) : Bytes := Hmac.mac .sha256 key message

def feed (g : Generator) (mark : UInt8) (seed : Bytes) : Generator :=
  let key := mac g.key (g.value ++ mark :: seed)
  ⟨key, mac key g.value⟩

def seeded (seed : Bytes) : Generator :=
  ((Generator.mk (List.replicate 32 0) (List.replicate 32 1)).feed 0 seed).feed 1 seed

/-- The first candidate that is a secret scalar, among at most `tries`. -/
def draw? : (tries : Nat) → Generator → Option SecretKey
  | 0, _ => none
  | tries + 1, g =>
    let value := mac g.key g.value
    match SecretKey.ofNat? (Bytes.toNat value) with
    | some scalar => some scalar
    | none => draw? tries ((Generator.mk g.key value).feed 0 [])

end Generator

/-- A candidate falls outside the range about once in `2 ^ 128` draws. -/
def drawLimit : Nat := 16

def nonce? (key : SecretKey) (hash : Word) : Option SecretKey :=
  (Generator.seeded (key.bytes ++ hash.bytes)).draw? drawLimit

/-- Folds the values `27` and up, which count the same ids from 27, back to ids from 0. -/
def normalizeRecoveryId (v : UInt8) : UInt8 :=
  if v ≥ 27 then v - 27 else v

/-- The signature that comes of a scalar; `s` is kept in the lower half of its range. -/
def signWith (key : SecretKey) (hash : Word) (k : SecretKey) : Except SignatureFault Bytes :=
  let point := k.publicKey.point
  let r := point.x % order
  let s := invMod order k.scalar * ((hash.toNat + r * key.scalar) % order) % order
  if r = 0 ∨ s = 0 then .error .rejected
  else
    let high := s > order / 2
    let odd := (point.y % 2 == 1) != high
    let id : UInt8 := (if odd then 1 else 0) + (if point.x ≥ order then 2 else 0)
    .ok (Bytes.ofNat 32 r ++ Bytes.ofNat 32 (if high then order - s else s) ++ [id])

def sign (key : SecretKey) (hash : Word) : Except SignatureFault Bytes :=
  (nonce? key hash).elim (.error .rejected) (signWith key hash)

/-- The key under which `(r, s)` signs the hash, if `r` came from the given point. -/
def keyFrom? (hash : Word) (r s : Nat) (point : Point) : Option PublicKey :=
  let inverse := invMod order r
  let u := inverse * (order - hash.toNat % order) % order
  let v := inverse * s % order
  let sum := (Jacobian.mul u (.ofPoint basePoint)).add (Jacobian.mul v (.ofPoint point))
  if sum.z = 0 then none else some ⟨sum.toPoint⟩

/-- The key under which `(r, s)` with the given id signs the hash. -/
def recoverFrom? (hash : Word) (r s : Nat) (id : UInt8) : Option PublicKey :=
  if s > order / 2 then none
  else (Point.lift? (if id ≥ 2 then r + order else r) (id % 2 == 1)).bind (keyFrom? hash r s)

/-- The signer's key.  The scalars are looked at before the recovery id. -/
def recover (hash : Word) (signature : Bytes) : Except SignatureFault PublicKey :=
  if signature.length ≠ 65 then .error (.length signature.length)
  else
    let r := Bytes.toNat (signature.take 32)
    let s := Bytes.toNat ((signature.drop 32).take 32)
    let v := signature.getD 64 0
    if r = 0 ∨ order ≤ r ∨ s = 0 ∨ order ≤ s then .error .rejected
    else if normalizeRecoveryId v > 3 then .error (.recoveryId v)
    else (recoverFrom? hash r s (normalizeRecoveryId v)).elim (.error .rejected) .ok

end Ecdsa

end HardwareSigner
