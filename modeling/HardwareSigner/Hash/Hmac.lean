import HardwareSigner.Hash.Sha2
/-! Keyed hashing over SHA-256 and SHA-512, and stretching of a password with it. -/

namespace HardwareSigner

/-- A hash function with the block size that keys are fitted to. -/
structure Digest where
  blockSize : Nat
  hash : Bytes → Bytes

def Digest.sha256 : Digest := ⟨64, Sha2.sha256⟩

def Digest.sha512 : Digest := ⟨128, Sha2.sha512⟩

namespace Hmac

/-- The key padded to one block; a longer key is hashed first. -/
def keyBlock (d : Digest) (key : Bytes) : Bytes :=
  let short := if key.length > d.blockSize then d.hash key else key
  short ++ List.replicate (d.blockSize - short.length) 0

def mac (d : Digest) (key message : Bytes) : Bytes :=
  let block := keyBlock d key
  let inner := d.hash (block.map (· ^^^ 0x36) ++ message)
  d.hash (block.map (· ^^^ 0x5c) ++ inner)

/-- Mixes further rounds into a running value, each one keyed over the round before. -/
def stretch (d : Digest) (password : Bytes) : Nat → (last mixed : Bytes) → Bytes
  | 0, _, mixed => mixed
  | rounds + 1, last, mixed =>
    let next := mac d password last
    stretch d password rounds next (List.zipWith (· ^^^ ·) mixed next)

/-- One block of a password stretched over a number of rounds, at least one. -/
def pbkdf2 (d : Digest) (password salt : Bytes) (rounds : Nat) : Bytes :=
  let first := mac d password (salt ++ [0, 0, 0, 1])
  stretch d password (rounds - 1) first first

end Hmac

end HardwareSigner
