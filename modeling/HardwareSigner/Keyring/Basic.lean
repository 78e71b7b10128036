import HardwareSigner.Keyring.Signer
/-!
Keyrings: the signers handed out so far, one of which is shared by all who ask.  The shared signer
is connected when it is first asked for; a failed attempt leaves nothing behind.
-/

namespace HardwareSigner

structure Keyring (W σ : Type) where
  world : σ
  signers : List (Signer W)
  shared : Option Nat
  settings : Settings
  builder : Builder

namespace Keyring
variable {W σ α : Type}

def start (world : σ) (settings : Settings) (builder : Builder) : Keyring W σ :=
  ⟨world, [], none, settings, builder⟩

/-- Hands out a signer under the next number. -/
def add (signer : Signer W) (k : Keyring W σ) : Nat × Keyring W σ :=
  (k.signers.length, { k with signers := k.signers ++ [signer] })

/-- Connects one more signer. -/
def connect (host : Host W σ) (settings : Settings) : Action (Keyring W σ) Nat := fun k =>
  match Signer.connect host k.builder settings k.world with
  | (.error e, world) => (.error e, { k with world })
  | (.ok signer, world) =>
    let r := add signer { k with world }
    (.ok r.1, r.2)

/-- The shared signer, connected now if there is none. -/
def signer (host : Host W σ) : Action (Keyring W σ) Nat := fun k =>
  match k.shared with
  | some i => (.ok i, k)
  | none =>
    match connect host k.settings k with
    | (.error e, k) => (.error e, k)
    | (.ok i, k) => (.ok i, { k with shared := some i })

/-- Runs an operation of the signer with a number, if there is one. -/
def use? (i : Nat) (operation : Action (Signer W × σ) α) (k : Keyring W σ) :
    Option (Except Error α × Keyring W σ) :=
  k.signers[i]?.map fun signer =>
    let r := operation (signer, k.world)
    (r.1, { k with signers := k.signers.set i r.2.1, world := r.2.2 })

/-- Closes and forgets the shared signer; it is forgotten even if closing fails. -/
def reset (device : Device W σ) : Action (Keyring W σ) Unit := fun k =>
  match k.shared with
  | none => (.ok (), k)
  | some i =>
    let k := { k with shared := none }
    (use? i (Signer.close device) k).getD (.ok (), k)

def isConnected (k : Keyring W σ) : Bool :=
  k.shared.isSome

end Keyring

end HardwareSigner
