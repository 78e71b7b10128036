import HardwareSigner.Device.Basic
import HardwareSigner.Software.ExtendedKey
import HardwareSigner.Software.Mnemonic
/-!
A wallet in software that behaves like a device: it has to be opened, it can be unplugged, and it
can be told to fail.
-/

namespace HardwareSigner

/-- A wallet's name and the root of its keys, which never change. -/
structure SoftwareWallet where
  label : String
  master : ExtendedKey
  deriving DecidableEq

namespace SoftwareWallet

/-- How often each operation was asked for, successful or not. -/
structure Counts where
  opens : Nat
  closes : Nat
  derives : Nat
  signs : Nat
  deriving DecidableEq

/-- What all handles on a wallet share. -/
structure State where
  isOpen : Bool
  unplugged : Bool
  failOpen : Bool
  failDerive : Bool
  failSign : Bool
  counts : Counts
  pinned : List Path
  deriving DecidableEq

def State.fresh : State :=
  ⟨false, false, false, false, false, ⟨0, 0, 0, 0⟩, []⟩

/-- Pulling the plug closes the wallet; what is pinned stays. -/
def State.unplug (s : State) : State :=
  { s with isOpen := false, unplugged := true }

def State.plugIn (s : State) : State :=
  { s with unplugged := false }

def ofSeed (seed : Bytes) : Except Error SoftwareWallet :=
  ((ExtendedKey.master seed).map (SoftwareWallet.mk "memory")).mapError fun fault =>
    .keyDerivation (.known fault)

def ofMnemonic (phrase : String) : Except Error SoftwareWallet :=
  match Mnemonic.seed phrase with
  | .ok seed => ofSeed seed
  | .error fault => .error (.keyDerivation fault)

/-- The same keys under another name; its state is another one. -/
def withLabel (w : SoftwareWallet) (label : String) : SoftwareWallet :=
  { w with label }

def keyAt (w : SoftwareWallet) (path : Path) : Except Error SecretKey :=
  match w.master.derive path with
  | .ok key => .ok key
  | .error fault => .error (.keyDerivation fault)

def accountAt (w : SoftwareWallet) (path : Path) : Except Error Account :=
  (w.keyAt path).map fun key => .ofKey key.publicKey path

def State.open? (s : State) : Except Error State :=
  if s.unplugged then .error (.connectionFailed "device disconnected")
  else if s.failOpen then .error (.connectionFailed "simulated open failure")
  else if s.isOpen then .error .walletAlreadyOpen
  else .ok { s with isOpen := true }

def State.pin (s : State) (path : Path) : State :=
  if path ∈ s.pinned then s else { s with pinned := s.pinned ++ [path] }

def openChannel : Action (SoftwareWallet × State) Unit := fun (w, s) =>
  let s := { s with counts.opens := s.counts.opens + 1 }
  match s.open? with
  | .ok s => (.ok (), (w, s))
  | .error e => (.error e, (w, s))

def closeChannel : Action (SoftwareWallet × State) Unit := fun (w, s) =>
  (.ok (), (w, { s with counts.closes := s.counts.closes + 1, isOpen := false, pinned := [] }))

/-- A path is pinned before its key is looked for. -/
def derive (path : Path) (pin : Bool) : Action (SoftwareWallet × State) Account := fun (w, s) =>
  let s := { s with counts.derives := s.counts.derives + 1 }
  if !s.isOpen then (.error .walletClosed, (w, s))
  else if s.failDerive then (.error .appNotOpen, (w, s))
  else (w.accountAt path, (w, if pin then s.pin path else s))

/-- The signature of an account's own key over the digest. -/
def signature (w : SoftwareWallet) (account : Account) (typedData : TypedData) :
    Except Error Bytes :=
  match w.keyAt account.path with
  | .error e => .error e
  | .ok key =>
    if key.publicKey ≠ account.publicKey then
      .error (.invalidPublicKey (PublicKeyFault.foreignAccount account.address))
    else
      match typedData.signingHash with
      | .error e => .error e
      | .ok digest => (Ecdsa.sign key digest).mapError fun fault => .invalidSignature (.known fault)

def sign (account : Account) (typedData : TypedData) : Action (SoftwareWallet × State) Bytes :=
  fun (w, s) =>
    let s := { s with counts.signs := s.counts.signs + 1 }
    if !s.isOpen then (.error .walletClosed, (w, s))
    else if s.failSign then (.error .userDenied, (w, s))
    else (w.signature account typedData, (w, s))

def device : Device SoftwareWallet State where
  label := label
  openChannel _ := openChannel
  closeChannel := closeChannel
  derive := derive
  sign := sign

end SoftwareWallet

end HardwareSigner
