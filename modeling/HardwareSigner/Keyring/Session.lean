import HardwareSigner.Device.Basic
import HardwareSigner.Settings
/-!
Sessions: the first wallet of a hub, opened once and opened again whenever it may have closed.  A
wallet that is open refuses to be opened, so the attempt is always made and its outcome reported.
-/

namespace HardwareSigner

/-- Whether the wallet was last seen open. -/
inductive SessionState where
  | opened
  | closed
  deriving DecidableEq

structure Session (W : Type) where
  wallet : W
  label : String
  state : SessionState
  settings : SessionSettings
  deriving DecidableEq

/-- How an attempt to open the wallet again went. -/
inductive Reopening where
  | reopened
  | alreadyOpen
  | failed (cause : Error)
  deriving DecidableEq

namespace Session
variable {W σ : Type}

/-- The first wallet that the hub lists. -/
def firstWallet (host : Host W σ) : Action σ W := fun s =>
  match host.hub s with
  | (.error e, s) => (.error (.hubInit e.message), s)
  | (.ok (some (w :: _)), s) => (.ok w, s)
  | (.ok _, s) => (.error .noWallet, s)

def connect (host : Host W σ) (settings : SessionSettings) : Action σ (Session W) :=
  (firstWallet host).andThen fun w s =>
    match host.openChannel settings.passphrase (w, s) with
    | (.error e, (_, s)) => (.error (.walletOpen e), s)
    | (.ok (), (w, s)) => (.ok ⟨w, host.label w, .opened, settings⟩, s)

/-- Runs an operation of the wallet. -/
def run {α : Type} (operation : Action (W × σ) α) : Action (Session W × σ) α :=
  fun (session, s) =>
    let r := operation (session.wallet, s)
    (r.1, ({ session with wallet := r.2.1 }, r.2.2))

/-- Opens the wallet if it is closed; failure is an outcome like others. -/
def reopen (device : Device W σ) : Session W × σ → Reopening × (Session W × σ) :=
  fun (session, s) =>
    match run (device.openChannel session.settings.passphrase) (session, s) with
    | (.ok (), (session, s)) => (.reopened, ({ session with state := .opened }, s))
    | (.error .walletAlreadyOpen, r) => (.alreadyOpen, r)
    | (.error e, r) => (.failed e, r)

def derive (device : Device W σ) (path : Path) : Action (Session W × σ) Account :=
  fun (session, s) => run (device.derive path session.settings.pinDerivations) (session, s)

def sign (device : Device W σ) (account : Account) (typedData : TypedData) :
    Action (Session W × σ) Bytes :=
  run (device.sign account typedData)

/-- A session closed before does not touch its wallet; after this one it counts as closed. -/
def close (device : Device W σ) : Action (Session W × σ) Unit := fun (session, s) =>
  match session.state with
  | .closed => (.ok (), (session, s))
  | .opened => run device.closeChannel ({ session with state := .closed }, s)

end Session

end HardwareSigner
