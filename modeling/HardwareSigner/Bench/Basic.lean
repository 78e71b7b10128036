import HardwareSigner.Bench.Transcript
import HardwareSigner.Ledger.Wallet
import HardwareSigner.Software.Wallet
/-!
A bench with several devices on one host: software wallets, and Ledgers whose answers are written
down beforehand.  Handles made from one device act on the same device.
-/

namespace HardwareSigner

/-- A device on the bench. -/
inductive Station where
  | software (wallet : SoftwareWallet) (state : SoftwareWallet.State)
  | ledger (name : String) (script : Script)

/-- What the hub of the bench finds. -/
inductive HubReport where
  | absent
  | listing (stations : List Nat)
  | failing (cause : Error)

/-- A driver of the device with a given number. -/
inductive Handle where
  | software (station : Nat) (wallet : SoftwareWallet)
  | ledger (station : Nat) (driver : Ledger)

structure Bench where
  stations : List Station
  report : HubReport
  connects : Nat
  console : Transcript

/-- What is done to a device from outside. -/
inductive Control where
  | failOpen (fails : Bool)
  | failDerive (fails : Bool)
  | failSign (fails : Bool)
  | unplug
  | plugIn
  | pushReply (reply : Except Error Bytes)
  | pushOpenError (error : Option Error)
  | pushCloseError (error : Option Error)
  | drop

namespace Station

def softwareOf (w : SoftwareWallet) : Station := .software w .fresh

def label : Station → String
  | software w _ => w.label
  | ledger name _ => name

/-- A new driver for the device. -/
def handle (station : Nat) : Station → Handle
  | software w _ => .software station w
  | ledger name _ => .ledger station (.closed name)

/-- Controls that a device does not have do nothing. -/
def control : Control → Station → Station
  | .failOpen b, software w s => software w { s with failOpen := b }
  | .failDerive b, software w s => software w { s with failDerive := b }
  | .failSign b, software w s => software w { s with failSign := b }
  | .unplug, software w s => software w s.unplug
  | .plugIn, software w s => software w s.plugIn
  | .pushReply r, ledger name s => ledger name { s with replies := s.replies ++ [r] }
  | .pushOpenError e, ledger name s => ledger name { s with openErrors := s.openErrors ++ [e] }
  | .pushCloseError e, ledger name s => ledger name { s with closeErrors := s.closeErrors ++ [e] }
  | .drop, ledger name s => ledger name { s with connected := false }
  | _, station => station

/-- Forgets the commands that were shown. -/
def forgetSent : Station → Station
  | ledger name s => ledger name { s with sent := [] }
  | station => station

end Station

namespace Handle

def station : Handle → Nat
  | software i _ | ledger i _ => i

def label : Handle → String
  | software _ w => w.label
  | ledger _ l => l.label

end Handle

namespace Bench

def start (stations : List Station) (report : HubReport) : Bench :=
  ⟨stations, report, 0, .blank⟩

/-- A new driver for each device. -/
def handles (b : Bench) : List Handle :=
  b.stations.zipIdx.map fun p => p.1.handle p.2

def control (b : Bench) (station : Nat) (c : Control) : Bench :=
  { b with stations := b.stations.modify station (·.control c) }

/-- Puts one more device on the bench. -/
def add (b : Bench) (station : Station) : Handle × Bench :=
  (station.handle b.stations.length, { b with stations := b.stations ++ [station] })

/-- Lets a driver act on its device. -/
def act {α : Type} (software : Action (SoftwareWallet × SoftwareWallet.State) α)
    (ledger : Action (Ledger × Script) α) : Action (Handle × Bench) α := fun (h, b) =>
  match h, b.stations[h.station]? with
  | .software i w, some (.software w₀ s) =>
    let r := software (w, s)
    (r.1, (.software i r.2.1, { b with stations := b.stations.set i (.software w₀ r.2.2) }))
  | .ledger i l, some (.ledger name s) =>
    let r := ledger (l, s)
    (r.1, (.ledger i r.2.1, { b with stations := b.stations.set i (.ledger name r.2.2) }))
  | _, _ => (.error .walletClosed, (h, b))

def hub : Action Bench (Option (List Handle)) := fun b =>
  let next := { b with connects := b.connects + 1 }
  match b.report with
  | .absent => (.ok none, next)
  | .failing e => (.error e, next)
  | .listing is => (.ok (some (is.filterMap fun i => b.stations[i]?.map (·.handle i))), next)

def host : Host Handle Bench where
  label := Handle.label
  openChannel passphrase :=
    act (SoftwareWallet.device.openChannel passphrase)
      ((Ledger.device Script.transport).openChannel passphrase)
  closeChannel :=
    act SoftwareWallet.device.closeChannel (Ledger.device Script.transport).closeChannel
  derive path pin :=
    act (SoftwareWallet.device.derive path pin) ((Ledger.device Script.transport).derive path pin)
  sign account typedData :=
    act (SoftwareWallet.device.sign account typedData)
      ((Ledger.device Script.transport).sign account typedData)
  hub := hub
  print line b := { b with console := b.console.print line }

end Bench

end HardwareSigner
