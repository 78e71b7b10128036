import HardwareSigner.Apdu.Command
import HardwareSigner.Apdu.Response
import HardwareSigner.Device.Basic
/-! Links over which commands travel, and a link whose answers are written down beforehand. -/

namespace HardwareSigner

/-- The link to a device, with state `τ`. -/
structure Transport (τ : Type) where
  openLink : Action τ Unit
  closeLink : Action τ Unit
  exchange : Apdu.Command → Action τ Apdu.Response
  isConnected : τ → Bool

/-- Sends a command and looks at the status word of the answer. -/
def Transport.send {τ : Type} (t : Transport τ) (command : Apdu.Command) : Action τ Bytes :=
  (t.exchange command).andThen fun response s => (response.checked, s)

/-- Answers to come, in order, and the commands received so far. -/
structure Script where
  connected : Bool
  sent : List Bytes
  replies : List (Except Error Bytes)
  openErrors : List (Option Error)
  closeErrors : List (Option Error)

namespace Script

/-- Opening fails as written, or connects. -/
def openLink : Action Script Unit := fun s =>
  match s.openErrors with
  | some e :: rest => (.error e, { s with openErrors := rest })
  | none :: rest => (.ok (), { s with openErrors := rest, connected := true })
  | [] => (.ok (), { s with connected := true })

/-- Closing always disconnects. -/
def closeLink : Action Script Unit := fun s =>
  match s.closeErrors with
  | some e :: rest => (.error e, { s with closeErrors := rest, connected := false })
  | none :: rest => (.ok (), { s with closeErrors := rest, connected := false })
  | [] => (.ok (), { s with connected := false })

def exchange (command : Apdu.Command) : Action Script Apdu.Response := fun s =>
  let s := { s with sent := s.sent ++ [command.bytes] }
  match s.replies with
  | [] => (.error (.apdu Apdu.Fault.exhausted), s)
  | .error e :: rest => (.error e, { s with replies := rest })
  | .ok bs :: rest => (Apdu.Response.ofBytes bs, { s with replies := rest })

def transport : Transport Script where
  openLink := openLink
  closeLink := closeLink
  exchange := exchange
  isConnected := connected

end Script

end HardwareSigner
