import HardwareSigner.Device.Transport
import HardwareSigner.Ledger.Message
/-!
The wallet that the Ethereum app on a Ledger makes.  It counts as open while a version is known and
the link stands; the app signs typed data from its hashes alone.
-/

namespace HardwareSigner

/-- What the driver knows of its device. -/
structure Ledger where
  name : String
  version : Option AppVersion
  pinned : List (Address × Path)
  deriving DecidableEq

namespace Ledger
open Apdu (Command)

def closed (name : String) : Ledger := ⟨name, none, []⟩

def label (l : Ledger) : String :=
  match l.version with
  | some v => l.name ++ " (Ethereum app " ++ v.display ++ ")"
  | none => l.name

/-- Remembers the path of an address, in place of an earlier one. -/
def pinPath (l : Ledger) (address : Address) (path : Path) : Ledger :=
  { l with pinned := (address, path) :: l.pinned.filter (·.1 ≠ address) }

def configurationIns : UInt8 := 0x06

def publicKeyIns : UInt8 := 0x02

def signIns : UInt8 := 0x0C

def configurationCommand : Command :=
  ⟨Command.ethereumClass, configurationIns, 0, 0, [], by simp⟩

def command (ins : UInt8) (data : Bytes) : Except Error Command :=
  match Command.ethereum ins 0 0 data with
  | .ok c => .ok c
  | .error fault => .error (.apdu fault)

section
variable {τ : Type} (t : Transport τ)

/-- The version, while the wallet is open. -/
def openVersion? (l : Ledger) (s : τ) : Option AppVersion :=
  if t.isConnected s then l.version else none

def readVersion : Action τ AppVersion :=
  (t.send configurationCommand).andThen fun reply s => (versionOfReply reply, s)

/-- A link over which no version can be read is closed again; a version known before stays. -/
def openChannel : Action (Ledger × τ) Unit := fun (l, s) =>
  match openVersion? t l s with
  | some _ => (.error .walletAlreadyOpen, (l, s))
  | none =>
    match t.openLink s with
    | (.error e, s) => (.error e, (l, s))
    | (.ok (), s) =>
      match readVersion t s with
      | (.ok v, s) => (.ok (), ({ l with version := some v }, s))
      | (.error e, s) => (.error e, (l, (t.closeLink s).2))

def closeChannel : Action (Ledger × τ) Unit := fun (l, s) =>
  let r := t.closeLink s
  (r.1, (closed l.name, r.2))

/-- The command that asks for the key at a path. -/
def publicKeyCommand (path : Path) : Except Error Command :=
  match encodePath path with
  | .error e => .error e
  | .ok data => command publicKeyIns data

/-- The account in a reply, whose address must be that of its key. -/
def accountOfReply (path : Path) (reply : Bytes) : Except Error Account :=
  match keyOfReply reply with
  | .error e => .error e
  | .ok (key, reported) =>
    let account := Account.ofKey key path
    if account.address = reported then .ok account
    else .error (.malformedResponse (Apdu.ResponseFault.addressMismatch reported account.address))

def derive (path : Path) (pin : Bool) : Action (Ledger × τ) Account := fun (l, s) =>
  match openVersion? t l s with
  | none => (.error .walletClosed, (l, s))
  | some _ =>
    match publicKeyCommand path with
    | .error e => (.error e, (l, s))
    | .ok c =>
      match t.send c s with
      | (.error e, s) => (.error e, (l, s))
      | (.ok reply, s) =>
        match accountOfReply path reply with
        | .error e => (.error e, (l, s))
        | .ok account =>
          (.ok account, (if pin then l.pinPath account.address path else l, s))

/-- The path that an account signs at: the one pinned for its address comes first. -/
def signingPath (l : Ledger) (account : Account) : Path :=
  (l.pinned.lookup account.address).getD account.path

/-- The command that asks for a signature over two hashes. -/
def signCommand (path : Path) (typedData : TypedData) : Except Error Command :=
  match typedData.signingHashes with
  | .error e => .error e
  | .ok hashes =>
    match encodePath path with
    | .error e => .error e
    | .ok data => command signIns (data ++ hashes.domain.bytes ++ hashes.message.bytes)

def sign (account : Account) (typedData : TypedData) : Action (Ledger × τ) Bytes := fun (l, s) =>
  match openVersion? t l s with
  | none => (.error .walletClosed, (l, s))
  | some v =>
    if v.signsTypedData then
      match signCommand (l.signingPath account) typedData with
      | .error e => (.error e, (l, s))
      | .ok c =>
        match t.send c s with
        | (.error e, s) => (.error e, (l, s))
        | (.ok reply, s) => (signatureOfReply reply, (l, s))
    else (.error (.apdu (Apdu.Fault.outdatedApp v)), (l, s))

/-- The device that a Ledger behind a link is. -/
def device : Device Ledger τ where
  label := label
  openChannel _ := openChannel t
  closeChannel := closeChannel t
  derive := derive t
  sign := sign t

end

end Ledger

end HardwareSigner
