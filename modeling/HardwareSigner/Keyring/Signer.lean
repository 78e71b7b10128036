import HardwareSigner.Keyring.Session
import HardwareSigner.TypedData.Document
/-!
Signers, as a keyring sees them.  Every operation derives the account at its path anew, and tells of
a failure only what the operator can do about it.
-/

namespace HardwareSigner

/-- Makes typed data of the bytes that a keyring wants signed. -/
abbrev Builder := Bytes → Except Error TypedData

/-- The builder for bytes that are a document of typed data already. -/
def Builder.document : Builder := TypedData.ofBytes

structure Signer (W : Type) where
  session : Option (Session W)
  builder : Builder
  settings : Settings

namespace Signer
variable {W σ α : Type}

/-- The advice when the key asked for cannot be derived. -/
def keyAdvice : String := "unable to derive public key, please retry"

/-- The advice when the account of an address or a signature cannot be derived. -/
def addressAdvice : String :=
  "unable to derive Ledger address, please open the Ethereum app and retry"

/-- The notice before a signature is asked for. -/
def notice : String := "Generating payload, please check your Ledger..."

/-- A signer without a session refuses everything. -/
def disconnected (builder : Builder) : Signer W :=
  ⟨none, builder, .default⟩

def ofSession (session : Session W) (builder : Builder) : Signer W :=
  ⟨some session, builder, .default⟩

def connect (host : Host W σ) (builder : Builder) (settings : Settings) : Action σ (Signer W) :=
  (Session.connect host settings.session).andThen fun session s =>
    (.ok ⟨some session, builder, settings⟩, s)

def isConnected (signer : Signer W) : Bool :=
  signer.session.isSome

/-- Runs an operation of the session, if there is one. -/
def withSession (operation : String) (use : Action (Session W × σ) α) :
    Action (Signer W × σ) α := fun (signer, s) =>
  match signer.session with
  | none => (.error (.noSession operation), (signer, s))
  | some session =>
    let r := use (session, s)
    (r.1, ({ signer with session := some r.2.1 }, r.2.2))

/-- Opens the wallet if it is closed, whatever comes of it, and derives the account at a path. -/
def account (device : Device W σ) (path : Path) (advice : String) :
    Action (Session W × σ) Account := fun r =>
  match Session.derive device path (Session.reopen device r).2 with
  | (.ok account, r) => (.ok account, r)
  | (.error _, r) => (.error (.derivation advice), r)

def close (device : Device W σ) : Action (Signer W × σ) Unit :=
  withSession "close Ledger" (Session.close device)

/-- The uncompressed public key at a path. -/
def publicKey (device : Device W σ) (path : Path) : Action (Signer W × σ) Bytes :=
  withSession "get Ledger public key" <|
    (account device path keyAdvice).andThen fun account r =>
      (.ok account.publicKey.uncompressed, r)

/-- The public key and the bech32 address of an account. -/
def describe (hrp : String) (account : Account) : Except Error (Bytes × String) :=
  match account.address.toBech32 hrp with
  | .ok text => .ok (account.publicKey.uncompressed, text)
  | .error fault => .error (.encoding (Address.Bech32Fault.text fault))

/-- The public key at a path, and its address under a prefix. -/
def addressAndKey (device : Device W σ) (path : Path) (hrp : String) :
    Action (Signer W × σ) (Bytes × String) :=
  withSession "get Ledger address" <|
    (account device path addressAdvice).andThen fun account r => (describe hrp account, r)

/-- The account that the settings name. -/
def defaultAccount (device : Device W σ) : Action (Signer W × σ) (Bytes × String) :=
  fun (signer, s) => addressAndKey device signer.settings.hdPath signer.settings.hrp (signer, s)

def printAll (host : Host W σ) (lines : List String) (s : σ) : σ :=
  lines.foldl (fun s line => host.print line s) s

/-- Shows the hashes of typed data and has the wallet sign it; nothing unshown is signed. -/
def showAndSign (host : Host W σ) (account : Account) (typedData : TypedData) :
    Action (Session W × σ) Bytes := fun (session, s) =>
  match typedData.signingHashes with
  | .error e => (.error (.hashComputation e), (session, s))
  | .ok hashes =>
    match Session.sign host.toDevice account typedData (session, printAll host hashes.lines s) with
    | (.ok signature, r) => (.ok signature, r)
    | (.error e, r) => (.error (.signing e), r)

/-- Signs what the builder makes of a document, with the key at a path. -/
def sign (host : Host W σ) (path : Path) (document : Bytes) : Action (Signer W × σ) Bytes :=
  fun (signer, s) =>
    withSession "sign with Ledger"
      ((account host.toDevice path addressAdvice).andThen fun account r =>
        match signer.builder document with
        | .error e => (.error e, r)
        | .ok typedData => showAndSign host account typedData r)
      (signer, host.print notice s)

end Signer

end HardwareSigner
