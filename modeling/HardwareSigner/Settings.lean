import HardwareSigner.Error
/-! Settings of a signer; each of them has a default. -/

namespace HardwareSigner
open Json (Decoder Shape Slot)

/-- How a session talks to its wallet. -/
structure SessionSettings where
  passphrase : String
  pinDerivations : Bool
  deriving DecidableEq

/-- Which USB devices count as wallets, and how long a read may take. -/
structure HidSettings where
  vendorId : UInt16
  usagePage : UInt16
  readTimeoutMs : Int32
  deriving DecidableEq

structure Settings where
  hrp : String
  hdPath : Path
  session : SessionSettings
  hid : HidSettings
  deriving DecidableEq

namespace SessionSettings

def default : SessionSettings := ⟨"", true⟩

structure Draft where
  passphrase : Option String
  pinDerivations : Option Bool

def shape : Shape Refusal Draft SessionSettings where
  slots :=
    [.of "passphrase" (·.passphrase) (fun x s => { s with passphrase := some x }) .string,
     .of "pin_derivations" (·.pinDerivations) (fun x s => { s with pinDerivations := some x })
       .bool]
  start := ⟨none, none⟩
  finish _ s :=
    .ok ⟨s.passphrase.getD default.passphrase, s.pinDerivations.getD default.pinDerivations⟩

def toJson (s : SessionSettings) : Json :=
  .object [("passphrase", .string s.passphrase), ("pin_derivations", .bool s.pinDerivations)]

end SessionSettings

namespace HidSettings

def default : HidSettings := ⟨0x2C97, 0xFFA0, 30000⟩

structure Draft where
  vendorId : Option UInt16
  usagePage : Option UInt16
  readTimeoutMs : Option Int32

def word16 : Decoder Refusal UInt16 := fun depth node =>
  (Decoder.integer (fun z => 0 ≤ z && z < 2 ^ 16) depth node).map fun z => UInt16.ofNat z.toNat

def signed32 : Decoder Refusal Int32 := fun depth node =>
  (Decoder.integer (fun z => -2 ^ 31 ≤ z && z < 2 ^ 31) depth node).map Int32.ofInt

def shape : Shape Refusal Draft HidSettings where
  slots :=
    [.of "vendor_id" (·.vendorId) (fun x s => { s with vendorId := some x }) word16,
     .of "usage_page" (·.usagePage) (fun x s => { s with usagePage := some x }) word16,
     .of "read_timeout_ms" (·.readTimeoutMs) (fun x s => { s with readTimeoutMs := some x })
       signed32]
  start := ⟨none, none, none⟩
  finish _ s :=
    .ok ⟨s.vendorId.getD default.vendorId, s.usagePage.getD default.usagePage,
      s.readTimeoutMs.getD default.readTimeoutMs⟩

def toJson (s : HidSettings) : Json :=
  .object
    [("vendor_id", .ofNat s.vendorId.toNat (Nat.lt_trans s.vendorId.toNat_lt (by decide))),
     ("usage_page", .ofNat s.usagePage.toNat (Nat.lt_trans s.usagePage.toNat_lt (by decide))),
     ("read_timeout_ms", .number (.integer s.readTimeoutMs.toInt
       ⟨Int.le_trans (by decide) s.readTimeoutMs.le_toInt,
        Int.lt_trans s.readTimeoutMs.toInt_lt (by decide)⟩))]

end HidSettings

namespace Settings

def default : Settings :=
  ⟨"evmos", .ethereum 0, .default, .default⟩

structure Draft where
  hrp : Option String
  hdPath : Option Path
  session : Option SessionSettings
  hid : Option HidSettings

def shape : Shape Refusal Draft Settings where
  slots :=
    [.of "hrp" (·.hrp) (fun x s => { s with hrp := some x }) .string,
     .of "hd_path" (·.hdPath) (fun x s => { s with hdPath := some x }) (Path.decoder .path),
     .of "session" (·.session) (fun x s => { s with session := some x })
       SessionSettings.shape.decoder,
     .of "hid" (·.hid) (fun x s => { s with hid := some x }) HidSettings.shape.decoder]
  start := ⟨none, none, none, none⟩
  finish _ s :=
    .ok ⟨s.hrp.getD default.hrp, s.hdPath.getD default.hdPath, s.session.getD default.session,
      s.hid.getD default.hid⟩

/-- Reads settings; what is missing has its default. -/
def ofText (text : String) : Except Error Settings :=
  match Json.decode shape.decoder (Bytes.ofString text) with
  | .ok s => .ok s
  | .error fault => .error (.badJson fault)

def toJson (s : Settings) : Json :=
  .object
    [("hrp", .string s.hrp), ("hd_path", s.hdPath.toJson), ("session", s.session.toJson),
     ("hid", s.hid.toJson)]

def toText (s : Settings) : String :=
  s.toJson.render

end Settings

end HardwareSigner
