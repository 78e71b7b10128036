import HardwareSigner.Error
/-! The data of the Ethereum app's commands, and its replies. -/

namespace HardwareSigner.Ledger

/-- A path as the app reads it: how many components, then each in four bytes. -/
def encodePath (path : Path) : Except Error Bytes :=
  if path.indices.isEmpty ∨ Path.maxComponents < path.indices.length then
    .error (.invalidPath (Path.Fault.components path))
  else
    .ok (UInt8.ofNat path.indices.length :: path.indices.flatMap fun i => Bytes.ofNat 4 i.toNat)

/-- A reply to the question for the configuration: flags and the version. -/
def versionOfReply : Bytes → Except Error AppVersion
  | _ :: major :: minor :: patch :: _ => .ok ⟨major, minor, patch⟩
  | reply => .error (.malformedResponse (Apdu.ResponseFault.configuration reply.length))

/-- The bytes of a key and those of an address text, each behind its length. -/
def splitKeyReply? : Bytes → Option (Bytes × Bytes)
  | [] => none
  | keySize :: rest =>
    if keySize.toNat ≠ 65 ∨ rest.length < 65 then none
    else
      match rest.drop 65 with
      | [] => none
      | size :: rest' =>
        if rest'.length < size.toNat then none
        else some (rest.take 65, rest'.take size.toNat)

/-- A reply to the question for a key: the key, and the address that the device shows for it. -/
def keyOfReply (reply : Bytes) : Except Error (PublicKey × Address) :=
  let malformed := Error.malformedResponse (Apdu.ResponseFault.publicKeyReply reply.length)
  match splitKeyReply? reply with
  | none => .error malformed
  | some (keyBytes, addressBytes) =>
    match Bytes.toString? addressBytes with
    | none => .error malformed
    | some text =>
      match PublicKey.ofBytes? keyBytes with
      | none => .error (.invalidPublicKey PublicKeyFault.rejected)
      | some key =>
        match Address.ofHex text with
        | .ok address => .ok (key, address)
        | .error fault => .error (.malformedResponse (Apdu.ResponseFault.address fault))

/-- A reply to a request for a signature; the recovery id comes first there, and last here. -/
def signatureOfReply : Bytes → Except Error Bytes
  | [] => .error (.invalidSignature SignatureFault.emptyReply)
  | v :: rs =>
    if rs.length ≠ 64 then .error (.invalidSignature (SignatureFault.length (rs.length + 1)))
    else .ok (rs ++ [Ecdsa.normalizeRecoveryId v])

end HardwareSigner.Ledger
