import HardwareSigner.Device.Account
import HardwareSigner.TypedData.Hash
/-! What a signer asks of a signing device, of the link to one, and of the host they hang on. -/

namespace HardwareSigner

/-- A step that may fail; whether it does or not, it leaves a state. -/
abbrev Action (σ α : Type) := σ → Except Error α × σ

/-- Continues after success. -/
def Action.andThen {σ α β : Type} (first : Action σ α) (next : α → Action σ β) : Action σ β :=
  fun s =>
    match first s with
    | (.ok x, t) => next x t
    | (.error e, t) => (.error e, t)

/-- A device seen through a handle `W`; all handles act on the one state `σ`. -/
structure Device (W σ : Type) where
  label : W → String
  openChannel : (passphrase : String) → Action (W × σ) Unit
  closeChannel : Action (W × σ) Unit
  derive : Path → (pin : Bool) → Action (W × σ) Account
  sign : Account → TypedData → Action (W × σ) Bytes

/-- A host: a hub that lists handles, an operator's console, and the devices behind the handles. -/
structure Host (W σ : Type) extends Device W σ where
  hub : Action σ (Option (List W))
  print : String → σ → σ

end HardwareSigner
