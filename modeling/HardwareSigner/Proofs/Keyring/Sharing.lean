import HardwareSigner.Keyring.Basic
import HardwareSigner.Proofs.Keyring.Runs
/-!
Runs of a keyring: signers are asked for, the shared one is reset, and those handed out before stay
in use all the while.
-/

namespace HardwareSigner
variable {W σ α ε : Type}

/-- What is asked of a keyring, or of a signer that it handed out. -/
inductive Call (ε : Type) where
  | signer
  | reset
  | use (number : Nat) (operation : Operation ε)

namespace Signer

theorem withSession_isConnected (operation : String) (use : Action (Session W × σ) α)
    (signer : Signer W) (s : σ) :
    (withSession operation use (signer, s)).2.1.isConnected = signer.isConnected := by
  cases bound : signer.session with
  | none => rw [withSession_none bound]
  | some session =>
      rw [withSession_some bound]
      simp only [resume, isConnected, bound, Option.isSome_some]

/-- No operation gives a signer a session, or takes it away. -/
theorem perform_isConnected (host : Host W σ) (outside : ε → σ → σ) (r : Signer W × σ)
    (operation : Operation ε) :
    (perform host outside r operation).1.isConnected = r.1.isConnected := by
  cases operation with
  | publicKey path => exact withSession_isConnected _ _ _ _
  | addressAndKey path hrp => exact withSession_isConnected _ _ _ _
  | sign path document => exact withSession_isConnected _ _ _ _
  | close => exact withSession_isConnected _ _ _ _
  | outside change => rfl

end Signer

namespace Keyring

theorem use?_of_none {k : Keyring W σ} {i : Nat} (unknown : k.signers[i]? = none)
    (operation : Action (Signer W × σ) α) : use? i operation k = none := by
  rw [use?, unknown, Option.map_none]

theorem use?_of_some {k : Keyring W σ} {i : Nat} {signer : Signer W}
    (known : k.signers[i]? = some signer) (operation : Action (Signer W × σ) α) :
    use? i operation k =
      some ((operation (signer, k.world)).1,
        { k with
          signers := k.signers.set i (operation (signer, k.world)).2.1
          world := (operation (signer, k.world)).2.2 }) := by
  rw [use?, known, Option.map_some]

/-- Does what is asked, whatever comes of it; a number that was not handed out changes nothing. -/
def perform (host : Host W σ) (outside : ε → σ → σ) (k : Keyring W σ) : Call ε → Keyring W σ
  | .signer => (signer host k).2
  | .reset => (reset host.toDevice k).2
  | .use i operation =>
      let action : Action (Signer W × σ) Unit := fun r =>
        (.ok (), Signer.perform host outside r operation)
      ((use? i action k).map (·.2)).getD k

theorem use_of_none {k : Keyring W σ} {i : Nat} (unknown : k.signers[i]? = none) (host : Host W σ)
    (outside : ε → σ → σ) (operation : Operation ε) :
    perform host outside k (.use i operation) = k := by
  rw [perform, use?_of_none unknown, Option.map_none, Option.getD_none]

theorem use_of_some {k : Keyring W σ} {i : Nat} {signer : Signer W}
    (known : k.signers[i]? = some signer) (host : Host W σ) (outside : ε → σ → σ)
    (operation : Operation ε) :
    perform host outside k (.use i operation) =
      { k with
        signers := k.signers.set i (Signer.perform host outside (signer, k.world) operation).1
        world := (Signer.perform host outside (signer, k.world) operation).2 } := by
  rw [perform, use?_of_some known, Option.map_some, Option.getD_some]

section
variable {host : Host W σ} {k : Keyring W σ}

theorem signer_of_shared {i : Nat} (chosen : k.shared = some i) : signer host k = (.ok i, k) := by
  simp only [signer, chosen]

theorem connect_of_error {settings : Settings} {e : Error} {s : σ}
    (failed : Session.connect host settings.session k.world = (.error e, s)) :
    connect host settings k = (.error e, { k with world := s }) := by
  simp only [connect, Signer.connect, Action.andThen, failed]

theorem connect_of_ok {settings : Settings} {session : Session W} {s : σ}
    (connected : Session.connect host settings.session k.world = (.ok session, s)) :
    connect host settings k =
      (.ok k.signers.length,
        { k with world := s, signers := k.signers ++ [⟨some session, k.builder, settings⟩] }) := by
  simp only [connect, Signer.connect, Action.andThen, connected, add]

theorem signer_of_error {e : Error} {s : σ} (unshared : k.shared = none)
    (failed : Session.connect host k.settings.session k.world = (.error e, s)) :
    signer host k = (.error e, { k with world := s }) := by
  simp only [signer, unshared, connect_of_error failed]

/-- A signer that was connected gets the next number, and is shared from then on. -/
theorem signer_of_ok {session : Session W} {s : σ} (unshared : k.shared = none)
    (connected : Session.connect host k.settings.session k.world = (.ok session, s)) :
    signer host k =
      (.ok k.signers.length,
        { k with
          world := s
          signers := k.signers ++ [⟨some session, k.builder, k.settings⟩]
          shared := some k.signers.length }) := by
  simp only [signer, unshared, connect_of_ok connected]

theorem reset_of_unshared (unshared : k.shared = none) (device : Device W σ) :
    reset device k = (.ok (), k) := by
  simp only [reset, unshared]

/-- Resetting a keyring forgets the shared signer, and then closes it. -/
theorem reset_of_shared {i : Nat} (chosen : k.shared = some i) (outside : ε → σ → σ) :
    (reset host.toDevice k).2 =
      perform host outside { k with shared := none } (.use i .close) := by
  simp only [reset, chosen, perform, use?]
  cases k.signers[i]? <;> rfl

end

def run (host : Host W σ) (outside : ε → σ → σ) (k : Keyring W σ) (calls : List (Call ε)) :
    Keyring W σ :=
  calls.foldl (perform host outside) k

/-- Once a signer is not shared any more, it is at most closed. -/
def Orderly (host : Host W σ) (outside : ε → σ → σ) : Keyring W σ → List (Call ε) → Prop
  | _, [] => True
  | k, call :: calls =>
      (∀ i operation, call = .use i operation → k.shared = some i ∨ operation = .close) ∧
        Orderly host outside (perform host outside k call) calls

end Keyring

end HardwareSigner
