import HardwareSigner.Keyring.Signer
/-!
How a call of a signer goes, step by step.  The ways a request for a signature can end are one
relation, `SignCall`; what holds of such a call is proved by going through its rules.
-/

namespace HardwareSigner
variable {W σ α : Type}

namespace Session

/-- Tries to open the wallet, and derives the account at a path whatever came of that. -/
def reach (device : Device W σ) (path : Path) : Action (Session W × σ) Account := fun r =>
  derive device path (reopen device r).2

/-- What a session knows of its wallet after an attempt to open it. -/
def stateAfter (outcome : Except Error Unit) (state : SessionState) : SessionState :=
  match outcome with
  | .ok () => .opened
  | .error _ => state

/-- Of a session that is opened again, only the wallet and what is known of it change. -/
theorem reopen_snd (device : Device W σ) (session : Session W) (s : σ) :
    let opening := device.openChannel session.settings.passphrase (session.wallet, s)
    (reopen device (session, s)).2 =
      ({ session with
          wallet := opening.2.1
          state := stateAfter opening.1 session.state }, opening.2.2) := by
  simp only [reopen, run]
  rcases device.openChannel session.settings.passphrase (session.wallet, s) with ⟨e | _, w, t⟩
  · cases e <;> rfl
  · rfl

/-- The wallet is opened under the session's passphrase, then asked for the account. -/
theorem reach_eq (device : Device W σ) (path : Path) (session : Session W) (s : σ) :
    let opening := device.openChannel session.settings.passphrase (session.wallet, s)
    let derivation := device.derive path session.settings.pinDerivations opening.2
    reach device path (session, s) =
      (derivation.1,
        ({ session with
            wallet := derivation.2.1
            state := stateAfter opening.1 session.state }, derivation.2.2)) := by
  simp only [reach, reopen_snd]
  rfl

end Session

namespace Signer

/-- The signer once its session has come to `r`. -/
def resume (signer : Signer W) (r : Session W × σ) : Signer W × σ :=
  ({ signer with session := some r.1 }, r.2)

theorem account_of_reach_error {device : Device W σ} {path : Path} {r r' : Session W × σ}
    {e : Error} (reached : Session.reach device path r = (.error e, r')) (advice : String) :
    account device path advice r = (.error (.derivation advice), r') := by
  unfold account
  unfold Session.reach at reached
  rw [reached]

theorem account_of_reach_ok {device : Device W σ} {path : Path} {r r' : Session W × σ}
    {found : Account} (reached : Session.reach device path r = (.ok found, r'))
    (advice : String) : account device path advice r = (.ok found, r') := by
  unfold account
  unfold Session.reach at reached
  rw [reached]

theorem withSession_none {signer : Signer W} (none : signer.session = none) (operation : String)
    (use : Action (Session W × σ) α) (s : σ) :
    withSession operation use (signer, s) = (.error (.noSession operation), (signer, s)) := by
  simp only [withSession, none]

theorem withSession_some {signer : Signer W} {session : Session W}
    (bound : signer.session = some session) (operation : String)
    (use : Action (Session W × σ) α) (s : σ) :
    withSession operation use (signer, s) =
      ((use (session, s)).1, signer.resume (use (session, s)).2) := by
  simp only [withSession, bound, resume]

/-- The ways in which a request for a signature goes.  The notice is printed first in all of them,
and the wallet is asked in the last one only. -/
inductive SignCall (host : Host W σ) (path : Path) (document : Bytes) (signer : Signer W) (s : σ) :
    Except Error Bytes × (Signer W × σ) → Prop where
  | noSession : signer.session = none →
      SignCall host path document signer s
        (.error (.noSession "sign with Ledger"), (signer, host.print notice s))
  | underivable {session e r} : signer.session = some session →
      Session.reach host.toDevice path (session, host.print notice s) = (.error e, r) →
      SignCall host path document signer s (.error (.derivation addressAdvice), signer.resume r)
  | unreadable {session account e r} : signer.session = some session →
      Session.reach host.toDevice path (session, host.print notice s) = (.ok account, r) →
      signer.builder document = .error e →
      SignCall host path document signer s (.error e, signer.resume r)
  | unhashable {session account typedData e r} : signer.session = some session →
      Session.reach host.toDevice path (session, host.print notice s) = (.ok account, r) →
      signer.builder document = .ok typedData →
      typedData.signingHashes = .error e →
      SignCall host path document signer s (.error (.hashComputation e), signer.resume r)
  | asked {session account typedData hashes answer r r'} : signer.session = some session →
      Session.reach host.toDevice path (session, host.print notice s) = (.ok account, r) →
      signer.builder document = .ok typedData →
      typedData.signingHashes = .ok hashes →
      Session.sign host.toDevice account typedData (r.1, printAll host hashes.lines r.2) =
        (answer, r') →
      SignCall host path document signer s (answer.mapError .signing, signer.resume r')

theorem showAndSign_of_error {typedData : TypedData} {e : Error}
    (unhashable : typedData.signingHashes = .error e) (host : Host W σ) (account : Account)
    (r : Session W × σ) :
    showAndSign host account typedData r = (.error (.hashComputation e), r) := by
  simp only [showAndSign, unhashable]

theorem showAndSign_of_ok {typedData : TypedData} {hashes : TypedData.SigningHashes}
    (hashed : typedData.signingHashes = .ok hashes) (host : Host W σ) (account : Account)
    (r : Session W × σ) :
    let answer := Session.sign host.toDevice account typedData
      (r.1, printAll host hashes.lines r.2)
    showAndSign host account typedData r = (answer.1.mapError .signing, answer.2) := by
  simp only [showAndSign, hashed]
  split
  · rename_i answered
    rw [answered]
    rfl
  · rename_i refused
    rw [refused]
    rfl

/-- Where a console writes its lines into a log, printing several adds them in order. -/
theorem printAll_log {ε : Type} {host : Host W σ} {log : σ → List ε} {note : String → ε}
    (prints : ∀ line s, log (host.print line s) = log s ++ [note line]) (lines : List String)
    (s : σ) : log (printAll host lines s) = log s ++ lines.map note := by
  induction lines generalizing s with
  | nil => exact (List.append_nil (log s)).symm
  | cons line rest ih =>
      simp only [printAll, List.foldl_cons, List.map_cons] at ih ⊢
      rw [ih, prints, List.append_assoc, List.singleton_append]

/-- Every request for a signature goes in one of the ways listed. -/
theorem sign_call (host : Host W σ) (path : Path) (document : Bytes) (signer : Signer W) (s : σ) :
    SignCall host path document signer s (sign host path document (signer, s)) := by
  simp only [sign]
  cases bound : signer.session with
  | none =>
      rw [withSession_none bound]
      exact .noSession bound
  | some session =>
      rw [withSession_some bound]
      unfold Action.andThen
      rcases reached : Session.reach host.toDevice path (session, host.print notice s) with
        ⟨e | found, r⟩
      · rw [account_of_reach_error reached]
        exact .underivable bound reached
      · rw [account_of_reach_ok reached]
        cases built : signer.builder document with
        | error e => exact .unreadable bound reached built
        | ok typedData =>
            cases hashed : typedData.signingHashes with
            | error e =>
                simp only [showAndSign_of_error hashed]
                exact .unhashable bound reached built hashed
            | ok hashes =>
                simp only [showAndSign_of_ok hashed]
                exact .asked bound reached built hashed rfl

end Signer

end HardwareSigner
