import HardwareSigner.Proofs.Keyring.Calls
/-!
Hosts that write down what is asked of them.  A recorded host answers as the host itself does:
`sign_refines` carries this from single operations to a whole request for a signature.
-/

namespace HardwareSigner
variable {W X σ τ β γ : Type}

/-- `coarse` does to the part of a state that is kept what `fine` does to the whole. -/
def Refines (keep : τ → σ) (fine : X × τ → β × (X × τ)) (coarse : X × σ → β × (X × σ)) : Prop :=
  ∀ x t, coarse (x, keep t) = ((fine (x, t)).1, ((fine (x, t)).2.1, keep (fine (x, t)).2.2))

theorem Refines.andThen {keep : τ → σ} {first : Action (X × τ) β} {first' : Action (X × σ) β}
    {next : β → Action (X × τ) γ} {next' : β → Action (X × σ) γ} (start : Refines keep first first')
    (rest : ∀ b, Refines keep (next b) (next' b)) :
    Refines keep (Action.andThen first next) (Action.andThen first' next') := by
  intro x t
  simp only [Action.andThen, start x t]
  rcases first (x, t) with ⟨e | b, y, u⟩
  · rfl
  · exact rest b y u

/-- Refinement of a host, operation by operation. -/
structure Host.Refines (keep : τ → σ) (fine : Host W τ) (coarse : Host W σ) : Prop where
  openChannel : ∀ passphrase,
    HardwareSigner.Refines keep (fine.openChannel passphrase) (coarse.openChannel passphrase)
  closeChannel : HardwareSigner.Refines keep fine.closeChannel coarse.closeChannel
  derive : ∀ path pin, HardwareSigner.Refines keep (fine.derive path pin) (coarse.derive path pin)
  sign : ∀ account typedData,
    HardwareSigner.Refines keep (fine.sign account typedData) (coarse.sign account typedData)
  print : ∀ line t, coarse.print line (keep t) = keep (fine.print line t)

section
variable {keep : τ → σ} {fine : Host W τ} {coarse : Host W σ}

namespace Session

theorem run_refines {use : Action (W × τ) β} {use' : Action (W × σ) β}
    (h : Refines keep use use') : Refines keep (run use) (run use') := by
  intro session t
  simp only [run, h session.wallet t]

theorem reopen_refines (h : fine.Refines keep coarse) :
    Refines keep (reopen fine.toDevice) (reopen coarse.toDevice) := by
  intro session t
  have opening := run_refines (h.openChannel session.settings.passphrase) session t
  simp only [reopen, opening]
  rcases run (fine.openChannel session.settings.passphrase) (session, t) with ⟨e | _, r⟩
  · cases e <;> rfl
  · rfl

theorem reach_refines (h : fine.Refines keep coarse) (path : Path) :
    Refines keep (reach fine.toDevice path) (reach coarse.toDevice path) := by
  intro session t
  simp only [reach, reopen_refines h session t]
  exact run_refines (h.derive path _) _ _

theorem close_refines (h : fine.Refines keep coarse) :
    Refines keep (close fine.toDevice) (close coarse.toDevice) := by
  intro session t
  simp only [close]
  cases session.state with
  | closed => rfl
  | opened => exact run_refines h.closeChannel { session with state := .closed } t

end Session

namespace Signer

theorem withSession_refines {use : Action (Session W × τ) β} {use' : Action (Session W × σ) β}
    (h : Refines keep use use') (operation : String) :
    Refines keep (withSession operation use) (withSession operation use') := by
  intro signer t
  cases bound : signer.session with
  | none => simp only [withSession_none bound]
  | some session => simp only [withSession_some bound, h session t, resume]

theorem account_refines (h : fine.Refines keep coarse) (path : Path) (advice : String) :
    Refines keep (account fine.toDevice path advice) (account coarse.toDevice path advice) := by
  intro session t
  have reaching := Session.reach_refines h path session t
  rcases reached : Session.reach fine.toDevice path (session, t) with ⟨e | found, r⟩
  · rw [reached] at reaching
    rw [account_of_reach_error reached, account_of_reach_error reaching]
  · rw [reached] at reaching
    rw [account_of_reach_ok reached, account_of_reach_ok reaching]

theorem printAll_refines (h : fine.Refines keep coarse) (lines : List String) (t : τ) :
    printAll coarse lines (keep t) = keep (printAll fine lines t) := by
  induction lines generalizing t with
  | nil => rfl
  | cons line rest ih =>
      simp only [printAll, List.foldl_cons, h.print] at ih ⊢
      exact ih (fine.print line t)

theorem showAndSign_refines (h : fine.Refines keep coarse) (found : Account)
    (typedData : TypedData) :
    Refines keep (showAndSign fine found typedData) (showAndSign coarse found typedData) := by
  intro session t
  cases hashed : typedData.signingHashes with
  | error e => simp only [showAndSign_of_error hashed]
  | ok hashes =>
      have signing := Session.run_refines (h.sign found typedData) session
        (printAll fine hashes.lines t)
      rw [← printAll_refines h] at signing
      simp only [showAndSign_of_ok hashed, Session.sign, signing]

/-- Asks for the account at a path, and tells something of it. -/
def inquire (device : Device W σ) (operation advice : String) (path : Path)
    (tell : Account → Except Error β) : Action (Signer W × σ) β :=
  withSession operation <|
    (account device path advice).andThen fun account r => (tell account, r)

theorem publicKey_eq (device : Device W σ) (path : Path) :
    publicKey device path =
      inquire device "get Ledger public key" keyAdvice path fun account =>
        .ok account.publicKey.uncompressed := rfl

theorem addressAndKey_eq (device : Device W σ) (path : Path) (hrp : String) :
    addressAndKey device path hrp =
      inquire device "get Ledger address" addressAdvice path (describe hrp) := rfl

theorem inquire_refines (h : fine.Refines keep coarse) (operation advice : String) (path : Path)
    (tell : Account → Except Error β) :
    Refines keep (inquire fine.toDevice operation advice path tell)
      (inquire coarse.toDevice operation advice path tell) := by
  apply withSession_refines
  apply Refines.andThen (account_refines h path advice)
  intro found session u
  rfl

theorem publicKey_refines (h : fine.Refines keep coarse) (path : Path) :
    Refines keep (publicKey fine.toDevice path) (publicKey coarse.toDevice path) := by
  rw [publicKey_eq, publicKey_eq]
  exact inquire_refines h _ _ path _

theorem addressAndKey_refines (h : fine.Refines keep coarse) (path : Path) (hrp : String) :
    Refines keep (addressAndKey fine.toDevice path hrp)
      (addressAndKey coarse.toDevice path hrp) := by
  rw [addressAndKey_eq, addressAndKey_eq]
  exact inquire_refines h _ _ path _

theorem close_refines (h : fine.Refines keep coarse) :
    Refines keep (close fine.toDevice) (close coarse.toDevice) :=
  withSession_refines (Session.close_refines h) "close Ledger"

/-- A request for a signature goes on the coarse host as it goes on the fine one. -/
theorem sign_refines (h : fine.Refines keep coarse) (path : Path) (document : Bytes) :
    Refines keep (sign fine path document) (sign coarse path document) := by
  intro signer t
  simp only [sign, h.print]
  apply withSession_refines
  apply Refines.andThen (account_refines h path addressAdvice)
  intro found
  cases signer.builder document with
  | error e => intro session u; rfl
  | ok typedData => exact showAndSign_refines h found typedData

end Signer

end

/-- What a signer can have its host do, with the outcome. -/
inductive Event where
  | listed
  | opened (passphrase : String) (outcome : Except Error Unit)
  | closed (outcome : Except Error Unit)
  | derived (path : Path) (pin : Bool) (outcome : Except Error Account)
  | signed (account : Account) (typedData : TypedData) (outcome : Except Error Bytes)
  | printed (line : String)

namespace Event

/-- The lines among the events, in order. -/
def lines (events : List Event) : List String :=
  events.filterMap fun
    | printed line => some line
    | _ => none

/-- The derivations among the events, in order. -/
def derivations (events : List Event) : List (Path × Except Error Account) :=
  events.filterMap fun
    | derived path _ outcome => some (path, outcome)
    | _ => none

/-- What wallets were asked to sign, in order. -/
def requests (events : List Event) : List (Account × TypedData) :=
  events.filterMap fun
    | signed account typedData _ => some (account, typedData)
    | _ => none

end Event

/-- Does `act` and notes what came of it. -/
def recording (note : β → Event) (act : W × σ → β × (W × σ)) :
    W × (σ × List Event) → β × (W × (σ × List Event)) := fun (w, s, log) =>
  let r := act (w, s)
  (r.1, (r.2.1, (r.2.2, log ++ [note r.1])))

/-- A host with a record of what it was asked. -/
def Host.recorded (host : Host W σ) : Host W (σ × List Event) where
  label := host.label
  openChannel passphrase := recording (.opened passphrase) (host.openChannel passphrase)
  closeChannel := recording .closed host.closeChannel
  derive path pin := recording (.derived path pin) (host.derive path pin)
  sign account typedData := recording (.signed account typedData) (host.sign account typedData)
  hub := fun (s, log) => ((host.hub s).1, ((host.hub s).2, log ++ [.listed]))
  print line := fun (s, log) => (host.print line s, log ++ [.printed line])

theorem Host.recorded_refines (host : Host W σ) : host.recorded.Refines Prod.fst host where
  openChannel := by intro passphrase w r; rfl
  closeChannel := by intro w r; rfl
  derive := by intro path pin w r; rfl
  sign := by intro account typedData w r; rfl
  print := by intro line r; rfl

end HardwareSigner
