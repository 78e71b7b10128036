import HardwareSigner.Proofs.Keyring.Calls
/-!
Runs of a signer.  What every operation of a session keeps holds after any run of the signer's
operations, with changes from outside at any point between them.
-/

namespace HardwareSigner
variable {W σ ρ α β ε : Type}

/-- Whatever comes of `act`, it leads from states with a property to such states. -/
def Keeps (P : ρ → Prop) (act : ρ → β × ρ) : Prop :=
  ∀ r, P r → P (act r).2

/-- Whatever comes of `act`, it leads from states with one property to states with another. -/
def Leads (P Q : ρ → Prop) (act : ρ → β × ρ) : Prop :=
  ∀ r, P r → Q (act r).2

theorem Leads.andThen {P Q : ρ → Prop} {first : Action ρ α} {next : α → Action ρ β}
    (start : Leads P Q first) (rest : ∀ a, Keeps Q (next a)) :
    Leads P Q (Action.andThen first next) := by
  intro r holds
  have reached := start r holds
  simp only [Action.andThen]
  rcases done : first r with ⟨e | a, r'⟩ <;> rw [done] at reached
  · exact reached
  · exact rest a r' reached

/-- A property of sessions that no operation of theirs takes away. -/
structure Session.Invariant (host : Host W σ) (P : Session W × σ → Prop) : Prop where
  reopen : Keeps P (Session.reopen host.toDevice)
  derive : ∀ path, Keeps P (Session.derive host.toDevice path)
  sign : ∀ account typedData, Keeps P (Session.sign host.toDevice account typedData)
  close : Keeps P (Session.close host.toDevice)
  print : ∀ line session s, P (session, s) → P (session, host.print line s)

/-- An attempt to open the wallet leads from one property of sessions to another, which neither
deriving and signing nor the console takes away. -/
structure Session.Use (host : Host W σ) (P Q : Session W × σ → Prop) : Prop where
  reopen : Leads P Q (Session.reopen host.toDevice)
  derive : ∀ path, Keeps Q (Session.derive host.toDevice path)
  sign : ∀ account typedData, Keeps Q (Session.sign host.toDevice account typedData)
  notice : ∀ line session s, P (session, s) → P (session, host.print line s)
  print : ∀ line session s, Q (session, s) → Q (session, host.print line s)

theorem Session.Invariant.use {host : Host W σ} {P : Session W × σ → Prop}
    (inv : Session.Invariant host P) : Session.Use host P P where
  reopen := inv.reopen
  derive := inv.derive
  sign := inv.sign
  notice := inv.print
  print := inv.print

/-- What can happen to a signer and its host: an operation, or a change from outside. -/
inductive Operation (ε : Type) where
  | publicKey (path : Path)
  | addressAndKey (path : Path) (hrp : String)
  | sign (path : Path) (document : Bytes)
  | close
  | outside (change : ε)

/-- The operations that need an open wallet. -/
def Operation.Uses : Operation ε → Prop
  | publicKey .. | addressAndKey .. | sign .. => True
  | close | outside _ => False

theorem Operation.close_or_uses (operation : Operation Empty) :
    operation = .close ∨ operation.Uses := by
  cases operation with
  | close => exact .inl rfl
  | outside change => cases change
  | publicKey path => exact .inr trivial
  | addressAndKey path hrp => exact .inr trivial
  | sign path document => exact .inr trivial

namespace Signer

/-- The signer has a session only if that has the property. -/
def Holds (P : Session W × σ → Prop) (r : Signer W × σ) : Prop :=
  ∀ session, r.1.session = some session → P (session, r.2)

/-- Does an operation, whatever comes of it; `outside` says what changes from outside do. -/
def perform (host : Host W σ) (outside : ε → σ → σ) :
    Signer W × σ → Operation ε → Signer W × σ
  | r, .publicKey path => (publicKey host.toDevice path r).2
  | r, .addressAndKey path hrp => (addressAndKey host.toDevice path hrp r).2
  | r, .sign path document => (sign host path document r).2
  | r, .close => (close host.toDevice r).2
  | r, .outside change => (r.1, outside change r.2)

def run (host : Host W σ) (outside : ε → σ → σ) (r : Signer W × σ)
    (operations : List (Operation ε)) : Signer W × σ :=
  operations.foldl (perform host outside) r

section
variable {host : Host W σ} {P Q : Session W × σ → Prop}

theorem withSession_leads {use : Action (Session W × σ) α} (h : Leads P Q use)
    (operation : String) : Leads (Holds P) (Holds Q) (withSession operation use) := by
  intro ⟨signer, s⟩ holds
  cases bound : signer.session with
  | none =>
      rw [withSession_none bound]
      intro session same
      rw [bound] at same
      cases same
  | some session =>
      rw [withSession_some bound]
      intro session' same
      cases same
      exact h (session, s) (holds session bound)

theorem account_leads (use : Session.Use host P Q) (path : Path) (advice : String) :
    Leads P Q (account host.toDevice path advice) := by
  intro r holds
  have reached := use.derive path _ (use.reopen r holds)
  rcases done : Session.reach host.toDevice path r with ⟨e | found, r'⟩
  · rw [account_of_reach_error done]
    exact congrArg Prod.snd done ▸ reached
  · rw [account_of_reach_ok done]
    exact congrArg Prod.snd done ▸ reached

theorem printAll_keeps (use : Session.Use host P Q) (lines : List String)
    (session : Session W) (s : σ) (holds : Q (session, s)) :
    Q (session, printAll host lines s) := by
  induction lines generalizing s with
  | nil => exact holds
  | cons line rest ih => exact ih (host.print line s) (use.print line session s holds)

theorem showAndSign_keeps (use : Session.Use host P Q) (found : Account)
    (typedData : TypedData) : Keeps Q (showAndSign host found typedData) := by
  intro ⟨session, s⟩ holds
  cases hashed : typedData.signingHashes with
  | error e =>
      rw [showAndSign_of_error hashed]
      exact holds
  | ok hashes =>
      rw [showAndSign_of_ok hashed]
      exact use.sign found typedData _ (printAll_keeps use hashes.lines session s holds)

/-- What an attempt to open the wallet leads to holds after every operation that makes one. -/
theorem perform_leads (use : Session.Use host P Q) {outside : ε → σ → σ}
    {operation : Operation ε} (uses : operation.Uses) (r : Signer W × σ) (holds : Holds P r) :
    Holds Q (perform host outside r operation) := by
  cases operation with
  | publicKey path =>
      exact withSession_leads ((account_leads use path _).andThen fun _ _ h => h) _ r holds
  | addressAndKey path hrp =>
      exact withSession_leads ((account_leads use path _).andThen fun _ _ h => h) _ r holds
  | sign path document =>
      have told : Holds P (r.1, host.print notice r.2) := by
        intro session bound
        exact use.notice notice session r.2 (holds session bound)
      refine withSession_leads ((account_leads use path _).andThen fun found => ?_) _ _ told
      cases r.1.builder document with
      | error e => exact fun _ h => h
      | ok typedData => exact showAndSign_keeps use found typedData
  | close => cases uses
  | outside change => cases uses

theorem perform_keeps (inv : Session.Invariant host P) {outside : ε → σ → σ}
    (undisturbed : ∀ change session s, P (session, s) → P (session, outside change s))
    (operation : Operation ε) (r : Signer W × σ) (holds : Holds P r) :
    Holds P (perform host outside r operation) := by
  cases operation with
  | close => exact withSession_leads inv.close _ r holds
  | outside change =>
      intro session bound
      exact undisturbed change session r.2 (holds session bound)
  | publicKey path => exact perform_leads inv.use (by trivial) r holds
  | addressAndKey path hrp => exact perform_leads inv.use (by trivial) r holds
  | sign path document => exact perform_leads inv.use (by trivial) r holds

/-- What sessions keep holds after every run. -/
theorem run_keeps (inv : Session.Invariant host P) {outside : ε → σ → σ}
    (undisturbed : ∀ change session s, P (session, s) → P (session, outside change s))
    (operations : List (Operation ε)) (r : Signer W × σ) (holds : Holds P r) :
    Holds P (run host outside r operations) := by
  induction operations generalizing r with
  | nil => exact holds
  | cons operation rest ih =>
      exact ih (perform host outside r operation) (perform_keeps inv undisturbed operation r holds)

end

end Signer

end HardwareSigner
