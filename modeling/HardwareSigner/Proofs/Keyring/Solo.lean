import HardwareSigner.Bench.Basic
import HardwareSigner.Proofs.Keyring.Runs
/-!
A bench on which a wallet in software stands alone.  What its handles do to the bench they do to the
wallet; what holds of a session then follows from what holds of two states, the session's and the
wallet's.
-/

namespace HardwareSigner
variable {α : Type}

namespace SoftwareWallet

/-- Nothing keeps the wallet from being opened. -/
def State.Ready (s : State) : Prop :=
  s.unplugged = false ∧ s.failOpen = false

/-- The wallet once it was asked to open, if nothing keeps it from that. -/
def State.afterOpen (s : State) : State :=
  { s with isOpen := true, counts.opens := s.counts.opens + 1 }

/-- A wallet that can be opened is open afterwards; it refuses only if it was open before. -/
theorem openChannel_ready (w : SoftwareWallet) {s : State} (ready : s.Ready) :
    openChannel (w, s) =
      (if s.isOpen then .error .walletAlreadyOpen else .ok (), (w, s.afterOpen)) := by
  obtain ⟨isOpen, unplugged, failOpen, failDerive, failSign, counts, pinned⟩ := s
  obtain ⟨rfl, rfl⟩ : unplugged = false ∧ failOpen = false := ready
  cases isOpen <;> rfl

/-- A wallet that cannot be opened stays open if it was. -/
theorem openChannel_unready (w : SoftwareWallet) {s : State} (unready : ¬ s.Ready) :
    ∃ reason, openChannel (w, s) = (.error (.connectionFailed reason),
      (w, { s with counts.opens := s.counts.opens + 1 })) := by
  obtain ⟨isOpen, unplugged, failOpen, failDerive, failSign, counts, pinned⟩ := s
  cases unplugged with
  | true => exact ⟨_, rfl⟩
  | false =>
      cases failOpen with
      | true => exact ⟨_, rfl⟩
      | false => exact absurd ⟨rfl, rfl⟩ unready

theorem openChannel_wallet (w : SoftwareWallet) (s : State) : (openChannel (w, s)).2.1 = w := by
  simp only [openChannel]
  split <;> rfl

theorem derive_ok {path : Path} {pin : Bool} {w : SoftwareWallet} {s : State} {account : Account}
    (derived : (derive path pin (w, s)).1 = .ok account) :
    s.isOpen = true ∧ s.failDerive = false ∧ w.accountAt path = .ok account := by
  simp only [derive] at derived
  split at derived
  · cases derived
  · rename_i opened
    split at derived
    · cases derived
    · rename_i derives
      rw [Bool.not_eq_true, Bool.not_eq_false'] at opened
      exact ⟨opened, Bool.eq_false_iff.mpr derives, derived⟩

theorem derive_wallet (path : Path) (pin : Bool) (w : SoftwareWallet) (s : State) :
    (derive path pin (w, s)).2.1 = w := by
  simp only [derive]
  split
  · rfl
  · split <;> rfl

theorem sign_wallet (account : Account) (typedData : TypedData) (w : SoftwareWallet) (s : State) :
    (sign account typedData (w, s)).2.1 = w := by
  simp only [sign]
  split
  · rfl
  · split <;> rfl

/-- Deriving leaves all switches as they are. -/
theorem derive_switches (path : Path) (pin : Bool) (w : SoftwareWallet) (s : State) :
    ∃ counts pinned, (derive path pin (w, s)).2.2 = { s with counts, pinned } := by
  simp only [derive]
  split
  · exact ⟨_, _, rfl⟩
  · split
    · exact ⟨_, _, rfl⟩
    · cases pin with
      | false => exact ⟨_, _, rfl⟩
      | true =>
          simp only [State.pin, if_true]
          split <;> exact ⟨_, _, rfl⟩

theorem sign_switches (account : Account) (typedData : TypedData) (w : SoftwareWallet)
    (s : State) : ∃ counts, (sign account typedData (w, s)).2.2 = { s with counts } := by
  simp only [sign]
  split
  · exact ⟨_, rfl⟩
  · split <;> exact ⟨_, rfl⟩

/-- What is done to the wallet from outside. -/
def State.control (s : State) : Control → State
  | .failOpen fails => { s with failOpen := fails }
  | .failDerive fails => { s with failDerive := fails }
  | .failSign fails => { s with failSign := fails }
  | .unplug => s.unplug
  | .plugIn => s.plugIn
  | _ => s

end SoftwareWallet

open SoftwareWallet (State)

namespace Bench

/-- The wallet is the only device on the bench, and the hub finds it. -/
structure Solo (w : SoftwareWallet) (s : State) (b : Bench) : Prop where
  stations : b.stations = [.software w s]
  report : b.report = .listing [0]

variable {w : SoftwareWallet} {s : State} {b : Bench}

theorem Solo.unique {s' : State} (solo : b.Solo w s) (solo' : b.Solo w s') : s = s' := by
  have same := solo.stations.symm.trans solo'.stations
  cases same
  rfl

/-- What a handle does on the bench is what the wallet does. -/
theorem act_solo (solo : b.Solo w s) (software : Action (SoftwareWallet × State) α)
    (ledger : Action (Ledger × Script) α) :
    ∃ b', act software ledger (.software 0 w, b) =
        ((software (w, s)).1, (.software 0 (software (w, s)).2.1, b')) ∧
      b'.Solo w (software (w, s)).2.2 := by
  obtain ⟨stations, report, connects, console⟩ := b
  obtain ⟨rfl, rfl⟩ : stations = [.software w s] ∧ report = .listing [0] :=
    ⟨solo.stations, solo.report⟩
  exact ⟨_, rfl, rfl, rfl⟩

theorem act_world (solo : b.Solo w s) (software : Action (SoftwareWallet × State) α)
    (ledger : Action (Ledger × Script) α) :
    (act software ledger (.software 0 w, b)).2.2.Solo w (software (w, s)).2.2 := by
  obtain ⟨b', acted, solo'⟩ := act_solo solo software ledger
  rw [acted]
  exact solo'

theorem control_solo (solo : b.Solo w s) (c : Control) :
    (b.control 0 c).Solo w (s.control c) := by
  obtain ⟨stations, report, connects, console⟩ := b
  obtain ⟨rfl, rfl⟩ : stations = [.software w s] ∧ report = .listing [0] :=
    ⟨solo.stations, solo.report⟩
  cases c <;> exact ⟨rfl, rfl⟩

theorem firstWallet_solo (solo : b.Solo w s) :
    ∃ b', Session.firstWallet host b = (.ok (.software 0 w), b') ∧ b'.Solo w s := by
  obtain ⟨stations, report, connects, console⟩ := b
  obtain ⟨rfl, rfl⟩ : stations = [.software w s] ∧ report = .listing [0] :=
    ⟨solo.stations, solo.report⟩
  exact ⟨_, rfl, rfl, rfl⟩

/-- A handle's attempt to open the wallet. -/
theorem openChannel_solo (solo : b.Solo w s) (passphrase : String) :
    ∃ b', host.openChannel passphrase (.software 0 w, b) =
        ((SoftwareWallet.openChannel (w, s)).1, (.software 0 w, b')) ∧
      b'.Solo w (SoftwareWallet.openChannel (w, s)).2.2 := by
  obtain ⟨b', opened, solo'⟩ := act_solo solo SoftwareWallet.openChannel
    ((Ledger.device Script.transport).openChannel passphrase)
  rw [SoftwareWallet.openChannel_wallet] at opened
  exact ⟨b', opened, solo'⟩

/-- What comes of a session's attempt to open the wallet and to derive an account. -/
theorem reach_solo (solo : b.Solo w s) (path : Path) {session : Session Handle}
    (driver : session.wallet = .software 0 w) :
    let opening := SoftwareWallet.openChannel (w, s)
    let derivation :=
      SoftwareWallet.derive path session.settings.pinDerivations (w, opening.2.2)
    ∃ b', Session.reach host.toDevice path (session, b) =
        (derivation.1, ({ session with
          state := Session.stateAfter opening.1 session.state }, b')) ∧
      b'.Solo w derivation.2.2 := by
  intro opening derivation
  obtain ⟨wallet, label, state, settings⟩ := session
  obtain rfl : wallet = .software 0 w := driver
  obtain ⟨b₁, opened, solo₁⟩ := openChannel_solo solo settings.passphrase
  obtain ⟨b₂, derived, solo₂⟩ := act_solo solo₁ (SoftwareWallet.derive path settings.pinDerivations)
    ((Ledger.device Script.transport).derive path settings.pinDerivations)
  rw [SoftwareWallet.derive_wallet] at derived
  have derivation : host.derive path settings.pinDerivations (.software 0 w, b₁) = _ := derived
  refine ⟨b₂, ?_, solo₂⟩
  rw [Session.reach_eq, opened, derivation]

theorem print_solo (solo : b.Solo w s) (line : String) : (host.print line b).Solo w s :=
  ⟨solo.stations, solo.report⟩

/-- Connecting succeeds just when the wallet opens. -/
theorem connect_opens (solo : b.Solo w s) (settings : SessionSettings) :
    ∃ b', Session.connect host settings b =
        ((match (SoftwareWallet.openChannel (w, s)).1 with
          | .error e => .error (.walletOpen e)
          | .ok () => .ok ⟨.software 0 w, w.label, .opened, settings⟩), b') ∧
      b'.Solo w (SoftwareWallet.openChannel (w, s)).2.2 := by
  obtain ⟨b₁, found, solo₁⟩ := firstWallet_solo solo
  obtain ⟨b₂, opened, solo₂⟩ := openChannel_solo solo₁ settings.passphrase
  refine ⟨b₂, ?_, solo₂⟩
  simp only [Session.connect, Action.andThen, found, opened]
  cases (SoftwareWallet.openChannel (w, s)).1 <;> rfl

/-- Connecting opens the wallet, and fails if it was open already. -/
theorem connect_solo (solo : b.Solo w s) (ready : s.Ready) (settings : SessionSettings) :
    ∃ b', Session.connect host settings b =
        (if s.isOpen then .error (.walletOpen .walletAlreadyOpen)
          else .ok ⟨.software 0 w, w.label, .opened, settings⟩, b') ∧
      b'.Solo w s.afterOpen := by
  obtain ⟨b', connected, solo'⟩ := connect_opens solo settings
  rw [SoftwareWallet.openChannel_ready w ready] at connected solo'
  refine ⟨b', ?_, solo'⟩
  rw [connected]
  cases s.isOpen <;> rfl

end Bench

/-- What is done to a wallet through a handle that no signer holds, or from outside. -/
inductive Touch where
  | openChannel (passphrase : String)
  | closeChannel
  | derive (path : Path) (pin : Bool)
  | sign (account : Account) (typedData : TypedData)
  | control (c : Control)

namespace Touch

def perform (w : SoftwareWallet) (b : Bench) : Touch → Bench
  | openChannel passphrase => (Bench.host.openChannel passphrase (.software 0 w, b)).2.2
  | closeChannel => (Bench.host.closeChannel (.software 0 w, b)).2.2
  | derive path pin => (Bench.host.derive path pin (.software 0 w, b)).2.2
  | sign account typedData => (Bench.host.sign account typedData (.software 0 w, b)).2.2
  | control c => b.control 0 c

/-- The state of the wallet afterwards. -/
def effect (w : SoftwareWallet) (s : State) : Touch → State
  | openChannel _ => (SoftwareWallet.openChannel (w, s)).2.2
  | closeChannel => (SoftwareWallet.closeChannel (w, s)).2.2
  | derive path pin => (SoftwareWallet.derive path pin (w, s)).2.2
  | sign account typedData => (SoftwareWallet.sign account typedData (w, s)).2.2
  | control c => s.control c

theorem perform_solo {w : SoftwareWallet} {s : State} {b : Bench} (solo : b.Solo w s) (t : Touch) :
    (t.perform w b).Solo w (t.effect w s) := by
  cases t with
  | openChannel passphrase => exact Bench.act_world solo _ _
  | closeChannel => exact Bench.act_world solo _ _
  | derive path pin => exact Bench.act_world solo _ _
  | sign account typedData => exact Bench.act_world solo _ _
  | control c => exact Bench.control_solo solo c

end Touch

namespace Session
variable {w : SoftwareWallet} {R R' : SessionState → State → Prop}

/-- The session's wallet stands alone on the bench, and their states are related. -/
def On (w : SoftwareWallet) (R : SessionState → State → Prop) (r : Session Handle × Bench) : Prop :=
  r.1.wallet = .software 0 w ∧ ∃ s, r.2.Solo w s ∧ R r.1.state s

theorem reopen_on
    (opens : ∀ state s, R state s → R' (stateAfter (SoftwareWallet.openChannel (w, s)).1 state)
      (SoftwareWallet.openChannel (w, s)).2.2) :
    Leads (On w R) (On w R') (reopen Bench.host.toDevice) := by
  intro ⟨session, b⟩ ⟨bound, s, solo, known⟩
  obtain ⟨b', acted, solo'⟩ := Bench.act_solo solo SoftwareWallet.openChannel
    ((Ledger.device Script.transport).openChannel session.settings.passphrase)
  have opening : Bench.host.openChannel session.settings.passphrase (session.wallet, b) = _ :=
    bound ▸ acted
  rw [reopen_snd, opening]
  refine ⟨?_, _, solo', opens session.state s known⟩
  rw [SoftwareWallet.openChannel_wallet]

/-- A session's operation does to the states what the wallet's operation does. -/
theorem run_on {software : Action (SoftwareWallet × State) α} {ledger : Action (Ledger × Script) α}
    (same : ∀ s, (software (w, s)).2.1 = w)
    (leads : ∀ state s, R state s → R' state (software (w, s)).2.2) :
    Leads (On w R) (On w R') (run (Bench.act software ledger)) := by
  intro ⟨session, b⟩ ⟨bound, s, solo, known⟩
  obtain ⟨b', acted, solo'⟩ := Bench.act_solo solo software ledger
  have acted : Bench.act software ledger (session.wallet, b) = _ := bound ▸ acted
  simp only [run]
  rw [acted]
  refine ⟨?_, _, solo', leads session.state s known⟩
  rw [same]

theorem derive_on (path : Path)
    (derives : ∀ pin state s, R state s → R state (SoftwareWallet.derive path pin (w, s)).2.2) :
    Keeps (On w R) (derive Bench.host.toDevice path) := by
  intro r on
  let pin := r.1.settings.pinDerivations
  exact run_on (SoftwareWallet.derive_wallet path pin w) (derives pin) r on

theorem sign_on (account : Account) (typedData : TypedData)
    (signs : ∀ state s, R state s → R state (SoftwareWallet.sign account typedData (w, s)).2.2) :
    Keeps (On w R) (sign Bench.host.toDevice account typedData) :=
  run_on (SoftwareWallet.sign_wallet account typedData w) signs

/-- Closing reaches the wallet only from a session that was last seen open. -/
theorem close_on
    (closes : ∀ s, R .opened s → R' .closed (SoftwareWallet.closeChannel (w, s)).2.2)
    (stays : ∀ s, R .closed s → R' .closed s) :
    Leads (On w R) (On w R') (close Bench.host.toDevice) := by
  intro ⟨session, b⟩ ⟨bound, s, solo, known⟩
  simp only [close]
  cases seen : session.state with
  | closed =>
      rw [seen] at known
      refine ⟨bound, s, solo, ?_⟩
      rw [seen]
      exact stays s known
  | opened =>
      rw [seen] at known
      -- The session changes its mind first, so it takes a wallet that is still open to be closed.
      let before (state : SessionState) (s : State) : Prop := state = .closed ∧ R .opened s
      have told : On w before ({ session with state := .closed }, b) := ⟨bound, s, solo, rfl, known⟩
      refine run_on (fun _ => rfl) ?_ _ told
      rintro state s ⟨rfl, was⟩
      exact closes s was

theorem print_on (line : String) (session : Session Handle) (b : Bench)
    (on : On w R (session, b)) : On w R (session, Bench.host.print line b) := by
  obtain ⟨bound, s, solo, known⟩ := on
  exact ⟨bound, s, Bench.print_solo solo line, known⟩

end Session

end HardwareSigner
