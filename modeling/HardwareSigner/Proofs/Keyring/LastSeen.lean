import HardwareSigner.Proofs.Keyring.Reconnect
/-!
What a session believes of its wallet when others hold handles on the wallet too.  A session learns
that the wallet is open only by opening it itself, so a wallet that somebody else opened stays
closed in its eyes, and it does not close what it takes to be closed.
-/

namespace HardwareSigner
open SoftwareWallet (State)

/-- Whatever is done to a wallet but opening it, it does not come open. -/
theorem Touch.effect_isOpen {t : Touch} (other : ∀ passphrase, t ≠ .openChannel passphrase)
    (w : SoftwareWallet) {s : State} (opened : (t.effect w s).isOpen = true) : s.isOpen = true := by
  cases t with
  | openChannel passphrase => exact absurd rfl (other passphrase)
  | closeChannel => cases opened
  | derive path pin =>
      obtain ⟨counts, pinned, same⟩ := SoftwareWallet.derive_switches path pin w s
      rw [Touch.effect, same] at opened
      exact opened
  | sign account typedData =>
      obtain ⟨counts, same⟩ := SoftwareWallet.sign_switches account typedData w s
      rw [Touch.effect, same] at opened
      exact opened
  | control c =>
      cases c with
      | unplug => cases opened
      | _ => exact opened

namespace Operation

/-- What a session believes after an operation, and whether its wallet is open then. -/
def outcome (w : SoftwareWallet) (s : State) (state : SessionState) :
    Operation Empty → SessionState × Bool
  | close => (.closed, state = .closed ∧ s.isOpen = true)
  | _ =>
      (Session.stateAfter (SoftwareWallet.openChannel (w, s)).1 state,
        (SoftwareWallet.openChannel (w, s)).2.2.isOpen)

/-- The path at which an operation derives an account. -/
def path? : Operation Empty → Option Path
  | publicKey path | addressAndKey path _ | sign path _ => some path
  | close => none

/-- The bench when the session tries to open its wallet: a request for a signature has been
announced by then. -/
def announced (b : Bench) : Operation Empty → Bench
  | sign .. => Bench.host.print Signer.notice b
  | _ => b

theorem uses_of_path? {operation : Operation Empty} {path : Path}
    (reaches : operation.path? = some path) : operation.Uses := by
  cases operation with
  | close => cases reaches
  | outside change => cases change
  | _ => trivial

theorem announced_solo {w : SoftwareWallet} {s : State} {b : Bench} (solo : b.Solo w s)
    (operation : Operation Empty) : (operation.announced b).Solo w s := by
  cases operation with
  | sign path document => exact Bench.print_solo solo Signer.notice
  | _ => exact solo

theorem outcome_of_uses (w : SoftwareWallet) (s : State) (state : SessionState)
    {operation : Operation Empty} (uses : operation.Uses) :
    operation.outcome w s state =
      (Session.stateAfter (SoftwareWallet.openChannel (w, s)).1 state,
        (SoftwareWallet.openChannel (w, s)).2.2.isOpen) := by
  cases operation with
  | close => cases uses
  | outside change => cases change
  | _ => rfl

end Operation

namespace Session
variable {w : SoftwareWallet}

/-- Of all that a session does in an operation, only opening the wallet changes what it believes and
whether the wallet is open. -/
theorem use_outcome (s : State) (state : SessionState) :
    Session.Use Bench.host (On w fun seen t => seen = state ∧ t = s)
      (On w fun seen t => (seen, t.isOpen) =
        (stateAfter (SoftwareWallet.openChannel (w, s)).1 state,
          (SoftwareWallet.openChannel (w, s)).2.2.isOpen)) where
  reopen := by
    refine reopen_on ?_
    rintro seen t ⟨rfl, rfl⟩
    rfl
  derive path := by
    refine derive_on path ?_
    intro pin seen t known
    obtain ⟨counts, pinned, same⟩ := SoftwareWallet.derive_switches path pin w t
    rw [same]
    exact known
  sign account typedData := by
    refine sign_on account typedData ?_
    intro seen t known
    obtain ⟨counts, same⟩ := SoftwareWallet.sign_switches account typedData w t
    rw [same]
    exact known
  notice := print_on
  print := print_on

/-- The wallet is found open: it opens now, it is open already, or it gives the account. -/
def FindsOpen (path : Path) (r : Session Handle × Bench) : Prop :=
  (reopen Bench.host.toDevice r).1 = .reopened ∨ (reopen Bench.host.toDevice r).1 = .alreadyOpen ∨
    ∃ account, (reach Bench.host.toDevice path r).1 = .ok account

theorem FindsOpen.ready_or_open {path : Path} {session : Session Handle} {b : Bench} {s : State}
    (found : FindsOpen path (session, b)) (driver : session.wallet = .software 0 w)
    (solo : b.Solo w s) : s.Ready ∨ s.isOpen = true := by
  by_cases ready : s.Ready
  · exact .inl ready
  · obtain ⟨reason, failed⟩ := SoftwareWallet.openChannel_unready w ready
    obtain ⟨b', opening, -⟩ := Bench.openChannel_solo solo session.settings.passphrase
    rw [failed] at opening
    have missed : (reopen Bench.host.toDevice (session, b)).1 =
        .failed (.connectionFailed reason) := by
      simp only [reopen, run, driver, opening]
    rcases found with reopened | already | ⟨account, reached⟩
    · rw [missed] at reopened
      cases reopened
    · rw [missed] at already
      cases already
    · obtain ⟨_, reaching, -⟩ := Bench.reach_solo solo path driver
      rw [reaching, failed] at reached
      exact .inr (SoftwareWallet.derive_ok reached).1

/-- Closing never fails, and reaches the wallet only from a session that believes it open. -/
theorem close_solo {b : Bench} {s : State} (solo : b.Solo w s) {session : Session Handle}
    (driver : session.wallet = .software 0 w) :
    ∃ s' b', close Bench.host.toDevice (session, b) =
        (.ok (), ({ session with state := .closed }, b')) ∧
      b'.Solo w s' ∧ s'.isOpen = decide (session.state = .closed ∧ s.isOpen = true) := by
  obtain ⟨wallet, label, state, settings⟩ := session
  obtain rfl : wallet = .software 0 w := driver
  cases state with
  | closed =>
      refine ⟨s, b, rfl, solo, ?_⟩
      simp only [true_and, Bool.decide_eq_true]
  | opened =>
      obtain ⟨b', closed, solo'⟩ := Bench.act_solo solo SoftwareWallet.closeChannel
        (Ledger.device Script.transport).closeChannel
      have closing : Bench.host.closeChannel (.software 0 w, b) = _ := closed
      refine ⟨_, b', ?_, solo', rfl⟩
      simp only [close, run, closing]
      rfl

theorem close_outcome (s : State) (state : SessionState) :
    Leads (On w fun seen t => seen = state ∧ t = s)
      (On w fun seen t => (seen, t.isOpen) = Operation.outcome w s state .close)
      (close Bench.host.toDevice) := by
  rintro ⟨session, b⟩ ⟨driver, t, solo, rfl, rfl⟩
  obtain ⟨s', b', closed, solo', shut⟩ := close_solo solo driver
  rw [closed]
  exact ⟨driver, s', solo', congrArg (Prod.mk _) shut⟩

end Session

namespace Signer

/-- An attempt to open a wallet that is found open. -/
theorem opening_of_findsOpen {w : SoftwareWallet} {s : State}
    (found : s.Ready ∨ s.isOpen = true) (state : SessionState) :
    (SoftwareWallet.openChannel (w, s)).2.2.isOpen = true ∧
      (Session.stateAfter (SoftwareWallet.openChannel (w, s)).1 state = .opened ↔
        ¬ (state = .closed ∧ s.isOpen = true)) := by
  by_cases ready : s.Ready
  · rw [SoftwareWallet.openChannel_ready w ready]
    refine ⟨rfl, ?_⟩
    cases s.isOpen <;> cases state <;> simp [Session.stateAfter]
  · have opened := found.resolve_left ready
    obtain ⟨reason, failed⟩ := SoftwareWallet.openChannel_unready w ready
    rw [failed, opened]
    refine ⟨rfl, ?_⟩
    cases state <;> simp [Session.stateAfter]

theorem perform_outcome {w : SoftwareWallet} {s : State} {state : SessionState}
    {r : Signer Handle × Bench} (holds : Holds (Session.On w fun seen t => seen = state ∧ t = s) r)
    (operation : Operation Empty) :
    Holds (Session.On w fun seen t => (seen, t.isOpen) = operation.outcome w s state)
      (perform Bench.host Empty.elim r operation) := by
  rcases operation.close_or_uses with rfl | uses
  · exact withSession_leads (Session.close_outcome s state) _ r holds
  · rw [Operation.outcome_of_uses w s state uses]
    exact perform_leads (Session.use_outcome s state) uses r holds

/-- An operation that finds the wallet open leaves it open, and its session in the know unless it
took the open wallet to be closed before.  Closing then does what the session believes. -/
theorem close_after_use {w : SoftwareWallet} {s : State} {b : Bench} {signer : Signer Handle}
    {session : Session Handle} {operation : Operation Empty} {path : Path} (solo : b.Solo w s)
    (bound : signer.session = some session) (driver : session.wallet = .software 0 w)
    (reaches : operation.path? = some path)
    (found : Session.FindsOpen path (session, operation.announced b)) :
    let used := perform Bench.host Empty.elim (signer, b) operation
    let closed := close Bench.host.toDevice used
    ∃ session' s' s'', used.1.session = some session' ∧ used.2.stations = [.software w s'] ∧
      s'.isOpen = true ∧
      (session'.state = .opened ↔ ¬ (session.state = .closed ∧ s.isOpen = true)) ∧
      closed.1 = .ok () ∧ closed.2.2.stations = [.software w s''] ∧
      (s''.isOpen = false ↔ session'.state = .opened) := by
  have holds : Holds (Session.On w fun seen t => seen = session.state ∧ t = s) (signer, b) := by
    intro session' bound'
    obtain rfl : session = session' := Option.some.inj (bound.symm.trans bound')
    exact ⟨driver, s, solo, rfl, rfl⟩
  have still : (perform Bench.host Empty.elim (signer, b) operation).1.isConnected = true := by
    rw [perform_isConnected, isConnected, bound, Option.isSome_some]
  have outcome := perform_outcome holds operation
  generalize perform Bench.host Empty.elim (signer, b) operation = used at still outcome
  intro used closed
  obtain ⟨session', bound'⟩ := Option.isSome_iff_exists.mp still
  obtain ⟨driver', s', solo', told⟩ := outcome session' bound'
  rw [Operation.outcome_of_uses w s _ (Operation.uses_of_path? reaches), Prod.mk.injEq] at told
  have solo₁ := Operation.announced_solo solo operation
  obtain ⟨opened, seen⟩ :=
    opening_of_findsOpen (w := w) (found.ready_or_open driver solo₁) session.state
  obtain ⟨s'', b'', closing, solo'', shut⟩ := Session.close_solo solo' driver'
  have closes : closed = (.ok (), used.1.resume ({ session' with state := .closed }, b'')) := by
    rw [show closed = _ from withSession_some bound' _ _ _, closing]
  rw [← told.1] at seen
  refine ⟨session', s', s'', bound', solo'.stations, told.2.trans opened, seen, ?_, ?_, ?_⟩
  · rw [closes]
  · rw [closes]
    exact solo''.stations
  · rw [shut, told.2, opened]
    cases session'.state <;> decide

end Signer

/-- What happens around a wallet that signers share with others. -/
inductive Visit where
  | call (call : Call Empty)
  | connect (settings : Settings)
  | touch (touch : Touch)

/-- The visits by which nobody opens the wallet, but perhaps the signer with this number. -/
def Visit.Spares (i : Nat) : Visit → Prop
  | call .signer | connect _ => False
  | call .reset => True
  | call (.use j operation) => j = i ∨ operation = .close
  | touch t => ∀ passphrase, t ≠ .openChannel passphrase

namespace Keyring

def visit (w : SoftwareWallet) (k : Keyring Handle Bench) : Visit → Keyring Handle Bench
  | .call call => perform Bench.host Empty.elim k call
  | .connect settings => (connect Bench.host settings k).2
  | .touch t => { k with world := t.perform w k.world }

def visitAll (w : SoftwareWallet) (k : Keyring Handle Bench) (visits : List Visit) :
    Keyring Handle Bench :=
  visits.foldl (visit w) k

/-- What the session of the signer with this number believes, if there is one. -/
def believes (k : Keyring Handle Bench) (i : Nat) : Option SessionState :=
  (k.signers[i]?.bind Signer.session).map Session.state

/-- The wallet stands alone on the bench, and all signers are bound to it. -/
structure Around (w : SoftwareWallet) (s : State) (k : Keyring Handle Bench) : Prop where
  solo : k.world.Solo w s
  bound : ∀ signer ∈ k.signers, ∃ session,
    signer.session = some session ∧ session.wallet = .software 0 w

variable {w : SoftwareWallet} {s : State} {k : Keyring Handle Bench}

theorem Around.session (around : Around w s k) {i : Nat} {signer : Signer Handle}
    (known : k.signers[i]? = some signer) :
    ∃ session, signer.session = some session ∧ k.believes i = some session.state ∧
      Signer.Holds (Session.On w fun seen t => seen = session.state ∧ t = s) (signer, k.world) := by
  obtain ⟨session, bound, driver⟩ := around.bound signer (List.mem_of_getElem? known)
  refine ⟨session, bound, ?_, ?_⟩
  · rw [believes, known, Option.bind_some, bound, Option.map_some]
  · intro session' bound'
    obtain rfl : session = session' := Option.some.inj (bound.symm.trans bound')
    exact ⟨driver, s, around.solo, rfl, rfl⟩

theorem believes_length (k : Keyring Handle Bench) : k.believes k.signers.length = none := by
  rw [believes, List.getElem?_eq_none (Nat.le_refl _), Option.bind_none, Option.map_none]

/-- An operation changes the belief of its own signer and the wallet, and nothing else. -/
theorem use_around (around : Around w s k) (i : Nat) (operation : Operation Empty) :
    ∃ s' k', perform Bench.host Empty.elim k (.use i operation) = k' ∧ Around w s' k' ∧
      k'.signers.length = k.signers.length ∧ (∀ j, j ≠ i → k'.believes j = k.believes j) ∧
      match k.believes i with
      | none => k'.believes i = none ∧ s' = s
      | some state =>
          k'.believes i = some (operation.outcome w s state).1 ∧
            s'.isOpen = (operation.outcome w s state).2 := by
  cases known : k.signers[i]? with
  | none =>
      have silent : k.believes i = none := by
        rw [believes, known, Option.bind_none, Option.map_none]
      refine ⟨s, k, ?_, around, rfl, fun _ _ => rfl, ?_⟩
      · rw [use_of_none known]
      · rw [silent]
        exact ⟨rfl, rfl⟩
  | some signer =>
      obtain ⟨session, bound, believed, holds⟩ := around.session known
      let r := Signer.perform Bench.host Empty.elim (signer, k.world) operation
      have still : r.1.isConnected = true := by
        rw [Signer.perform_isConnected, Signer.isConnected, bound, Option.isSome_some]
      obtain ⟨session', bound'⟩ := Option.isSome_iff_exists.mp still
      obtain ⟨driver, s', solo, known'⟩ := Signer.perform_outcome holds operation session' bound'
      have inside := (List.getElem?_eq_some_iff.mp known).1
      refine ⟨s', { k with signers := k.signers.set i r.1, world := r.2 }, ?_, ⟨solo, ?_⟩,
        List.length_set, ?_, ?_⟩
      · rw [use_of_some known]
      · intro other among
        rcases List.mem_or_eq_of_mem_set among with before | rfl
        · exact around.bound other before
        · exact ⟨session', bound', driver⟩
      · intro j other
        rw [believes, List.getElem?_set_ne other.symm]
        rfl
      · rw [believed, believes, List.getElem?_set_self inside, Option.bind_some, bound',
          Option.map_some]
        rw [Prod.mk.injEq] at known'
        exact ⟨congrArg some known'.1, known'.2⟩

/-- A signer that connects has just opened the wallet. -/
theorem connect_around (around : Around w s k) (settings : Settings) :
    ∃ s' k', (connect Bench.host settings k).2 = k' ∧ Around w s' k' ∧
      k'.believes k.signers.length ≠ some .closed := by
  obtain ⟨b, connected, solo⟩ := Bench.connect_opens around.solo settings.session
  cases opening : (SoftwareWallet.openChannel (w, s)).1 with
  | error e =>
      rw [opening] at connected
      refine ⟨_, { k with world := b }, ?_, ⟨solo, around.bound⟩, ?_⟩
      · rw [connect_of_error connected]
      · rw [show believes { k with world := b } = believes k from rfl, believes_length]
        exact nofun
  | ok =>
      rw [opening] at connected
      refine ⟨_, _, congrArg Prod.snd (connect_of_ok connected), ⟨solo, ?_⟩, ?_⟩
      · intro signer among
        rcases List.mem_append.mp among with before | new
        · exact around.bound signer before
        · cases List.mem_singleton.mp new
          exact ⟨_, rfl, rfl⟩
      · rw [believes, List.getElem?_concat_length]
        exact nofun

theorem signer_around (around : Around w s k) :
    ∃ s' k', (signer Bench.host k).2 = k' ∧ Around w s' k' ∧
      k'.believes k.signers.length ≠ some .closed := by
  cases chosen : k.shared with
  | some i =>
      refine ⟨s, k, ?_, around, ?_⟩
      · rw [signer_of_shared chosen]
      · rw [believes_length]
        exact nofun
  | none =>
      obtain ⟨s', k', connected, around', fresh⟩ := connect_around around k.settings
      rcases made : connect Bench.host k.settings k with ⟨e | i, k₁⟩
      all_goals
        obtain rfl : k₁ = k' := by rw [made] at connected; exact connected
        refine ⟨s', (signer Bench.host k).2, rfl, ?_, ?_⟩ <;> simp only [signer, chosen, made]
      · exact around'
      · exact fresh
      · exact ⟨around'.solo, around'.bound⟩
      · exact fresh

/-- The signer with this number does not take the wallet to be closed while it is open. -/
def Informed (w : SoftwareWallet) (i : Nat) (k : Keyring Handle Bench) : Prop :=
  ∃ s, Around w s k ∧ (k.believes i = some .closed → s.isOpen = false)

/-- A session that still takes its wallet to be closed after trying to open it could not open it. -/
theorem closed_of_outcome {operation : Operation Empty} {state : SessionState}
    (informed : state = .closed → s.isOpen = false)
    (closed : (operation.outcome w s state).1 = .closed) :
    (operation.outcome w s state).2 = false := by
  rcases operation.close_or_uses with rfl | uses
  · refine decide_eq_false ?_
    rintro ⟨believed, opened⟩
    rw [informed believed] at opened
    cases opened
  · rw [Operation.outcome_of_uses w s state uses] at closed ⊢
    by_cases ready : s.Ready
    · rw [SoftwareWallet.openChannel_ready w ready] at closed
      cases opened : s.isOpen with
      | false =>
          rw [opened] at closed
          cases closed
      | true =>
          rw [opened] at closed
          rw [informed closed] at opened
          cases opened
    · obtain ⟨reason, failed⟩ := SoftwareWallet.openChannel_unready w ready
      rw [failed] at closed ⊢
      exact informed closed

theorem Informed.use {i : Nat} (informed : Informed w i k) {j : Nat} {operation : Operation Empty}
    (spares : j = i ∨ operation = .close) :
    Informed w i (perform Bench.host Empty.elim k (.use j operation)) := by
  obtain ⟨s, around, informed⟩ := informed
  obtain ⟨s', k', rfl, around', -, others, own⟩ := use_around around j operation
  refine ⟨s', around', ?_⟩
  intro closed
  cases believed : k.believes j with
  | none =>
      rw [believed] at own
      obtain ⟨silent, rfl⟩ := own
      by_cases same : i = j
      · subst same
        rw [silent] at closed
        cases closed
      · exact informed (others i same ▸ closed)
  | some state =>
      rw [believed] at own
      by_cases same : i = j
      · subst same
        rw [own.2]
        refine closed_of_outcome (fun before => informed ?_) (Option.some.inj (own.1 ▸ closed))
        rw [believed, before]
      · -- Another signer spares the wallet only by closing it.
        obtain rfl := spares.resolve_left (Ne.symm same)
        have shut := informed (others i same ▸ closed)
        rw [own.2]
        refine decide_eq_false ?_
        rintro ⟨-, opened⟩
        rw [shut] at opened
        cases opened

theorem Informed.visit {i : Nat} (informed : Informed w i k) {v : Visit} (spares : v.Spares i) :
    Informed w i (k.visit w v) := by
  cases v with
  | connect settings => cases spares
  | touch t =>
      obtain ⟨s, around, informed⟩ := informed
      refine ⟨t.effect w s, ⟨t.perform_solo around.solo, around.bound⟩, ?_⟩
      intro closed
      have shut := informed closed
      rw [Bool.eq_false_iff] at shut ⊢
      exact fun opened => shut (Touch.effect_isOpen spares w opened)
  | call c =>
      cases c with
      | signer => cases spares
      | use j operation => exact informed.use spares
      | reset =>
          cases chosen : k.shared with
          | none =>
              rw [Keyring.visit, perform, reset_of_unshared chosen]
              exact informed
          | some j =>
              obtain ⟨s, around, informed⟩ := informed
              have dropped : Informed w i { k with shared := none } :=
                ⟨s, ⟨around.solo, around.bound⟩, informed⟩
              rw [Keyring.visit, perform, reset_of_shared chosen Empty.elim]
              exact dropped.use (.inr rfl)

/-- A signer that was just handed out does not take the wallet to be closed. -/
theorem informed_of_new (around : Around w s k) (v : Visit) :
    Informed w k.signers.length (k.visit w v) := by
  have of_length {s' : State} {k' : Keyring Handle Bench} (around' : Around w s' k')
      (same : k'.signers.length = k.signers.length) : Informed w k.signers.length k' := by
    refine ⟨s', around', ?_⟩
    rw [← same, believes_length]
    exact nofun
  cases v with
  | connect settings =>
      obtain ⟨s', _, rfl, around', fresh⟩ := connect_around around settings
      exact ⟨s', around', fun closed => absurd closed fresh⟩
  | touch t =>
      exact of_length ⟨t.perform_solo around.solo, around.bound⟩ rfl
  | call c =>
      cases c with
      | signer =>
          obtain ⟨s', _, rfl, around', fresh⟩ := signer_around around
          exact ⟨s', around', fun closed => absurd closed fresh⟩
      | use j operation =>
          obtain ⟨s', _, rfl, around', same, -⟩ := use_around around j operation
          exact of_length around' same
      | reset =>
          cases chosen : k.shared with
          | none =>
              rw [Keyring.visit, perform, reset_of_unshared chosen]
              exact of_length around rfl
          | some j =>
              have dropped : Around w s { k with shared := none } := ⟨around.solo, around.bound⟩
              obtain ⟨s', _, rfl, around', same, -⟩ := use_around dropped j .close
              rw [Keyring.visit, perform, reset_of_shared chosen Empty.elim]
              exact of_length around' same

theorem visitAll_around (around : Around w s k) (visits : List Visit) :
    ∃ s', Around w s' (visitAll w k visits) := by
  induction visits generalizing s k with
  | nil => exact ⟨s, around⟩
  | cons v visits ih =>
      obtain ⟨s', around', -⟩ := informed_of_new around v
      exact ih around'

theorem Informed.visitAll {i : Nat} (informed : Informed w i k) {visits : List Visit}
    (spares : ∀ v ∈ visits, v.Spares i) : Informed w i (k.visitAll w visits) := by
  induction visits generalizing k with
  | nil => exact informed
  | cons v visits ih =>
      refine ih (informed.visit (spares v List.mem_cons_self)) ?_
      exact fun v' among => spares v' (List.mem_cons_of_mem v among)

/-- After an operation that found the wallet open, its session believes so unless it believed the
wallet closed before and somebody else had opened it.  In that case closing reports success and
leaves the wallet open; in all others it closes the wallet.  It is never the case for a signer since
whose connection nobody else has opened the wallet. -/
theorem opened_iff_of_findsOpen (w : SoftwareWallet) (s₀ : State) (settings : Settings)
    (builder : Builder) (visits : List Visit) {i : Nat} {signer : Signer Handle}
    {session : Session Handle} {operation : Operation Empty} {path : Path}
    (known : ((solo w s₀ settings builder).visitAll w visits).signers[i]? = some signer)
    (bound : signer.session = some session) (reaches : operation.path? = some path)
    (found : Session.FindsOpen path
      (session, operation.announced ((solo w s₀ settings builder).visitAll w visits).world)) :
    let k := (solo w s₀ settings builder).visitAll w visits
    let used := Signer.perform Bench.host Empty.elim (signer, k.world) operation
    let closed := Signer.close Bench.host.toDevice used
    ∃ s session' s' s'',
      k.world.stations = [.software w s] ∧ used.1.session = some session' ∧
      used.2.stations = [.software w s'] ∧ s'.isOpen = true ∧
      (session'.state = .opened ↔ ¬ (session.state = .closed ∧ s.isOpen = true)) ∧
      closed.1 = .ok () ∧ closed.2.2.stations = [.software w s''] ∧
      (s''.isOpen = false ↔ session'.state = .opened) ∧
      ∀ before v later, visits = before ++ v :: later →
        i = ((solo w s₀ settings builder).visitAll w before).signers.length →
        (∀ v ∈ later, v.Spares i) → session'.state = .opened := by
  intro k used closed
  have start : Around w s₀ (solo w s₀ settings builder) := ⟨⟨rfl, rfl⟩, nofun⟩
  obtain ⟨s, around⟩ := visitAll_around start visits
  obtain ⟨session₁, bound₁, believed, holds⟩ := around.session known
  obtain rfl : session₁ = session := Option.some.inj (bound₁.symm.trans bound)
  obtain ⟨session', s', s'', bound', station', opened, seen, closes, station'', shut⟩ :=
    Signer.close_after_use around.solo bound (holds session₁ bound).1 reaches found
  refine ⟨s, session', s', s'', around.solo.stations, bound', station', opened, seen, closes,
    station'', shut, ?_⟩
  rintro before v later rfl rfl spared
  obtain ⟨s₁, around₁⟩ := visitAll_around start before
  obtain ⟨s₂, around₂, informed⟩ := (informed_of_new around₁ v).visitAll spared
  have parts : k = visitAll w (visit w (visitAll w (solo w s₀ settings builder) before) v) later :=
    List.foldl_append
  rw [← parts] at around₂ informed
  obtain rfl : s = s₂ := around.solo.unique around₂.solo
  rw [seen]
  rintro ⟨closed, opened⟩
  rw [informed (believed.trans (congrArg some closed))] at opened
  cases opened

/-- The wallet is pulled and plugged in again, and opened by the signer's next operation. -/
theorem opened_iff_of_findsOpen_after_unplug :
    let w : SoftwareWallet := ⟨"memory", ⟨⟨1, by decide, by decide⟩, .padRight []⟩⟩
    let visits : List Visit :=
      [.connect .default, .call (.use 0 .close), .touch (.control .unplug),
        .touch (.control .plugIn)]
    let k := (solo w .fresh .default .document).visitAll w visits
    let session : Session Handle :=
      ⟨.software 0 w, "memory", .closed, Settings.default.session⟩
    let signer : Signer Handle := ⟨some session, .document, .default⟩
    k.signers[0]? = some signer ∧ Session.FindsOpen ⟨[]⟩ (session, k.world) ∧
      ∃ session', (Signer.perform Bench.host Empty.elim (signer, k.world)
        (.publicKey ⟨[]⟩)).1.session = some session' ∧ session'.state = .opened := by
  intro w visits k session signer
  have known : k.signers[0]? = some signer := rfl
  have found : Session.FindsOpen ⟨[]⟩ (session, Operation.announced k.world (.publicKey ⟨[]⟩)) :=
    .inl rfl
  refine ⟨known, found, ?_⟩
  obtain ⟨s, session', -, -, -, bound, -, -, -, -, -, -, trusted⟩ :=
    opened_iff_of_findsOpen w .fresh .default .document visits known rfl rfl found
  refine ⟨session', bound, trusted [] _ _ rfl rfl ?_⟩
  simp [Visit.Spares]

/-- A session may take the wallet to be closed after it has found it open, and then leaves it open
when it is closed itself. -/
theorem closed_session_leaves_wallet_open :
    let w : SoftwareWallet := ⟨"memory", ⟨⟨1, by decide, by decide⟩, .padRight []⟩⟩
    let k := (solo w .fresh .default .document).visitAll w
      [.connect .default, .call (.use 0 .close), .connect .default]
    ∃ signer session, k.signers[0]? = some signer ∧ signer.session = some session ∧
      (Session.reopen Bench.host.toDevice (session, k.world)).1 = .alreadyOpen ∧
      let used := Signer.perform Bench.host Empty.elim (signer, k.world) (.publicKey ⟨[]⟩)
      let closed := Signer.close Bench.host.toDevice used
      (used.1.session.map Session.state) = some .closed ∧ closed.1 = .ok () ∧
        ∃ s, closed.2.2.stations = [.software w s] ∧ s.isOpen = true :=
  ⟨_, _, rfl, rfl, rfl, rfl, rfl, _, rfl, rfl⟩

end Keyring

end HardwareSigner
