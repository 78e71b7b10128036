import HardwareSigner.Proofs.Keyring.Sharing
import HardwareSigner.Proofs.Keyring.Solo
import HardwareSigner.Proofs.Software.KeyTree
/-!
What a signer over one wallet in software answers after any history.  A wallet that is unplugged is
closed, and beyond that no answer depends on what happened before.
-/

namespace HardwareSigner
open SoftwareWallet (State)

namespace SoftwareWallet

/-- A wallet that is unplugged is closed. -/
def State.Sealed (s : State) : Prop :=
  s.unplugged = true → s.isOpen = false

theorem State.Sealed.openChannel {s : State} (tight : s.Sealed) (w : SoftwareWallet) :
    (openChannel (w, s)).2.2.Sealed := by
  by_cases ready : s.Ready
  · rw [openChannel_ready w ready]
    intro unplugged
    cases ready.1.symm.trans unplugged
  · obtain ⟨reason, failed⟩ := openChannel_unready w ready
    rw [failed]
    exact tight

theorem State.Sealed.derive {s : State} (tight : s.Sealed) (path : Path) (pin : Bool)
    (w : SoftwareWallet) : (derive path pin (w, s)).2.2.Sealed := by
  obtain ⟨counts, pinned, same⟩ := derive_switches path pin w s
  rw [same]
  exact tight

theorem State.Sealed.sign {s : State} (tight : s.Sealed) (account : Account)
    (typedData : TypedData) (w : SoftwareWallet) : (sign account typedData (w, s)).2.2.Sealed := by
  obtain ⟨counts, same⟩ := sign_switches account typedData w s
  rw [same]
  exact tight

theorem State.Sealed.touch {s : State} (tight : s.Sealed) (w : SoftwareWallet) (t : Touch) :
    (t.effect w s).Sealed := by
  cases t with
  | openChannel passphrase => exact tight.openChannel w
  | closeChannel => exact fun _ => rfl
  | derive path pin => exact tight.derive path pin w
  | sign account typedData => exact tight.sign account typedData w
  | control c =>
      cases c with
      | unplug => exact fun _ => rfl
      | plugIn => exact nofun
      | _ => exact tight

/-- What keeps a wallet from giving an account right after an attempt to open it. -/
def State.Refuses (s : State) : Prop :=
  s.unplugged = true ∨ s.failDerive = true ∨ (s.failOpen = true ∧ s.isOpen = false)

theorem not_refuses_iff {s : State} :
    ¬ s.Refuses ↔
      s.unplugged = false ∧ s.failDerive = false ∧ (s.failOpen = false ∨ s.isOpen = true) := by
  simp only [State.Refuses, not_or, not_and, Bool.not_eq_true, Bool.not_eq_false]
  cases s.failOpen <;> simp

theorem State.Sealed.not_refuses {s : State} (tight : s.Sealed) (opened : s.isOpen = true)
    (derives : s.failDerive = false) : ¬ s.Refuses := by
  rw [not_refuses_iff]
  refine ⟨?_, derives, .inr opened⟩
  rw [Bool.eq_false_iff]
  intro unplugged
  cases opened.symm.trans (tight unplugged)

theorem not_refuses_of_derive {s : State} (tight : s.Sealed) {path : Path} {pin : Bool}
    {w : SoftwareWallet} {account : Account}
    (derived : (derive path pin (w, (openChannel (w, s)).2.2)).1 = .ok account) :
    ¬ s.Refuses := by
  obtain ⟨opened, derives, -⟩ := derive_ok derived
  by_cases ready : s.Ready
  · rw [openChannel_ready w ready] at derives
    exact not_refuses_iff.mpr ⟨ready.1, derives, .inl ready.2⟩
  · obtain ⟨reason, failed⟩ := openChannel_unready w ready
    rw [failed] at opened derives
    exact tight.not_refuses opened derives

theorem derive_of_not_refuses {s : State} (willing : ¬ s.Refuses) (path : Path) (pin : Bool)
    (w : SoftwareWallet) :
    (derive path pin (w, (openChannel (w, s)).2.2)).1 = w.accountAt path := by
  obtain ⟨plugged, derives, opens⟩ := not_refuses_iff.mp willing
  have shown {t : State} (opened : t.isOpen = true) (derives : t.failDerive = false) :
      (derive path pin (w, t)).1 = w.accountAt path := by
    simp only [derive, opened, derives, Bool.not_true, Bool.false_eq_true, if_false]
  by_cases ready : s.Ready
  · rw [openChannel_ready w ready]
    exact shown rfl derives
  · obtain ⟨reason, failed⟩ := openChannel_unready w ready
    rw [failed]
    exact shown (opens.resolve_left fun free => ready ⟨plugged, free⟩) derives

end SoftwareWallet

namespace Session
variable {w : SoftwareWallet}

theorem sealed_invariant (w : SoftwareWallet) :
    Invariant Bench.host (On w fun _ s => s.Sealed) where
  reopen := reopen_on fun _ _ tight => tight.openChannel w
  derive path := derive_on path fun pin _ _ tight => tight.derive path pin w
  sign account typedData := sign_on account typedData fun _ _ tight =>
    tight.sign account typedData w
  close := close_on (fun _ _ _ => rfl) fun _ tight => tight
  print := print_on

end Session

namespace Signer

theorem run_isConnected {W σ ε : Type} (host : Host W σ) (outside : ε → σ → σ) (r : Signer W × σ)
    (operations : List (Operation ε)) :
    (run host outside r operations).1.isConnected = r.1.isConnected := by
  induction operations generalizing r with
  | nil => rfl
  | cons operation rest ih =>
      exact (ih (perform host outside r operation)).trans
        (perform_isConnected host outside r operation)

/-- Runs of a signer over one wallet, with anything done to the wallet by others in between. -/
abbrev runOn (w : SoftwareWallet) (r : Signer Handle × Bench)
    (operations : List (Operation Touch)) : Signer Handle × Bench :=
  run Bench.host (fun t b => t.perform w b) r operations

/-- A signer that connects has opened a wallet that was closed. -/
theorem connect_solo_ok {w : SoftwareWallet} {s : State} {builder : Builder} {settings : Settings}
    {signer : Signer Handle} {b b' : Bench} (solo : b.Solo w s)
    (connected : connect Bench.host builder settings b = (.ok signer, b')) :
    s.Ready ∧
      signer = ⟨some ⟨.software 0 w, w.label, .opened, settings.session⟩, builder, settings⟩ ∧
      b'.Solo w s.afterOpen := by
  obtain ⟨b₁, opening, solo₁⟩ := Bench.connect_opens solo settings.session
  unfold connect Action.andThen at connected
  rw [opening] at connected
  by_cases ready : s.Ready
  · rw [SoftwareWallet.openChannel_ready w ready] at connected solo₁
    cases opened : s.isOpen with
    | true =>
        rw [opened] at connected
        cases connected
    | false =>
        rw [opened] at connected
        cases connected
        exact ⟨ready, rfl, solo₁⟩
  · obtain ⟨reason, failed⟩ := SoftwareWallet.openChannel_unready w ready
    rw [failed] at connected
    cases connected

/-- Once connected, a signer stays bound to its wallet, and the wallet sealed while unplugged. -/
theorem runOn_bound {w : SoftwareWallet} {s₀ : State} {builder : Builder} {settings : Settings}
    {signer : Signer Handle} {b : Bench}
    (connected : connect Bench.host builder settings (.start [.software w s₀] (.listing [0])) =
      (.ok signer, b))
    (operations : List (Operation Touch)) :
    ∃ session s, (runOn w (signer, b) operations).1.session = some session ∧
      session.wallet = .software 0 w ∧ (runOn w (signer, b) operations).2.Solo w s ∧ s.Sealed := by
  have start : (Bench.start [.software w s₀] (.listing [0])).Solo w s₀ := ⟨rfl, rfl⟩
  obtain ⟨ready, made, solo⟩ := connect_solo_ok start connected
  have still : (runOn w (signer, b) operations).1.isConnected = true := by
    rw [run_isConnected, made]
    rfl
  obtain ⟨session, bound⟩ := Option.isSome_iff_exists.mp still
  have holds : Holds (Session.On w fun _ s => s.Sealed) (signer, b) := by
    intro session₀ bound₀
    rw [made] at bound₀
    cases bound₀
    exact ⟨rfl, s₀.afterOpen, solo, fun unplugged => nomatch ready.1.symm.trans unplugged⟩
  have undisturbed : ∀ (t : Touch) (session : Session Handle) (b : Bench),
      Session.On w (fun _ s => s.Sealed) (session, b) →
      Session.On w (fun _ s => s.Sealed) (session, t.perform w b) := by
    rintro t session b ⟨driver, s, solo, tight⟩
    exact ⟨driver, t.effect w s, t.perform_solo solo, tight.touch w t⟩
  obtain ⟨driver, s, solo', tight⟩ := run_keeps (Session.sealed_invariant w) undisturbed operations
    (signer, b) holds session bound
  exact ⟨session, s, bound, driver, solo', tight⟩

theorem publicKey_solo {w : SoftwareWallet} {s : State} {signer : Signer Handle} {b : Bench}
    {session : Session Handle} (bound : signer.session = some session)
    (driver : session.wallet = .software 0 w) (solo : b.Solo w s) (path : Path) :
    (publicKey Bench.host.toDevice path (signer, b)).1 =
      match (SoftwareWallet.derive path session.settings.pinDerivations
        (w, (SoftwareWallet.openChannel (w, s)).2.2)).1 with
      | .ok account => .ok account.publicKey.uncompressed
      | .error _ => .error (.derivation keyAdvice) := by
  obtain ⟨b', reaching, -⟩ := Bench.reach_solo solo path driver
  rw [publicKey, withSession_some bound]
  unfold Action.andThen
  cases derived : (SoftwareWallet.derive path session.settings.pinDerivations
      (w, (SoftwareWallet.openChannel (w, s)).2.2)).1 with
  | error e =>
      rw [derived] at reaching
      rw [account_of_reach_error reaching]
  | ok account =>
      rw [derived] at reaching
      rw [account_of_reach_ok reaching]

/-- After any run, the public key at a path is that of the node that the wallet's seed has there.
The signer fails to tell it, with the advice for that, just when the wallet is unplugged, is told to
refuse, is closed and cannot be opened, or has no key at the path. -/
theorem publicKey_of_seed_and_path (seed : Bytes) (w : SoftwareWallet)
    (grown : ExtendedKey.master seed = .ok w.master) (s₀ : State) (builder : Builder)
    (settings : Settings) {signer : Signer Handle} {b : Bench}
    (connected : connect Bench.host builder settings (.start [.software w s₀] (.listing [0])) =
      (.ok signer, b))
    (operations : List (Operation Touch)) (path : Path) :
    let r := runOn w (signer, b) operations
    ∃ s, r.2.stations = [.software w s] ∧
      (publicKey Bench.host.toDevice path r).1 =
        if s.unplugged ∨ s.failDerive ∨ (s.failOpen ∧ !s.isOpen) then
          .error (.derivation "unable to derive public key, please retry")
        else
          match KeyTree.node? seed path.indices with
          | some node => .ok (KeyTree.longForm (node.key • Secp256k1.base))
          | none => .error (.derivation "unable to derive public key, please retry") := by
  intro r
  obtain ⟨session, s, bound, driver, solo, tight⟩ := runOn_bound connected operations
  refine ⟨s, solo.stations, ?_⟩
  have same : (s.unplugged ∨ s.failDerive ∨ (s.failOpen ∧ !s.isOpen)) ↔ s.Refuses := by
    rw [Bool.not_eq_true']
    exact Iff.rfl
  rw [publicKey_solo bound driver solo path]
  by_cases refuses : s.Refuses
  · rw [if_pos (same.mpr refuses)]
    cases derived : (SoftwareWallet.derive path session.settings.pinDerivations
        (w, (SoftwareWallet.openChannel (w, s)).2.2)).1 with
    | error e => rfl
    | ok account => exact absurd refuses (SoftwareWallet.not_refuses_of_derive tight derived)
  · rw [if_neg (mt same.mp refuses), SoftwareWallet.derive_of_not_refuses refuses]
    have told := ExtendedKey.uncompressed_derive grown path
    simp only [SoftwareWallet.accountAt, SoftwareWallet.keyAt]
    cases derived : w.master.derive path with
    | error fault =>
        rw [derived] at told
        rw [Option.map_eq_none_iff.mp told.symm]
        rfl
    | ok key =>
        rw [derived] at told
        obtain ⟨node, there, same⟩ := Option.map_eq_some_iff.mp told.symm
        simp only [there, same]
        rfl

/-- A wallet that was closed, pulled and plugged in again answers at `m/44'/0`. -/
theorem publicKey_of_seed_and_path_after_unplug :
    let seed : Bytes := List.replicate 32 7
    let path : Path := ⟨[44 ||| Path.hardened, 0]⟩
    ∃ master node, ExtendedKey.master seed = .ok master ∧
      KeyTree.node? seed path.indices = some node ∧
      let w : SoftwareWallet := ⟨"memory", master⟩
      ∃ signer b, connect Bench.host .document .default
          (.start [.software w .fresh] (.listing [0])) = (.ok signer, b) ∧
        (publicKey Bench.host.toDevice path (runOn w (signer, b)
          [.close, .outside (.control .unplug), .publicKey (.ethereum 0),
            .outside (.control .plugIn)])).1 =
          .ok (KeyTree.longForm (node.key • Secp256k1.base)) := by
  intro seed path
  obtain ⟨node, there⟩ := SoftwareWallet.exists_node_sevens
  cases grown : ExtendedKey.master seed with
  | error fault =>
      rw [KeyTree.node?, ← ExtendedKey.master_plain, grown] at there
      cases there
  | ok master =>
      refine ⟨master, node, rfl, there, _, _, rfl, ?_⟩
      obtain ⟨s, station, answer⟩ := publicKey_of_seed_and_path _ ⟨"memory", master⟩ grown .fresh
        .document .default rfl
        [.close, .outside (.control .unplug), .publicKey (.ethereum 0), .outside (.control .plugIn)]
        path
      rw [answer, there]
      cases station
      rfl

end Signer

end HardwareSigner
