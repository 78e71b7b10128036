import HardwareSigner.Proofs.HexTexts
import HardwareSigner.Proofs.Keyring.Answers
import HardwareSigner.Proofs.Secp256k1.Recovery
/-!
A wallet in software signs the digest of the two hashes on the console, with the key at the path it
was asked for.  The key can be told from the signature.
-/

namespace HardwareSigner
open SoftwareWallet (State)

theorem ok_of_mapError {ε δ α : Type} {f : ε → δ} {outcome : Except ε α} {a : α}
    (made : outcome.mapError f = .ok a) : outcome = .ok a := by
  cases outcome with
  | error e => cases made
  | ok b => exact congrArg Except.ok (Except.ok.inj made)

theorem TypedData.signingHash_eq (td : TypedData) :
    td.signingHash = td.signingHashes.map SigningHashes.digest := by
  unfold signingHash signingHashes
  cases td.domainSeparator with
  | error e => rfl
  | ok domain =>
      cases td.messageHash with
      | error e => rfl
      | ok message => rfl

namespace SoftwareWallet
variable {w : SoftwareWallet} {account : Account} {typedData : TypedData} {bs : Bytes}

theorem accountAt_ok {path : Path} (found : w.accountAt path = .ok account) :
    ∃ key, w.keyAt path = .ok key ∧ account = .ofKey key.publicKey path := by
  unfold accountAt at found
  cases derived : w.keyAt path with
  | error e =>
      rw [derived] at found
      cases found
  | ok key =>
      rw [derived] at found
      exact ⟨key, rfl, (Except.ok.inj found).symm⟩

theorem signature_ok (signed : w.signature account typedData = .ok bs) :
    ∃ key digest, w.keyAt account.path = .ok key ∧ key.publicKey = account.publicKey ∧
      typedData.signingHash = .ok digest ∧ Ecdsa.sign key digest = .ok bs := by
  unfold signature at signed
  cases derived : w.keyAt account.path with
  | error e =>
      rw [derived] at signed
      cases signed
  | ok key =>
      rw [derived] at signed
      dsimp only at signed
      by_cases own : key.publicKey = account.publicKey
      · rw [if_neg (not_not_intro own)] at signed
        cases hashed : typedData.signingHash with
        | error e =>
            rw [hashed] at signed
            cases signed
        | ok digest =>
            rw [hashed] at signed
            dsimp only at signed
            exact ⟨key, digest, rfl, own, rfl, ok_of_mapError signed⟩
      · rw [if_pos own] at signed
        cases signed

theorem sign_ok {s : State} (signed : (sign account typedData (w, s)).1 = .ok bs) :
    s.isOpen = true ∧ w.signature account typedData = .ok bs := by
  simp only [sign] at signed
  split at signed
  · cases signed
  · rename_i opened
    split at signed
    · cases signed
    · rw [Bool.not_eq_true, Bool.not_eq_false'] at opened
      exact ⟨opened, signed⟩

/-- The signature for an account that was derived is the one of the key at its path. -/
theorem sign_of_derived {s s' : State} {path : Path} {pin : Bool}
    (derived : (derive path pin (w, s)).1 = .ok account)
    (signed : (sign account typedData (w, s')).1 = .ok bs) :
    ∃ key digest, w.keyAt path = .ok key ∧ typedData.signingHash = .ok digest ∧
      Ecdsa.sign key digest = .ok bs := by
  obtain ⟨-, -, found⟩ := derive_ok derived
  obtain ⟨-, made⟩ := sign_ok signed
  obtain ⟨key, keyed, rfl⟩ := accountAt_ok found
  obtain ⟨key', digest, keyed', -, hashed, made⟩ := signature_ok made
  obtain rfl := Except.ok.inj (keyed.symm.trans keyed')
  exact ⟨key, digest, keyed, hashed, made⟩

/-- An account that was derived shows that the wallet is willing, and signing changes nothing in
that. -/
theorem not_refuses_after_sign {s : State} (tight : s.Sealed) {path : Path} {pin : Bool}
    (derived : (derive path pin (w, s)).1 = .ok account) (asked : Account) :
    ¬ (sign asked typedData (w, (derive path pin (w, s)).2.2)).2.2.Refuses := by
  obtain ⟨opened, derives, -⟩ := derive_ok derived
  obtain ⟨counts, pinned, same⟩ := derive_switches path pin w s
  obtain ⟨counts', same'⟩ := sign_switches asked typedData w (derive path pin (w, s)).2.2
  rw [same', same]
  exact tight.not_refuses opened derives

end SoftwareWallet

namespace Bench
variable {w : SoftwareWallet} {s : State} {b : Bench}

theorem act_console {α : Type} (software : Action (SoftwareWallet × State) α)
    (ledger : Action (Ledger × Script) α) (r : Handle × Bench) :
    (act software ledger r).2.2.console = r.2.console := by
  obtain ⟨h, b⟩ := r
  simp only [act]
  split <;> rfl

/-- Reaching for an account shows the operator nothing. -/
theorem reach_console (path : Path) (session : Session Handle) (b : Bench) :
    (Session.reach host.toDevice path (session, b)).2.2.console = b.console := by
  rw [Session.reach_eq]
  exact (act_console _ _ _).trans (act_console _ _ _)

theorem printAll_solo (solo : b.Solo w s) (lines : List String) :
    (Signer.printAll host lines b).Solo w s := by
  induction lines generalizing b with
  | nil => exact solo
  | cons line rest ih => exact ih (print_solo solo line)

theorem printAll_console (lines : List String) (b : Bench) :
    (Signer.printAll host lines b).console.lines = b.console.lines ++ lines := by
  have shown := @Signer.printAll_log _ _ _ host (fun b => b.console.lines) id (fun _ _ => rfl)
    lines b
  rw [List.map_id] at shown
  exact shown

/-- What comes of a session's request to its wallet. -/
theorem sign_solo (solo : b.Solo w s) (account : Account) (typedData : TypedData)
    (session : Session Handle) (driver : session.wallet = .software 0 w) :
    let answer := SoftwareWallet.sign account typedData (w, s)
    ∃ b', Session.sign host.toDevice account typedData (session, b) = (answer.1, (session, b')) ∧
      b'.Solo w answer.2.2 ∧ b'.console = b.console := by
  intro answer
  obtain ⟨wallet, label, state, settings⟩ := session
  obtain rfl : wallet = .software 0 w := driver
  obtain ⟨b', acted, solo'⟩ := act_solo solo (SoftwareWallet.sign account typedData)
    ((Ledger.device Script.transport).sign account typedData)
  have quiet := act_console (SoftwareWallet.sign account typedData)
    ((Ledger.device Script.transport).sign account typedData) (.software 0 w, b)
  rw [SoftwareWallet.sign_wallet] at acted
  rw [acted] at quiet
  have signing : host.sign account typedData (.software 0 w, b) = _ := acted
  refine ⟨b', ?_, solo', quiet⟩
  simp only [Session.sign, Session.run, signing]
  rfl

end Bench

namespace Signer
variable {w : SoftwareWallet} {s : State} {b : Bench} {signer : Signer Handle}
  {session : Session Handle}

theorem withSession_builder {W σ α : Type} (operation : String) (use : Action (Session W × σ) α)
    (signer : Signer W) (s : σ) :
    (withSession operation use (signer, s)).2.1.builder = signer.builder := by
  cases bound : signer.session with
  | none => rw [withSession_none bound]
  | some session =>
      rw [withSession_some bound]
      rfl

theorem run_builder {W σ ε : Type} (host : Host W σ) (outside : ε → σ → σ) (r : Signer W × σ)
    (operations : List (Operation ε)) :
    (run host outside r operations).1.builder = r.1.builder := by
  induction operations generalizing r with
  | nil => rfl
  | cons operation rest ih =>
      refine (ih (perform host outside r operation)).trans ?_
      cases operation with
      | publicKey path => exact withSession_builder _ _ _ _
      | addressAndKey path hrp => exact withSession_builder _ _ _ _
      | sign path document => exact withSession_builder _ _ _ _
      | close => exact withSession_builder _ _ _ _
      | outside change => rfl

/-- What became of the wallet, and of the console, in a call that gave a signature. -/
theorem sign_solo_ok {path : Path} {document sig : Bytes} (bound : signer.session = some session)
    (driver : session.wallet = .software 0 w) (solo : b.Solo w s)
    (signed : (sign Bench.host path document (signer, b)).1 = .ok sig) :
    let derivation := SoftwareWallet.derive path session.settings.pinDerivations
      (w, (SoftwareWallet.openChannel (w, s)).2.2)
    let r' := (sign Bench.host path document (signer, b)).2
    ∃ account typedData hashes, derivation.1 = .ok account ∧
      signer.builder document = .ok typedData ∧ typedData.signingHashes = .ok hashes ∧
      let signing := SoftwareWallet.sign account typedData (w, derivation.2.2)
      signing.1 = .ok sig ∧ r'.2.Solo w signing.2.2 ∧
      (∃ session', r'.1.session = some session' ∧ session'.wallet = .software 0 w) ∧
      r'.2.console.lines = b.console.lines ++ notice :: hashes.lines := by
  intro derivation
  have call := sign_call Bench.host path document signer b
  generalize sign Bench.host path document (signer, b) = outcome at call signed ⊢
  -- Every rule but the last ends in an error.
  cases call with
  | noSession none => cases signed
  | underivable bound' reached => cases signed
  | unreadable bound' reached built => cases signed
  | unhashable bound' reached built hashed => cases signed
  | asked bound' reached built hashed answered =>
      obtain rfl := Option.some.inj (bound.symm.trans bound')
      obtain ⟨b₁, reaching, solo₁⟩ := Bench.reach_solo (Bench.print_solo solo notice) path driver
      have quiet := Bench.reach_console path session (Bench.host.print notice b)
      rw [reached] at reaching quiet
      obtain ⟨found, rfl⟩ := Prod.mk.inj reaching
      let reopened : Session Handle := { session with
        state := Session.stateAfter (SoftwareWallet.openChannel (w, s)).1 session.state }
      obtain ⟨b₂, asking, solo₂, quiet₂⟩ := Bench.sign_solo (Bench.printAll_solo solo₁ _) _ _
        reopened driver
      obtain ⟨rfl, rfl⟩ := Prod.mk.inj (asking.symm.trans answered)
      refine ⟨_, _, _, found.symm, built, hashed, ok_of_mapError signed, solo₂,
        ⟨_, rfl, driver⟩, ?_⟩
      show b₂.console.lines = _
      rw [quiet₂, Bench.printAll_console, quiet]
      exact List.append_assoc _ _ _

theorem publicKey_of_not_refuses {path : Path} {key : SecretKey}
    (bound : signer.session = some session) (driver : session.wallet = .software 0 w)
    (solo : b.Solo w s) (willing : ¬ s.Refuses) (keyed : w.keyAt path = .ok key) :
    (publicKey Bench.host.toDevice path (signer, b)).1 = .ok key.publicKey.uncompressed := by
  rw [publicKey_solo bound driver solo, SoftwareWallet.derive_of_not_refuses willing,
    SoftwareWallet.accountAt, keyed]
  rfl

/-- After any run, a signature that is given is the one of the key that the wallet's tree has at the
path, over the digest of the two hashes that were shown; the signer tells the key both before and
after, and it can be recovered from the signature.  The wallet signs for no account with another
key. -/
theorem sign_shown_digest_with_requested_key (w : SoftwareWallet) :
    (∀ (s₀ : State) (settings : Settings) (signer : Signer Handle) (b : Bench),
      connect Bench.host .document settings (.start [.software w s₀] (.listing [0])) =
        (.ok signer, b) →
      ∀ (operations : List (Operation Touch)) (path : Path) (document sig : Bytes),
        let before := runOn w (signer, b) operations
        let after := (sign Bench.host path document before).2
        (sign Bench.host path document before).1 = .ok sig →
        ∃ key typedData digest domain message, w.keyAt path = .ok key ∧
          (path.indices.foldlM KeyTree.ckdPriv w.master.plain).map KeyTree.Node.key =
            some key.scalar ∧
          TypedData.ofBytes document = .ok typedData ∧ typedData.signingHash = .ok digest ∧
          Ecdsa.sign key digest = .ok sig ∧
          after.2.console.lines = before.2.console.lines ++
            ["Generating payload, please check your Ledger...",
              "Signing the following payload with EIP-712:",
              "- Domain: " ++ Hex.inCapitals (Word.bytes domain),
              "- Message: " ++ Hex.inCapitals (Word.bytes message)] ∧
          digest = Keccak.hash (0x19 :: 0x01 :: (Word.bytes domain ++ Word.bytes message)) ∧
          Ecdsa.recover digest sig = .ok key.publicKey ∧
          (publicKey Bench.host.toDevice path before).1 = .ok key.publicKey.uncompressed ∧
          (publicKey Bench.host.toDevice path after).1 = .ok key.publicKey.uncompressed) ∧
    ∀ (s : State) (account : Account) (typedData : TypedData) (sig : Bytes),
      (SoftwareWallet.sign account typedData (w, s)).1 = .ok sig →
      ∃ key, w.keyAt account.path = .ok key ∧ key.publicKey = account.publicKey := by
  constructor
  · intro s₀ settings signer b connected operations path document sig before after signed
    obtain ⟨session, s, bound, driver, solo, tight⟩ := runOn_bound connected operations
    obtain ⟨account, typedData, hashes, derived, built, hashed, asked, solo',
      ⟨session', bound', driver'⟩, shown⟩ := sign_solo_ok bound driver solo signed
    have built' : TypedData.ofBytes document = .ok typedData := by
      have kept := run_builder Bench.host (fun (t : Touch) b => t.perform w b) (signer, b)
        operations
      obtain ⟨-, rfl, -⟩ := connect_solo_ok ⟨rfl, rfl⟩ connected
      exact (congrFun kept document).symm.trans built
    obtain ⟨key, digest, keyed, digested, made⟩ := SoftwareWallet.sign_of_derived derived asked
    rw [hashes.lines_eq] at shown
    have same : digest = hashes.digest := by
      have digested' := TypedData.signingHash_eq typedData
      rw [digested, hashed] at digested'
      exact Except.ok.inj digested'
    have told := publicKey_of_not_refuses bound driver solo
      (SoftwareWallet.not_refuses_of_derive tight derived) keyed
    have toldAfter := publicKey_of_not_refuses bound' driver' solo'
      (SoftwareWallet.not_refuses_after_sign (tight.openChannel w) derived account) keyed
    have own := w.keyAt_plain path
    rw [keyed] at own
    exact ⟨key, typedData, digest, hashes.domain, hashes.message, keyed, own.symm, built', digested,
      made, shown, same, Ecdsa.recover_sign made, told, toldAfter⟩
  · intro s account typedData sig signed
    obtain ⟨-, made⟩ := SoftwareWallet.sign_ok signed
    obtain ⟨key, digest, keyed, own, -⟩ := SoftwareWallet.signature_ok made
    exact ⟨key, keyed, own⟩

/-- A closed wallet is opened again to sign a note with its key at `m/44'/0`. -/
theorem sign_shown_digest_with_requested_key_after_close :
    let w : SoftwareWallet := ⟨"memory", ⟨7, by decide, by decide⟩, .ofNat 0⟩
    let path : Path := ⟨[44 ||| Path.hardened, 0]⟩
    let document := Bytes.ofString <|
      "\x7b\"types\":\x7b\"EIP712Domain\":[],\"Note\":[[\"memo\",\"string\"]]\x7d," ++
      "\"primaryType\":\"Note\",\"domain\":\x7b\x7d,\"message\":\x7b\"memo\":\"hi\"\x7d\x7d"
    ∃ signer b, connect Bench.host .document .default
        (.start [.software w .fresh] (.listing [0])) = (.ok signer, b) ∧
      ∃ sig key digest,
        (sign Bench.host path document (runOn w (signer, b) [.close])).1 = .ok sig ∧
        w.keyAt path = .ok key ∧ Ecdsa.sign key digest = .ok sig ∧
        Ecdsa.recover digest sig = .ok key.publicKey := by
  intro w path document
  let signer : Signer Handle :=
    ⟨some ⟨.software 0 w, "memory", .opened, Settings.default.session⟩, .document, .default⟩
  let b := (connect Bench.host .document .default (.start [.software w .fresh] (.listing [0]))).2
  refine ⟨signer, b, rfl, ?_⟩
  have signs : (sign Bench.host path document (runOn w (signer, b) [.close])).1.toOption.isSome =
      true := by
    decide +kernel
  cases made : (sign Bench.host path document (runOn w (signer, b) [.close])).1 with
  | error e =>
      rw [made] at signs
      cases signs
  | ok sig =>
      obtain ⟨key, typedData, digest, -, -, keyed, -, -, -, signed, -, -, recovered, -⟩ :=
        (sign_shown_digest_with_requested_key w).1 .fresh .default signer b rfl [.close] path
          document sig made
      exact ⟨sig, key, digest, rfl, keyed, signed, recovered⟩

end Signer

end HardwareSigner
