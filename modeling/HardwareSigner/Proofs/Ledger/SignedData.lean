import HardwareSigner.Proofs.HexTexts
import HardwareSigner.Proofs.Ledger.Pins
/-!
What a Ledger is asked to sign.  Whatever happened to a session before, the command of a request for
a signature is made for the path of that request, from the hashes that the operator saw in it.
-/

namespace HardwareSigner
open DeskEvent (lines signCommands Quiet)
variable {τ : Type}

section
variable {t : Transport τ} {name : String}

theorem Session.connect_unpinned {chosen : SessionSettings} {session : Session Ledger}
    {d d' : Desk τ} (connected : connect (Desk.host t name) chosen d = (.ok session, d')) :
    session.wallet.pinned = [] := by
  have kept := Ledger.openChannel_pinned (Desk.transport t) (Ledger.closed name) d
  simp only [connect, Action.andThen, firstWallet, Desk.host, Ledger.device] at connected
  rcases opening : Ledger.openChannel (Desk.transport t) (Ledger.closed name, d) with
    ⟨e | _, l, d''⟩ <;> rw [opening] at connected kept
  · cases connected
  · cases connected
    exact kept

/-- After the notice, neither the attempt to open the wallet nor the derivation shows anything or
asks to sign. -/
theorem Session.reach_adds {path : Path} {session : Session Ledger} {d : Desk τ}
    {outcome : Except Error Account} {r : Session Ledger × Desk τ}
    (reached : reach (Desk.host t name).toDevice path
      (session, (Desk.host t name).print Signer.notice d) = (outcome, r)) :
    ∃ attempt, Quiet attempt ∧ r.2.log = d.log ++ .printed Signer.notice :: attempt := by
  have opening := Ledger.openChannel_quiet (t := t) session.wallet
    ((Desk.host t name).print Signer.notice d)
  simp only [reach_eq, Desk.host, Ledger.device, Prod.mk.injEq] at reached
  obtain ⟨-, rfl⟩ := reached
  obtain ⟨attempt, noted, quiet⟩ := opening.trans (Ledger.derive_quiet path _ _ _)
  exact ⟨attempt, quiet, noted.trans (List.append_cons d.log _ attempt).symm⟩

theorem Signer.printAll_noted (lines : List String) (d : Desk τ) :
    (printAll (Desk.host t name) lines d).log = d.log ++ lines.map .printed :=
  @printAll_log Ledger _ DeskEvent (Desk.host t name) Desk.log .printed (fun _ _ => rfl) lines d

namespace Signer

/-- A command that asks for a signature comes at most once, and then last, after the operator was
shown two hashes; its data are the path and these hashes. -/
def SignsWhatWasShown (path : Path) (events : List DeskEvent) : Prop :=
  (signCommands events).length ≤ 1 ∧
  ∀ command ∈ signCommands events, ∃ shown answer encoded, ∃ domain message : Word,
    events = shown ++ [.exchanged command answer] ∧
    Ledger.encodePath path = .ok encoded ∧
    command.data = encoded ++ domain.bytes ++ message.bytes ∧
    lines shown =
      ["Generating payload, please check your Ledger...",
        "Signing the following payload with EIP-712:",
        "- Domain: " ++ Hex.inCapitals domain.bytes,
        "- Message: " ++ Hex.inCapitals message.bytes]

theorem signsWhatWasShown_of_none {events : List DeskEvent} (none : signCommands events = [])
    (path : Path) : SignsWhatWasShown path events := by
  refine ⟨by simp only [none, List.length_nil, Nat.zero_le], ?_⟩
  intro command asked
  rw [none] at asked
  cases asked

theorem signsWhatWasShown_of_quiet {attempt : List DeskEvent} (quiet : Quiet attempt)
    (path : Path) : SignsWhatWasShown path (.printed notice :: attempt) := by
  apply signsWhatWasShown_of_none
  exact quiet.2

theorem signsWhatWasShown_of_hashed {typedData : TypedData} {hashes : TypedData.SigningHashes}
    {path : Path} {command : Apdu.Command} {attempt : List DeskEvent}
    (hashed : typedData.signingHashes = .ok hashes) (quiet : Quiet attempt)
    (made : Ledger.signCommand path typedData = .ok command)
    (answer : Except Error Apdu.Response) :
    SignsWhatWasShown path
      (.printed notice :: attempt ++ hashes.lines.map .printed ++ [.exchanged command answer]) := by
  obtain ⟨encoded, hashes', written, hashed', ins, data⟩ := Ledger.signCommand_ok made
  obtain rfl := Except.ok.inj (hashed.symm.trans hashed')
  have quietly : signCommands (.printed notice :: attempt ++ hashes.lines.map .printed) = [] := by
    rw [DeskEvent.signCommands_append, DeskEvent.signCommands_printed, List.append_nil]
    exact quiet.2
  have one : signCommands (.printed notice :: attempt ++ hashes.lines.map .printed ++
      [.exchanged command answer]) = [command] := by
    rw [DeskEvent.signCommands_append, quietly, List.nil_append]
    simp only [signCommands, List.filterMap_cons, if_pos ins, List.filterMap_nil]
  refine ⟨by simp only [one, List.length_singleton, Nat.le_refl], ?_⟩
  intro command' asked
  rw [one] at asked
  cases List.mem_singleton.mp asked
  refine ⟨_, answer, encoded, hashes.domain, hashes.message, rfl, written, data, ?_⟩
  rw [DeskEvent.lines_append, DeskEvent.lines_printed, hashes.lines_eq]
  exact congrArg (notice :: · ++ _) quiet.1

/-- What one request for a signature adds to the record of a desk. -/
theorem sign_adds {signer : Signer Ledger} {d : Desk τ}
    (asSet : Holds Session.PinsAsSet (signer, d)) (path : Path) (document : Bytes) :
    Desk.Adds (SignsWhatWasShown path) d
      (sign (Desk.host t name) path document (signer, d)).2.2 := by
  have call := sign_call (Desk.host t name) path document signer d
  generalize sign (Desk.host t name) path document (signer, d) = r at call ⊢
  cases call with
  | noSession none => exact ⟨[.printed notice], rfl, signsWhatWasShown_of_none rfl path⟩
  | underivable bound reached =>
      obtain ⟨attempt, quiet, noted⟩ := Session.reach_adds reached
      exact ⟨_, noted, signsWhatWasShown_of_quiet quiet path⟩
  | unreadable bound reached built =>
      obtain ⟨attempt, quiet, noted⟩ := Session.reach_adds reached
      exact ⟨_, noted, signsWhatWasShown_of_quiet quiet path⟩
  | unhashable bound reached built hashed =>
      obtain ⟨attempt, quiet, noted⟩ := Session.reach_adds reached
      exact ⟨_, noted, signsWhatWasShown_of_quiet quiet path⟩
  | @asked session account typedData hashes answer r r' bound reached built hashed answered =>
      obtain ⟨attempt, quiet, noted⟩ := Session.reach_adds reached
      have kept : Session.PinsAsSet (session, (Desk.host t name).print notice d) :=
        asSet session bound
      have found : r.1.wallet.signingPath account = path :=
        Session.reach_signingPath rfl kept reached
      obtain ⟨events, added, sent⟩ := Ledger.sign_adds (t := t) account typedData r.1.wallet
        (printAll (Desk.host t name) hashes.lines r.2)
      have ended : r'.2 = (Ledger.sign (Desk.transport t) account typedData
          (r.1.wallet, printAll (Desk.host t name) hashes.lines r.2)).2.2 :=
        congrArg (·.2.2) answered.symm
      refine ⟨.printed notice :: attempt ++ hashes.lines.map .printed ++ events, ?_, ?_⟩
      · change r'.2.log = _
        rw [ended, added, printAll_noted, noted]
        simp only [List.append_assoc, List.cons_append]
      · rw [found] at sent
        rcases sent with silent | ⟨command, reply, rfl, made⟩
        · apply signsWhatWasShown_of_none
          rw [DeskEvent.signCommands_append, DeskEvent.signCommands_append,
            DeskEvent.signCommands_printed, silent.2]
          exact congrArg (· ++ [] ++ []) quiet.2
        · exact signsWhatWasShown_of_hashed hashed quiet made reply

/-- In any run of a signer over a Ledger that was new when its session was made, with the link
changed from outside at will, a request for a signature sends what was shown, at its own path. -/
theorem sign_sends_what_was_shown {chosen : SessionSettings} {link : τ}
    {session : Session Ledger} {d : Desk τ}
    (connected : Session.connect (Desk.host t name) chosen ⟨link, []⟩ = (.ok session, d))
    (builder : Builder) (settings : Settings) (operations : List (Operation (τ → τ)))
    (path : Path) (document : Bytes) :
    let before := run (Desk.host t name) Desk.relink (⟨some session, builder, settings⟩, d)
      operations
    let after := sign (Desk.host t name) path document before
    ∃ events, after.2.2.log = before.2.log ++ events ∧ SignsWhatWasShown path events := by
  intro before after
  have asSet : Holds Session.PinsAsSet before := by
    refine run_keeps (Session.pinsAsSet_invariant (t := Desk.transport t) rfl) ?_ operations _ ?_
    · intro change session d kept
      exact kept
    · intro session' same
      cases same
      exact fun _ => Session.connect_unpinned connected
  exact sign_adds asSet path document

/-- The script of a device that has one key at all paths, and then declines to sign. -/
def oneKeyScript : Script :=
  let key : PublicKey := ⟨Secp256k1.basePoint⟩
  let reply := 65 :: key.uncompressed ++
    42 :: Bytes.ofString (Address.ofPublicKey key).toHex ++ [0x90, 0x00]
  ⟨false, [], [.ok [0, 1, 9, 20, 0x90, 0x00], .ok reply, .ok reply, .ok [0x69, 0x85]], [], []⟩

/-- The key of the second path is pinned at the first already. -/
theorem sign_sends_what_was_shown_at_second_path :
    let types := [("Note", Json.array [.object [("name", .string "memo"),
      ("type", .string "string")]])]
    let document := Bytes.ofString <| Json.render <| .object
      [("types", .object types), ("primaryType", .string "Note"), ("domain", .object []),
       ("message", .object [("memo", .string "hi")])]
    ∃ session d, Session.connect (Desk.host Script.transport "Nano") .default
        ⟨oneKeyScript, []⟩ = (.ok session, d) ∧
      let before := run (Desk.host Script.transport "Nano") Desk.relink
        (⟨some session, .document, .default⟩, d) [.publicKey (.ethereum 0)]
      let after := sign (Desk.host Script.transport "Nano") (.ethereum 1) document before
      (signCommands after.2.2.log).map (·.data.take 21) =
        [[5, 0x80, 0, 0, 44, 0x80, 0, 0, 60, 0x80, 0, 0, 0, 0, 0, 0, 0, 0, 0, 0, 1]] ∧
      ∃ events, after.2.2.log = before.2.log ++ events ∧
        SignsWhatWasShown (.ethereum 1) events := by
  intro types document
  have connected : Session.connect (Desk.host Script.transport "Nano") .default
    ⟨oneKeyScript, []⟩ = (.ok _, _) := rfl
  refine ⟨_, _, connected, ?_, sign_sends_what_was_shown connected .document .default _ _ _⟩
  decide +kernel

end Signer

end

end HardwareSigner
