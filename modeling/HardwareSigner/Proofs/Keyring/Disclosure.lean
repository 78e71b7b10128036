import HardwareSigner.Proofs.HexTexts
import HardwareSigner.Proofs.Keyring.Recording
/-!
Nothing is signed that was not shown.  On a recorded host the events of a request for a signature
are known one by one: `sign_events` lists them, and `sign_asks_for_what_was_shown` reads off what
the operator was told before the wallet was asked.
-/

namespace HardwareSigner
variable {W σ : Type}

namespace Event

@[simp] theorem lines_append (es fs : List Event) : lines (es ++ fs) = lines es ++ lines fs :=
  List.filterMap_append

@[simp] theorem derivations_append (es fs : List Event) :
    derivations (es ++ fs) = derivations es ++ derivations fs := List.filterMap_append

@[simp] theorem requests_append (es fs : List Event) :
    requests (es ++ fs) = requests es ++ requests fs := List.filterMap_append

@[simp] theorem lines_printed (lines : List String) :
    Event.lines (lines.map .printed) = lines := by
  rw [Event.lines, List.filterMap_map]
  exact List.filterMap_some

@[simp] theorem derivations_printed (lines : List String) :
    derivations (lines.map .printed) = [] := by
  rw [derivations, List.filterMap_map]
  exact List.filterMap_eq_nil_iff.mpr fun _ _ => rfl

@[simp] theorem requests_printed (lines : List String) :
    requests (lines.map .printed) = [] := by
  rw [requests, List.filterMap_map]
  exact List.filterMap_eq_nil_iff.mpr fun _ _ => rfl

end Event

/-- The attempt to open the wallet and the derivation are noted, and nothing else. -/
theorem Session.reach_recorded {host : Host W σ} {path : Path} {session : Session W}
    {t : σ × List Event} {outcome : Except Error Account} {r : Session W × (σ × List Event)}
    (reached : reach host.recorded.toDevice path (session, t) = (outcome, r)) :
    ∃ passphrase opening pin,
      r.2.2 = t.2 ++ [.opened passphrase opening, .derived path pin outcome] := by
  simp only [reach_eq, Host.recorded, recording, Prod.mk.injEq] at reached
  obtain ⟨rfl, rfl⟩ := reached
  exact ⟨_, _, _, List.append_assoc _ _ _⟩

theorem Session.sign_recorded {host : Host W σ} {account : Account} {typedData : TypedData}
    {session : Session W} {t : σ × List Event} {answer : Except Error Bytes}
    {r : Session W × (σ × List Event)}
    (asked : sign host.recorded.toDevice account typedData (session, t) = (answer, r)) :
    r.2.2 = t.2 ++ [.signed account typedData answer] := by
  simp only [sign, run, Host.recorded, recording, Prod.mk.injEq] at asked
  obtain ⟨rfl, rfl⟩ := asked
  rfl

theorem Signer.printAll_recorded (host : Host W σ) (lines : List String) (t : σ × List Event) :
    (printAll host.recorded lines t).2 = t.2 ++ lines.map .printed :=
  @printAll_log W _ Event host.recorded Prod.snd .printed (fun _ _ => rfl) lines t

namespace Signer

/-- What stops a request for a signature before the wallet is asked. -/
def Unready (builder : Builder) (document : Bytes) (path : Path) (attempt : List Event) : Prop :=
  ¬ ∃ account typedData hashes, (path, .ok account) ∈ Event.derivations attempt ∧
    builder document = .ok typedData ∧ typedData.signingHashes = .ok hashes

/-- What happens before a wallet is asked to sign. -/
def briefing (path : Path) (account : Account) (hashes : TypedData.SigningHashes)
    (passphrase : String) (opening : Except Error Unit) (pin : Bool) : List Event :=
  [.printed notice, .opened passphrase opening, .derived path pin (.ok account)] ++
    hashes.lines.map .printed

section
variable (path : Path) (account : Account) (hashes : TypedData.SigningHashes) (passphrase : String)
  (opening : Except Error Unit) (pin : Bool)

@[simp] theorem lines_briefing :
    Event.lines (briefing path account hashes passphrase opening pin) = notice :: hashes.lines := by
  rw [briefing, Event.lines_append, Event.lines_printed]
  rfl

@[simp] theorem derivations_briefing :
    Event.derivations (briefing path account hashes passphrase opening pin) =
      [(path, .ok account)] := by
  rw [briefing, Event.derivations_append, Event.derivations_printed]
  rfl

@[simp] theorem requests_briefing :
    Event.requests (briefing path account hashes passphrase opening pin) = [] := by
  rw [briefing, Event.requests_append, Event.requests_printed]
  rfl

end

/-- All that happens in a request for a signature: either it ends before the wallet is asked, with
no line printed after the notice, or the wallet is asked once, after both hashes were printed. -/
theorem sign_events (host : Host W σ) (path : Path) (document : Bytes) (signer : Signer W)
    (s : σ) :
    let r := sign host.recorded path document (signer, (s, []))
    (∃ e attempt, r.1 = .error e ∧ r.2.2.2 = .printed notice :: attempt ∧
      Event.lines attempt = [] ∧ Event.requests attempt = [] ∧
      Unready signer.builder document path attempt) ∨
    (∃ account typedData hashes passphrase opening pin answer,
      r.1 = answer.mapError .signing ∧ signer.builder document = .ok typedData ∧
      typedData.signingHashes = .ok hashes ∧
      r.2.2.2 = briefing path account hashes passphrase opening pin ++
        [.signed account typedData answer]) := by
  have call := sign_call host.recorded path document signer (s, [])
  generalize sign host.recorded path document (signer, (s, [])) = r at call ⊢
  -- Every rule but the last ends before the wallet is asked.
  cases call with
  | noSession none =>
      left
      refine ⟨_, [], rfl, rfl, rfl, rfl, ?_⟩
      rintro ⟨account, typedData, hashes, derived, -⟩
      cases derived
  | underivable bound reached =>
      left
      obtain ⟨passphrase, opening, pin, noted⟩ := Session.reach_recorded reached
      refine ⟨_, _, rfl, noted, rfl, rfl, ?_⟩
      rintro ⟨account, typedData, hashes, derived, -⟩
      cases List.mem_singleton.mp derived
  | unreadable bound reached built =>
      left
      obtain ⟨passphrase, opening, pin, noted⟩ := Session.reach_recorded reached
      refine ⟨_, _, rfl, noted, rfl, rfl, ?_⟩
      rintro ⟨account, typedData, hashes, -, found, -⟩
      rw [built] at found
      cases found
  | unhashable bound reached built hashed =>
      left
      obtain ⟨passphrase, opening, pin, noted⟩ := Session.reach_recorded reached
      refine ⟨_, _, rfl, noted, rfl, rfl, ?_⟩
      rintro ⟨account, typedData, hashes, -, found, clash⟩
      obtain rfl := Except.ok.inj (built.symm.trans found)
      rw [hashed] at clash
      cases clash
  | asked bound reached built hashed answered =>
      right
      obtain ⟨passphrase, opening, pin, noted⟩ := Session.reach_recorded reached
      have request := Session.sign_recorded answered
      rw [printAll_recorded, noted] at request
      exact ⟨_, _, _, passphrase, opening, pin, _, rfl, built, hashed, request⟩

/-- The wallet is asked at most once, and then last: for the account just derived at the path, to
sign what the document says, after the operator was shown exactly the notice and both hashes.  It is
asked as soon as there is an account and the hashes can be computed; otherwise the request fails and
the operator saw the notice only.  The record changes nothing in what the host does. -/
theorem sign_asks_for_what_was_shown (host : Host W σ) (session : Option (Session W))
    (settings : Settings) (path : Path) (document : Bytes) (s : σ) :
    let signer : Signer W := ⟨session, .document, settings⟩
    let r := sign host.recorded path document (signer, (s, []))
    let events := r.2.2.2
    sign host path document (signer, s) = (r.1, (r.2.1, r.2.2.1)) ∧
    (Event.requests events).length ≤ 1 ∧
    (∀ account typedData, (account, typedData) ∈ Event.requests events →
      ∃ before answer hashes, events = before ++ [.signed account typedData answer] ∧
        Event.requests before = [] ∧
        Event.derivations before = [(path, .ok account)] ∧
        TypedData.ofBytes document = .ok typedData ∧
        typedData.signingHashes = .ok hashes ∧
        Event.lines before =
          ["Generating payload, please check your Ledger...",
            "Signing the following payload with EIP-712:",
            "- Domain: " ++ Hex.inCapitals hashes.domain.bytes,
            "- Message: " ++ Hex.inCapitals hashes.message.bytes]) ∧
    (Event.requests events ≠ [] ↔ ∃ account typedData hashes,
      (path, .ok account) ∈ Event.derivations events ∧
      TypedData.ofBytes document = .ok typedData ∧ typedData.signingHashes = .ok hashes) ∧
    (Event.requests events = [] → (∃ e, r.1 = .error e) ∧
      Event.lines events = ["Generating payload, please check your Ledger..."]) := by
  intro signer r events
  refine ⟨sign_refines host.recorded_refines path document signer (s, []), ?_⟩
  rcases sign_events host path document signer s with
    ⟨e, attempt, failed, noted, silent, unasked, unready⟩ |
    ⟨account, typedData, hashes, passphrase, opening, pin, answer, answered, built, hashed, noted⟩
  · replace noted : events = .printed notice :: attempt := noted
    have none : Event.requests events = [] := by
      rw [noted]
      exact unasked
    have heard : Event.lines events = [notice] := by
      rw [noted]
      exact congrArg (notice :: ·) silent
    refine ⟨by simp only [none, List.length_nil, Nat.zero_le], ?_, ?_, ?_⟩
    · intro account typedData asked
      rw [none] at asked
      cases asked
    · constructor
      · intro asked
        exact absurd none asked
      · intro ready
        rw [noted] at ready
        exact absurd ready unready
    · intro _
      exact ⟨⟨e, failed⟩, heard⟩
  · replace noted : events = _ := noted
    have one : Event.requests events = [(account, typedData)] := by
      rw [noted, Event.requests_append, requests_briefing]
      rfl
    have derived : (path, .ok account) ∈ Event.derivations events := by
      rw [noted, Event.derivations_append, derivations_briefing]
      exact List.mem_singleton.mpr rfl
    refine ⟨by simp only [one, List.length_singleton, Nat.le_refl], ?_, ?_, ?_⟩
    · intro account' typedData' asked
      rw [one] at asked
      cases List.mem_singleton.mp asked
      refine ⟨_, answer, hashes, noted, requests_briefing .., derivations_briefing .., built,
        hashed, ?_⟩
      rw [lines_briefing, hashes.lines_eq]
      rfl
    · constructor
      · intro _
        exact ⟨account, typedData, hashes, derived, built, hashed⟩
      · intro _ none
        rw [one] at none
        cases none
    · intro none
      rw [one] at none
      cases none

/-- A wallet that is open already, and signs everything, is asked to sign a note. -/
theorem sign_asks_for_what_was_shown_note :
    let host : Host Unit Unit :=
      { label := fun _ => "wallet"
        openChannel := fun _ r => (.error .walletAlreadyOpen, r)
        closeChannel := fun r => (.ok (), r)
        derive := fun path _ r => (.ok ⟨⟨Secp256k1.basePoint⟩, .zero, path⟩, r)
        sign := fun _ _ r => (.ok [], r)
        hub := fun s => (.ok (some [()]), s)
        print := fun _ s => s }
    let session : Session Unit := ⟨(), "wallet", .closed, Settings.default.session⟩
    let document := Bytes.ofString <|
      "\x7b\"types\":\x7b\"EIP712Domain\":[],\"Note\":[[\"memo\",\"string\"]]\x7d," ++
      "\"primaryType\":\"Note\",\"domain\":\x7b\x7d,\"message\":\x7b\"memo\":\"hi\"\x7d\x7d"
    let events := (sign host.recorded (.ethereum 0) document
      (⟨some session, .document, .default⟩, ((), []))).2.2.2
    ∃ before account typedData answer hashes,
      events = before ++ [.signed account typedData answer] ∧
      typedData.signingHashes = .ok hashes ∧
      "- Domain: " ++ Hex.inCapitals hashes.domain.bytes =
        "- Domain: 0x6192106F129CE05C9075D319C1FA6EA9B3AE37CBD0C1EF92E2BE7137BB07BAA1" ∧
      "- Message: " ++ Hex.inCapitals hashes.message.bytes =
        "- Message: 0x0189622C98599A2432489AE0A1B9628CD67C6B59CC016305FAF10866AF86A89E" := by
  intro host session document events
  obtain ⟨-, -, asks, -⟩ :=
    sign_asks_for_what_was_shown host (some session) .default (.ethereum 0) document ()
  have asked : Event.requests events ≠ [] := by decide +kernel
  have printed : Event.lines events =
      ["Generating payload, please check your Ledger...",
        "Signing the following payload with EIP-712:",
        "- Domain: 0x6192106F129CE05C9075D319C1FA6EA9B3AE37CBD0C1EF92E2BE7137BB07BAA1",
        "- Message: 0x0189622C98599A2432489AE0A1B9628CD67C6B59CC016305FAF10866AF86A89E"] := by
    decide +kernel
  obtain ⟨⟨account, typedData⟩, request⟩ := List.exists_mem_of_ne_nil _ asked
  obtain ⟨before, answer, hashes, noted, -, -, -, hashed, shown⟩ := asks _ _ request
  have same : Event.lines events = Event.lines before := by
    rw [show events = _ from noted, Event.lines_append]
    exact List.append_nil _
  rw [same, shown] at printed
  simp only [List.cons.injEq, true_and, and_true] at printed
  exact ⟨before, account, typedData, answer, hashes, noted, hashed, printed⟩

end Signer

end HardwareSigner
