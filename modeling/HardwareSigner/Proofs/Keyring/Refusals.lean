import HardwareSigner.Proofs.Keyring.Disclosure
/-!
What a signer can fail with.  Whatever goes wrong when the wallet is opened again or derives an
account, a keyring hears one fixed piece of advice; every other error of an operation is listed with
what it takes to be told it, in terms of what the host was asked and what it answered.
-/

namespace HardwareSigner
variable {W σ α : Type}

/-- What wallets answered when they were asked to sign, in order. -/
def Event.answers (events : List Event) : List (Account × TypedData × Except Error Bytes) :=
  events.filterMap fun
    | signed account typedData outcome => some (account, typedData, outcome)
    | _ => none

@[simp] theorem Event.answers_append (es fs : List Event) :
    answers (es ++ fs) = answers es ++ answers fs := List.filterMap_append

@[simp] theorem Event.answers_printed (lines : List String) :
    answers (lines.map .printed) = [] := by
  rw [answers, List.filterMap_map]
  exact List.filterMap_eq_nil_iff.mpr fun _ _ => rfl

namespace Signer

/-- Why there is no account to go on with: there is no session, or the wallet derived none. -/
inductive Unreached (operation advice : String) (path : Path) (session : Option (Session W))
    (events : List Event) : Error → Prop where
  | noSession : session = none →
      Unreached operation advice path session events (.noSession operation)
  | underivable {cause} : (path, .error cause) ∈ Event.derivations events →
      Unreached operation advice path session events (.derivation advice)

/-- Why the address of an account cannot be written. -/
inductive Unspelled (hrp : String) (path : Path) (events : List Event) : Error → Prop where
  | unspellable {account fault} : (path, .ok account) ∈ Event.derivations events →
      account.address.toBech32 hrp = .error fault →
      Unspelled hrp path events (.encoding (Address.Bech32Fault.text fault))

/-- Why a document stays unsigned although there is an account to sign it with. -/
inductive Unsigned (path : Path) (document : Bytes) (events : List Event) : Error → Prop where
  | unreadable {account detail} : (path, .ok account) ∈ Event.derivations events →
      TypedData.ofBytes document = .error (.badJson detail) →
      Unsigned path document events (.badJson detail)
  | unhashable {account typedData cause} : (path, .ok account) ∈ Event.derivations events →
      TypedData.ofBytes document = .ok typedData → typedData.signingHashes = .error cause →
      Unsigned path document events (.hashComputation cause)
  | refused {account typedData cause} : (account, typedData, .error cause) ∈ Event.answers events →
      Unsigned path document events (.signing cause)

theorem unreached_iff {operation advice : String} {path : Path} {session : Option (Session W)}
    {events : List Event} {e : Error} :
    Unreached operation advice path session events e ↔
      session = none ∧ e = .noSession operation ∨
      (∃ cause, (path, .error cause) ∈ Event.derivations events) ∧ e = .derivation advice := by
  constructor
  · rintro (none | derived)
    · exact .inl ⟨none, rfl⟩
    · exact .inr ⟨⟨_, derived⟩, rfl⟩
  · rintro (⟨none, rfl⟩ | ⟨⟨cause, derived⟩, rfl⟩)
    · exact .noSession none
    · exact .underivable derived

theorem unsigned_iff {path : Path} {document : Bytes} {events : List Event} {e : Error} :
    Unsigned path document events e ↔
      (∃ account, (path, .ok account) ∈ Event.derivations events) ∧
        ((∃ detail, TypedData.ofBytes document = .error (.badJson detail) ∧ e = .badJson detail) ∨
          ∃ typedData cause, TypedData.ofBytes document = .ok typedData ∧
            typedData.signingHashes = .error cause ∧ e = .hashComputation cause) ∨
      ∃ account typedData cause, (account, typedData, .error cause) ∈ Event.answers events ∧
        e = .signing cause := by
  constructor
  · rintro (⟨derived, unread⟩ | ⟨derived, built, unhashed⟩ | refused)
    · exact .inl ⟨⟨_, derived⟩, .inl ⟨_, unread, rfl⟩⟩
    · exact .inl ⟨⟨_, derived⟩, .inr ⟨_, _, built, unhashed, rfl⟩⟩
    · exact .inr ⟨_, _, _, refused, rfl⟩
  · rintro (⟨⟨account, derived⟩, ⟨detail, unread, rfl⟩ | ⟨typedData, cause, built, unhashed, rfl⟩⟩ |
      ⟨account, typedData, cause, refused, rfl⟩)
    · exact .unreadable derived unread
    · exact .unhashable derived built unhashed
    · exact .refused refused

/-- A document that cannot be read fails as a document, whatever is wrong with it. -/
theorem badJson_of_ofBytes {bs : Bytes} {e : Error} (unread : TypedData.ofBytes bs = .error e) :
    ∃ detail, e = .badJson detail := by
  rw [TypedData.ofBytes] at unread
  split at unread
  · cases unread
  · cases unread
    exact ⟨_, rfl⟩

/-- All that happens in an inquiry: without a session nothing does; with one the wallet is opened if
need be and asked for the account, and what is told depends on its answer alone. -/
theorem inquire_recorded (host : Host W σ) (operation advice : String) (path : Path)
    (tell : Account → Except Error α) (signer : Signer W) (s : σ) :
    let r := inquire host.recorded.toDevice operation advice path tell (signer, (s, []))
    (signer.session = none ∧ r = (.error (.noSession operation), (signer, (s, [])))) ∨
    (signer.session ≠ none ∧ ∃ outcome, Event.derivations r.2.2.2 = [(path, outcome)] ∧
      r.1 =
        match outcome with
        | .ok account => tell account
        | .error _ => .error (.derivation advice)) := by
  intro r
  cases bound : signer.session with
  | none => exact .inl ⟨rfl, withSession_none bound _ _ _⟩
  | some session =>
      right
      refine ⟨nofun, ?_⟩
      have went : r = _ := withSession_some bound _ _ _
      rcases reached : Session.reach host.recorded.toDevice path (session, (s, [])) with
        ⟨outcome, r'⟩
      obtain ⟨passphrase, opening, pin, noted⟩ := Session.reach_recorded reached
      refine ⟨outcome, ?_⟩
      unfold Action.andThen at went
      cases outcome with
      | error e =>
          rw [account_of_reach_error reached] at went
          rw [went, resume, noted]
          exact ⟨rfl, rfl⟩
      | ok found =>
          rw [account_of_reach_ok reached] at went
          rw [went, resume, noted]
          exact ⟨rfl, rfl⟩

/-- An inquiry fails because there is no account, or with what is told of the account there is. -/
theorem inquire_error_iff (host : Host W σ) (operation advice : String) (path : Path)
    (tell : Account → Except Error α) (signer : Signer W) (s : σ) (e : Error) :
    let r := inquire host.recorded.toDevice operation advice path tell (signer, (s, []))
    r.1 = .error e ↔
      Unreached operation advice path signer.session r.2.2.2 e ∨
      ∃ account, (path, .ok account) ∈ Event.derivations r.2.2.2 ∧ tell account = .error e := by
  intro r
  rw [unreached_iff]
  rcases inquire_recorded host operation advice path tell signer s with
    ⟨none, went⟩ | ⟨some, outcome, derived, told⟩
  · have quiet : Event.derivations r.2.2.2 = [] := congrArg (Event.derivations ·.2.2.2) went
    have failed : r.1 = .error (.noSession operation) := congrArg Prod.fst went
    simp [failed, quiet, none, eq_comm]
  · rw [show r.1 = _ from told, show Event.derivations r.2.2.2 = _ from derived]
    cases outcome <;> simp [some, eq_comm]

/-- What the record of a request tells once the wallet was asked for the account. -/
theorem views_of_reach {host : Host W σ} {path : Path} {session : Session W} {s : σ}
    {outcome : Except Error Account} {r : Session W × (σ × List Event)}
    (reached : Session.reach host.recorded.toDevice path
      (session, host.recorded.print notice (s, [])) = (outcome, r)) :
    Event.derivations r.2.2 = [(path, outcome)] ∧ Event.answers r.2.2 = [] := by
  obtain ⟨passphrase, opening, pin, noted⟩ := Session.reach_recorded reached
  rw [noted]
  exact ⟨rfl, rfl⟩

theorem mapError_eq_error_iff {ε δ : Type} {f : ε → δ} {outcome : Except ε α} {d : δ} :
    outcome.mapError f = .error d ↔ ∃ cause, outcome = .error cause ∧ d = f cause := by
  cases outcome with
  | ok a =>
      constructor
      · intro failed
        cases failed
      · rintro ⟨cause, impossible, -⟩
        cases impossible
  | error cause =>
      constructor
      · intro failed
        cases failed
        exact ⟨cause, rfl, rfl⟩
      · rintro ⟨_, ⟨⟩, rfl⟩
        rfl

/-- A request for a signature fails for one of the reasons listed, and always for one of them. -/
theorem sign_error_iff (host : Host W σ) (session : Option (Session W)) (settings : Settings)
    (path : Path) (document : Bytes) (s : σ) (e : Error) :
    let r := sign host.recorded path document (⟨session, .document, settings⟩, (s, []))
    r.1 = .error e ↔
      Unreached "sign with Ledger" addressAdvice path session r.2.2.2 e ∨
      Unsigned path document r.2.2.2 e := by
  intro r
  have call : SignCall host.recorded path document ⟨session, .document, settings⟩ (s, []) r :=
    sign_call host.recorded path document ⟨session, .document, settings⟩ (s, [])
  clear_value r
  rw [unreached_iff, unsigned_iff]
  -- In each of the ways a request goes, the record tells the derivation and the wallet's answer.
  cases call with
  | noSession missing =>
      have quiet : Event.derivations (host.recorded.print notice (s, [])).2 = [] := rfl
      have silent : Event.answers (host.recorded.print notice (s, [])).2 = [] := rfl
      simp [quiet, silent, show session = none from missing, eq_comm]
  | underivable bound reached =>
      obtain ⟨derived, silent⟩ := views_of_reach reached
      simp [resume, derived, silent, show session = _ from bound, eq_comm]
  | unreadable bound reached built =>
      obtain ⟨derived, silent⟩ := views_of_reach reached
      obtain ⟨detail, rfl⟩ := badJson_of_ofBytes built
      have unread : TypedData.ofBytes document = .error (.badJson detail) := built
      simp [resume, derived, silent, unread, show session = _ from bound, eq_comm]
  | unhashable bound reached built hashed =>
      obtain ⟨derived, silent⟩ := views_of_reach reached
      have read : TypedData.ofBytes document = .ok _ := built
      simp [resume, derived, silent, read, hashed, show session = _ from bound, eq_comm]
  | @asked _ account typedData hashes answer r r' bound reached built hashed answered =>
      obtain ⟨derived, silent⟩ := views_of_reach reached
      have request := Session.sign_recorded answered
      rw [printAll_recorded] at request
      have derived' : Event.derivations r'.2.2 = [(path, .ok account)] := by
        rw [request, Event.derivations_append, Event.derivations_append, derived,
          Event.derivations_printed]
        rfl
      have asked' : Event.answers r'.2.2 = [(account, typedData, answer)] := by
        rw [request, Event.answers_append, Event.answers_append, silent, Event.answers_printed]
        rfl
      have read : TypedData.ofBytes document = .ok _ := built
      have told : answer.mapError .signing = .error e ↔
          ∃ cause, answer = .error cause ∧ e = .signing cause := mapError_eq_error_iff
      simp only [resume, told]
      cases answer <;>
        simp [derived', asked', read, hashed, show session = _ from bound, and_assoc, eq_comm]

/-- The address of an account fails to be told for want of the account, or of a way to write it. -/
theorem addressAndKey_error_iff (host : Host W σ) (path : Path) (hrp : String) (signer : Signer W)
    (s : σ) (e : Error) :
    let r := addressAndKey host.recorded.toDevice path hrp (signer, (s, []))
    r.1 = .error e ↔
      Unreached "get Ledger address" addressAdvice path signer.session r.2.2.2 e ∨
      Unspelled hrp path r.2.2.2 e := by
  intro r
  refine (inquire_error_iff host _ _ path (describe hrp) signer s e).trans (or_congr_right ?_)
  constructor
  · rintro ⟨account, derived, failed⟩
    rw [describe] at failed
    cases spelled : account.address.toBech32 hrp with
    | ok text =>
        rw [spelled] at failed
        cases failed
    | error fault =>
        rw [spelled] at failed
        cases failed
        exact .unspellable derived spelled
  · rintro (⟨derived, spelled⟩)
    exact ⟨_, derived, by rw [describe, spelled]⟩

/-- The errors that a keyring can see, and when it sees each.  A key fails for want of a session or
an account only, an address also if it cannot be written, and a signature if the document is no
document of typed data, cannot be hashed, or is refused by the wallet; the causes that are kept are
those of the hashes and of the wallet's refusal.  No error of an attempt to open the wallet or to
derive an account is passed on.  Without a session the wallet is not reached at all. -/
theorem fails_only_as_documented (host : Host W σ) (session : Option (Session W))
    (builder : Builder) (settings : Settings) (s : σ) (path : Path) (hrp : String)
    (document : Bytes) :
    let signer : Signer W := ⟨session, builder, settings⟩
    let key := publicKey host.recorded.toDevice path (signer, (s, []))
    let address := addressAndKey host.recorded.toDevice path hrp (signer, (s, []))
    let signature := sign host.recorded path document (⟨session, .document, settings⟩, (s, []))
    (∀ e, key.1 = .error e ↔
      Unreached "get Ledger public key" "unable to derive public key, please retry" path session
        key.2.2.2 e) ∧
    (∀ e, address.1 = .error e ↔
      Unreached "get Ledger address"
        "unable to derive Ledger address, please open the Ethereum app and retry" path session
        address.2.2.2 e ∨
      Unspelled hrp path address.2.2.2 e) ∧
    (∀ e, signature.1 = .error e ↔
      Unreached "sign with Ledger"
        "unable to derive Ledger address, please open the Ethereum app and retry" path session
        signature.2.2.2 e ∨
      Unsigned path document signature.2.2.2 e) ∧
    (session = none →
      key = (.error (.noSession "get Ledger public key"), (signer, (s, []))) ∧
      address = (.error (.noSession "get Ledger address"), (signer, (s, []))) ∧
      close host.recorded.toDevice (signer, (s, [])) =
        (.error (.noSession "close Ledger"), (signer, (s, []))) ∧
      sign host.recorded path document (signer, (s, [])) =
        (.error (.noSession "sign with Ledger"),
          (signer, (host.print notice s, [.printed notice])))) ∧
    Refines Prod.fst (publicKey host.recorded.toDevice path) (publicKey host.toDevice path) ∧
    Refines Prod.fst (addressAndKey host.recorded.toDevice path hrp)
      (addressAndKey host.toDevice path hrp) ∧
    Refines Prod.fst (sign host.recorded path document) (sign host path document) ∧
    Refines Prod.fst (close host.recorded.toDevice) (close host.toDevice) := by
  intro signer key address signature
  have erased := host.recorded_refines
  refine ⟨?_, addressAndKey_error_iff host path hrp signer s,
    sign_error_iff host session settings path document s, ?_, publicKey_refines erased path,
    addressAndKey_refines erased path hrp, sign_refines erased path document, close_refines erased⟩
  · intro e
    refine (inquire_error_iff host _ _ path _ signer s e).trans (or_iff_left ?_)
    rintro ⟨account, -, told⟩
    cases told
  · intro missing
    have bare : signer.session = none := missing
    refine ⟨withSession_none bare _ _ _, withSession_none bare _ _ _,
      withSession_none bare _ _ _, ?_⟩
    rw [sign, withSession_none bare]
    rfl

end Signer

end HardwareSigner
