import HardwareSigner.Proofs.Keyring.Recording
import HardwareSigner.Proofs.Keyring.Sharing
/-!
When a keyring connects, and to what.  On a watched host every inquiry of the hub and every contact
with a handle is noted, so that it can be told from the notes alone who was asked for what; the
notes change nothing in a run, as `run_through` shows for any host that another one refines.
-/

namespace HardwareSigner
variable {W X σ τ β ε : Type}

/-- What a hub is asked for, or a wallet that it lists. -/
inductive Contact (W : Type) where
  | listing (report : Except Error (Option (List W)))
  | opening (wallet : W) (passphrase : String) (outcome : Except Error Unit)
  | other (wallet : W)

namespace Contact

/-- The reports of the hub among the contacts, in order. -/
def listings (contacts : List (Contact W)) : List (Except Error (Option (List W))) :=
  contacts.filterMap fun
    | listing report => some report
    | _ => none

@[simp] theorem listings_append (contacts later : List (Contact W)) :
    listings (contacts ++ later) = listings contacts ++ listings later := List.filterMap_append

end Contact

/-- Does `act` and notes what came of it, and through which handle. -/
def watching (note : W → β → Contact W) (act : W × σ → β × (W × σ)) :
    W × (σ × List (Contact W)) → β × (W × (σ × List (Contact W))) := fun (w, s, log) =>
  let r := act (w, s)
  (r.1, (r.2.1, (r.2.2, log ++ [note w r.1])))

/-- A host with a record of who was contacted.  The console is nobody. -/
def Host.watched (host : Host W σ) : Host W (σ × List (Contact W)) where
  label := host.label
  openChannel passphrase := watching (.opening · passphrase ·) (host.openChannel passphrase)
  closeChannel := watching (fun w _ => .other w) host.closeChannel
  derive path pin := watching (fun w _ => .other w) (host.derive path pin)
  sign account typedData := watching (fun w _ => .other w) (host.sign account typedData)
  hub := fun (s, log) => ((host.hub s).1, ((host.hub s).2, log ++ [.listing (host.hub s).1]))
  print line := fun (s, log) => (host.print line s, log)

/-- A change from outside, of which no one is told. -/
def unnoticed (outside : ε → σ → σ) (change : ε) (t : σ × List (Contact W)) :
    σ × List (Contact W) :=
  (outside change t.1, t.2)

/-- Refinement of a host with its hub. -/
structure Host.Mirrors (keep : τ → σ) (fine : Host W τ) (coarse : Host W σ) : Prop
    extends Host.Refines keep fine coarse where
  label : coarse.label = fine.label
  hub : ∀ t, coarse.hub (keep t) = ((fine.hub t).1, keep (fine.hub t).2)

theorem Host.watched_mirrors (host : Host W σ) : host.watched.Mirrors Prod.fst host where
  openChannel := by intro passphrase w r; rfl
  closeChannel := by intro w r; rfl
  derive := by intro path pin w r; rfl
  sign := by intro account typedData w r; rfl
  print := by intro line r; rfl
  label := rfl
  hub := by intro r; rfl

/-- A property of the world that neither a device nor the console takes away. -/
structure Host.Invariant (host : Host W σ) (P : σ → Prop) : Prop where
  openChannel : ∀ passphrase, Keeps (fun r => P r.2) (host.openChannel passphrase)
  closeChannel : Keeps (fun r => P r.2) host.closeChannel
  derive : ∀ path pin, Keeps (fun r => P r.2) (host.derive path pin)
  sign : ∀ account typedData, Keeps (fun r => P r.2) (host.sign account typedData)
  print : ∀ line s, P s → P (host.print line s)

theorem Host.Invariant.session {host : Host W σ} {P : σ → Prop} (inv : host.Invariant P) :
    Session.Invariant host fun r => P r.2 where
  reopen := by
    rintro ⟨session, s⟩ holds
    rw [Session.reopen_snd]
    exact inv.openChannel _ (session.wallet, s) holds
  derive path := by
    rintro ⟨session, s⟩ holds
    exact inv.derive path _ (session.wallet, s) holds
  sign account typedData := by
    rintro ⟨session, s⟩ holds
    exact inv.sign account typedData (session.wallet, s) holds
  close := by
    rintro ⟨session, s⟩ holds
    simp only [Session.close]
    split
    · exact holds
    · exact inv.closeChannel (session.wallet, s) holds
  print line session s holds := inv.print line s holds

theorem watching_listings {note : W → β → Contact W}
    (silent : ∀ w b, Contact.listings [note w b] = []) (act : W × σ → β × (W × σ))
    (reports : List (Except Error (Option (List W)))) :
    Keeps (fun r => Contact.listings r.2.2 = reports) (watching note act) := by
  rintro ⟨w, s, log⟩ holds
  rw [watching, Contact.listings_append, silent, List.append_nil]
  exact holds

/-- Wallets do not make a hub list anything. -/
theorem Host.watched_invariant (host : Host W σ) (reports : List (Except Error (Option (List W)))) :
    host.watched.Invariant fun t => Contact.listings t.2 = reports where
  openChannel _ := watching_listings (fun _ _ => rfl) _ reports
  closeChannel := watching_listings (fun _ _ => rfl) _ reports
  derive _ _ := watching_listings (fun _ _ => rfl) _ reports
  sign _ _ := watching_listings (fun _ _ => rfl) _ reports
  print _ _ holds := holds

namespace Session
variable {keep : τ → σ} {fine : Host W τ} {coarse : Host W σ}

theorem connect_mirrors (h : fine.Mirrors keep coarse) (settings : SessionSettings) (t : τ) :
    connect coarse settings (keep t) =
      ((connect fine settings t).1, keep (connect fine settings t).2) := by
  simp only [connect, Action.andThen, firstWallet, h.hub]
  rcases fine.hub t with ⟨e | _ | _ | ⟨first, others⟩, u⟩
  · rfl
  · rfl
  · rfl
  · have opening := h.openChannel settings.passphrase first u
    simp only [opening, h.label]
    rcases fine.openChannel settings.passphrase (first, u) with ⟨e | _, w, v⟩
    · rfl
    · rfl

end Session

namespace Signer
variable {keep : τ → σ} {fine : Host W τ} {coarse : Host W σ} {host : Host W σ}

theorem perform_mirrors (h : fine.Refines keep coarse) {inside : ε → τ → τ} {outside : ε → σ → σ}
    (same : ∀ change t, outside change (keep t) = keep (inside change t)) (signer : Signer W)
    (t : τ) (operation : Operation ε) :
    let r := perform fine inside (signer, t) operation
    perform coarse outside (signer, keep t) operation = (r.1, keep r.2) := by
  cases operation with
  | publicKey path => exact congrArg Prod.snd (publicKey_refines h path signer t)
  | addressAndKey path hrp => exact congrArg Prod.snd (addressAndKey_refines h path hrp signer t)
  | sign path document => exact congrArg Prod.snd (sign_refines h path document signer t)
  | close => exact congrArg Prod.snd (close_refines h signer t)
  | outside change => exact congrArg (Prod.mk signer) (same change t)

/-- What devices and console keep, every operation of a signer keeps. -/
theorem perform_world {P : σ → Prop} (inv : host.Invariant P) {outside : ε → σ → σ}
    (undisturbed : ∀ change s, P s → P (outside change s)) (r : Signer W × σ)
    (operation : Operation ε) (holds : P r.2) : P (perform host outside r operation).2 := by
  obtain ⟨signer, s⟩ := r
  cases bound : signer.session with
  | some session =>
      have connected : signer.isConnected = true := by rw [isConnected, bound, Option.isSome_some]
      rw [← perform_isConnected host outside (signer, s) operation] at connected
      obtain ⟨session', bound'⟩ := Option.isSome_iff_exists.mp connected
      exact perform_keeps inv.session (fun change _ s => undisturbed change s) operation
        (signer, s) (fun _ _ => holds) session' bound'
  | none =>
      -- Without a session nothing is asked of a device.
      cases operation with
      | publicKey path =>
          rw [perform, publicKey, withSession_none bound]
          exact holds
      | addressAndKey path hrp =>
          rw [perform, addressAndKey, withSession_none bound]
          exact holds
      | sign path document =>
          rw [perform, sign, withSession_none bound]
          exact inv.print notice s holds
      | close =>
          rw [perform, close, withSession_none bound]
          exact holds
      | outside change => exact undisturbed change s holds

end Signer

namespace Keyring

/-- A keyring with its world seen through `keep`. -/
def through (keep : τ → σ) (k : Keyring W τ) : Keyring W σ :=
  ⟨keep k.world, k.signers, k.shared, k.settings, k.builder⟩

section
variable {keep : τ → σ} {fine : Host W τ} {coarse : Host W σ} {inside : ε → τ → τ}
  {outside : ε → σ → σ}

theorem signer_through (h : fine.Mirrors keep coarse) (k : Keyring W τ) :
    signer coarse (k.through keep) = ((signer fine k).1, (signer fine k).2.through keep) := by
  cases chosen : k.shared with
  | some i =>
      have chosen' : (k.through keep).shared = some i := chosen
      rw [signer_of_shared chosen, signer_of_shared chosen']
  | none =>
      have chosen' : (k.through keep).shared = none := chosen
      have connecting := Session.connect_mirrors h k.settings.session k.world
      rcases connected : Session.connect fine k.settings.session k.world with ⟨e | session, t⟩
      · rw [connected] at connecting
        rw [signer_of_error chosen connected, signer_of_error chosen' connecting]
        rfl
      · rw [connected] at connecting
        rw [signer_of_ok chosen connected, signer_of_ok chosen' connecting]
        rfl

theorem use_through (h : fine.Refines keep coarse)
    (same : ∀ change t, outside change (keep t) = keep (inside change t)) (k : Keyring W τ)
    (i : Nat) (operation : Operation ε) :
    perform coarse outside (k.through keep) (.use i operation) =
      (perform fine inside k (.use i operation)).through keep := by
  cases known : k.signers[i]? with
  | none =>
      have known' : (k.through keep).signers[i]? = none := known
      rw [use_of_none known, use_of_none known']
  | some signer =>
      have known' : (k.through keep).signers[i]? = some signer := known
      have performed :
          Signer.perform coarse outside (signer, (k.through keep).world) operation = _ :=
        Signer.perform_mirrors h same signer k.world operation
      rw [use_of_some known, use_of_some known', performed]
      rfl

/-- A call goes on the coarse host as it goes on the fine one. -/
theorem perform_through (h : fine.Mirrors keep coarse)
    (same : ∀ change t, outside change (keep t) = keep (inside change t)) (k : Keyring W τ)
    (call : Call ε) :
    perform coarse outside (k.through keep) call = (perform fine inside k call).through keep := by
  cases call with
  | signer => exact congrArg Prod.snd (signer_through h k)
  | use i operation => exact use_through h.toRefines same k i operation
  | reset =>
      cases chosen : k.shared with
      | none =>
          have chosen' : (k.through keep).shared = none := chosen
          rw [perform, perform, reset_of_unshared chosen, reset_of_unshared chosen']
      | some i =>
          have chosen' : (k.through keep).shared = some i := chosen
          rw [perform, perform, reset_of_shared chosen inside, reset_of_shared chosen' outside]
          exact use_through h.toRefines same { k with shared := none } i .close

theorem run_through (h : fine.Mirrors keep coarse)
    (same : ∀ change t, outside change (keep t) = keep (inside change t)) (k : Keyring W τ)
    (calls : List (Call ε)) :
    run coarse outside (k.through keep) calls = (run fine inside k calls).through keep := by
  induction calls generalizing k with
  | nil => rfl
  | cons call calls ih =>
      have first := perform_through h same k call
      simp only [run, List.foldl_cons, first]
      exact ih (perform fine inside k call)

end

section
variable {host : Host W σ} {outside : ε → σ → σ}

/-- Using a signer changes nothing about which one is shared. -/
theorem use_shared (k : Keyring W σ) (i : Nat) (operation : Operation ε) :
    (perform host outside k (.use i operation)).shared = k.shared := by
  cases known : k.signers[i]? with
  | none => rw [use_of_none known]
  | some signer => rw [use_of_some known]

theorem use_world {P : σ → Prop} (inv : host.Invariant P)
    (undisturbed : ∀ change s, P s → P (outside change s)) (k : Keyring W σ) (i : Nat)
    (operation : Operation ε) (holds : P k.world) :
    P (perform host outside k (.use i operation)).world := by
  cases known : k.signers[i]? with
  | none =>
      rw [use_of_none known]
      exact holds
  | some signer =>
      rw [use_of_some known]
      exact Signer.perform_world inv undisturbed (signer, k.world) operation holds

/-- Nothing is shared after a reset, however closing went. -/
theorem reset_shared (host : Host W σ) (k : Keyring W σ) :
    (reset host.toDevice k).2.shared = none := by
  cases chosen : k.shared with
  | none =>
      rw [reset_of_unshared chosen]
      exact chosen
  | some i =>
      rw [reset_of_shared chosen Empty.elim]
      exact use_shared _ i .close

theorem reset_world {P : σ → Prop} (inv : host.Invariant P) (k : Keyring W σ)
    (holds : P k.world) : P (reset host.toDevice k).2.world := by
  cases chosen : k.shared with
  | none =>
      rw [reset_of_unshared chosen]
      exact holds
  | some i =>
      rw [reset_of_shared chosen Empty.elim]
      exact use_world inv nofun _ i .close holds

/-- A signer stays shared until the keyring is reset. -/
theorem run_shared {k : Keyring W σ} {i : Nat} (chosen : k.shared = some i)
    {calls : List (Call ε)} (kept : .reset ∉ calls) :
    (run host outside k calls).shared = some i := by
  induction calls generalizing k with
  | nil => exact chosen
  | cons call calls ih =>
      rw [List.mem_cons, not_or] at kept
      refine ih ?_ kept.2
      cases call with
      | reset => exact absurd rfl kept.1
      | use j operation => exact (use_shared k j operation).trans chosen
      | signer =>
          rw [perform, signer_of_shared chosen]
          exact chosen

/-- Whoever is told the number of a signer shares it. -/
theorem shared_of_signer {k : Keyring W σ} {i : Nat} (told : (signer host k).1 = .ok i) :
    (signer host k).2.shared = some i := by
  cases chosen : k.shared with
  | some j =>
      rw [signer_of_shared chosen] at told ⊢
      cases told
      exact chosen
  | none =>
      rcases connected : Session.connect host k.settings.session k.world with ⟨e | session, s⟩
      · rw [signer_of_error chosen connected] at told
        cases told
      · rw [signer_of_ok chosen connected] at told ⊢
        cases told
        rfl

end

/-- The ways in which an attempt to connect goes: who is contacted, what is answered, and which
signer is shared from then on.  No wallet but the first one listed is ever contacted. -/
inductive Attempt (passphrase : String) (number : Nat) :
    List (Contact W) → Except Error Nat → Option Nat → Prop where
  | unlisted {e} :
      Attempt passphrase number [.listing (.error e)] (.error (.hubInit e.message)) none
  | hubless : Attempt passphrase number [.listing (.ok none)] (.error .noWallet) none
  | bare : Attempt passphrase number [.listing (.ok (some []))] (.error .noWallet) none
  | refused {first others e} :
      Attempt passphrase number
        [.listing (.ok (some (first :: others))), .opening first passphrase (.error e)]
        (.error (.walletOpen e)) none
  | connected {first others} :
      Attempt passphrase number
        [.listing (.ok (some (first :: others))), .opening first passphrase (.ok ())]
        (.ok number) (some number)

theorem Attempt.listings {passphrase : String} {number : Nat} {contacts : List (Contact W)}
    {answer : Except Error Nat} {shared : Option Nat}
    (attempt : Attempt passphrase number contacts answer shared) :
    (Contact.listings contacts).length = 1 := by
  cases attempt <;> rfl

/-- What asking for a signer comes to when none is shared. -/
theorem signer_attempt (host : Host W σ) {k : Keyring W (σ × List (Contact W))}
    (unshared : k.shared = none) :
    let r := signer host.watched k
    ∃ contacts, r.2.world.2 = k.world.2 ++ contacts ∧
      Attempt k.settings.session.passphrase k.signers.length contacts r.1 r.2.shared := by
  obtain ⟨⟨s, log⟩, signers, shared, settings, builder⟩ := k
  obtain rfl : shared = none := unshared
  simp only [signer, connect, Signer.connect, Session.connect, Session.firstWallet,
    Action.andThen, Host.watched, watching]
  rcases host.hub s with ⟨e | _ | _ | ⟨first, others⟩, s'⟩
  · exact ⟨_, rfl, .unlisted⟩
  · exact ⟨_, rfl, .hubless⟩
  · exact ⟨_, rfl, .bare⟩
  · rcases opened : host.openChannel settings.session.passphrase (first, s') with ⟨e | _, w, s''⟩
    · simp only [opened]
      exact ⟨_, List.append_assoc _ _ _, .refused⟩
    · simp only [opened]
      exact ⟨_, List.append_assoc _ _ _, .connected⟩

theorem use_settings (host : Host W σ) (outside : ε → σ → σ) (k : Keyring W σ) (i : Nat)
    (operation : Operation ε) :
    (perform host outside k (.use i operation)).settings = k.settings := by
  cases known : k.signers[i]? with
  | none => rw [use_of_none known]
  | some signer => rw [use_of_some known]

theorem perform_settings (host : Host W σ) (outside : ε → σ → σ) (k : Keyring W σ)
    (call : Call ε) : (perform host outside k call).settings = k.settings := by
  cases call with
  | use i operation => exact use_settings host outside k i operation
  | reset =>
      cases chosen : k.shared with
      | none => rw [perform, reset_of_unshared chosen]
      | some i =>
          rw [perform, reset_of_shared chosen outside]
          exact use_settings host outside { k with shared := none } i .close
  | signer =>
      cases chosen : k.shared with
      | some i => rw [perform, signer_of_shared chosen]
      | none =>
          rcases connected : Session.connect host k.settings.session k.world with ⟨e | session, s⟩
          · rw [perform, signer_of_error chosen connected]
          · rw [perform, signer_of_ok chosen connected]

/-- The number of the shared signer is one that was handed out. -/
def Within (k : Keyring W σ) : Prop :=
  ∀ i, k.shared = some i → i < k.signers.length

theorem perform_within (host : Host W σ) (outside : ε → σ → σ) {k : Keyring W σ} (call : Call ε)
    (within : k.Within) : (perform host outside k call).Within := by
  cases call with
  | use i operation =>
      cases known : k.signers[i]? with
      | none =>
          rw [use_of_none known]
          exact within
      | some signer =>
          rw [use_of_some known]
          intro j chosen
          rw [List.length_set]
          exact within j chosen
  | reset =>
      intro i chosen
      cases (reset_shared host k).symm.trans chosen
  | signer =>
      cases chosen : k.shared with
      | some i =>
          rw [perform, signer_of_shared chosen]
          exact within
      | none =>
          rcases connected : Session.connect host k.settings.session k.world with ⟨e | session, s⟩
          · rw [perform, signer_of_error chosen connected]
            intro i chosen'
            cases chosen.symm.trans chosen'
          · rw [perform, signer_of_ok chosen connected]
            rintro i ⟨⟩
            rw [List.length_append]
            exact Nat.lt_succ_self _

/-- What no call takes away holds after every run. -/
theorem run_keeps {host : Host W σ} {outside : ε → σ → σ} {P : Keyring W σ → Prop}
    (step : ∀ k call, P k → P (perform host outside k call)) (calls : List (Call ε))
    (k : Keyring W σ) (holds : P k) : P (run host outside k calls) := by
  induction calls generalizing k with
  | nil => exact holds
  | cons call calls ih => exact ih (perform host outside k call) (step k call holds)

/-- How many attempts to connect a call makes of a keyring: one if a signer is asked for and none is
shared. -/
def attempts (k : Keyring W σ) : Call ε → Nat
  | .signer => if k.isConnected then 0 else 1
  | .reset | .use .. => 0

/-- How many attempts to connect the calls of a run make. -/
def allAttempts (host : Host W σ) (outside : ε → σ → σ) : Keyring W σ → List (Call ε) → Nat
  | _, [] => 0
  | k, call :: calls =>
      attempts k call + allAttempts host outside (perform host outside k call) calls

/-- The hub is asked once in an attempt to connect, and not otherwise. -/
theorem perform_listings (host : Host W σ) (outside : ε → σ → σ)
    (k : Keyring W (σ × List (Contact W))) (call : Call ε) :
    (Contact.listings (perform host.watched (unnoticed outside) k call).world.2).length =
      (Contact.listings k.world.2).length + attempts k call := by
  have silent := host.watched_invariant (Contact.listings k.world.2)
  cases call with
  | use i operation =>
      have undisturbed (change : ε) (t : σ × List (Contact W))
          (same : Contact.listings t.2 = Contact.listings k.world.2) :
          Contact.listings (unnoticed outside change t).2 = Contact.listings k.world.2 := same
      exact congrArg List.length (use_world silent undisturbed k i operation rfl)
  | reset => exact congrArg List.length (reset_world silent k rfl)
  | signer =>
      cases chosen : k.shared with
      | some i =>
          rw [perform, signer_of_shared chosen, attempts, isConnected, chosen, Option.isSome_some,
            if_pos rfl, Nat.add_zero]
      | none =>
          obtain ⟨contacts, noted, attempt⟩ := signer_attempt host chosen
          rw [perform, noted, Contact.listings_append, List.length_append, attempt.listings,
            attempts, isConnected, chosen, Option.isSome_none, if_neg Bool.false_ne_true]

theorem run_listings (host : Host W σ) (outside : ε → σ → σ)
    (k : Keyring W (σ × List (Contact W))) (calls : List (Call ε)) :
    (Contact.listings (run host.watched (unnoticed outside) k calls).world.2).length =
      (Contact.listings k.world.2).length +
        allAttempts host outside (k.through Prod.fst) calls := by
  induction calls generalizing k with
  | nil => rfl
  | cons call calls ih =>
      have erased : perform host outside (k.through Prod.fst) call =
          (perform host.watched (unnoticed outside) k call).through Prod.fst :=
        perform_through host.watched_mirrors (fun _ _ => rfl) k call
      have rest := ih (perform host.watched (unnoticed outside) k call)
      rw [perform_listings, ← erased, Nat.add_assoc] at rest
      exact rest

/-- Over any run, the hub is asked once in each call that wants a signer when none is shared, and
never else.  Such a call opens the first wallet listed, once, and contacts no other; a signer that
it connects has a new number and is shared until the next reset, and after a failure none is.  A
call that finds a signer shared contacts nobody.  The record changes nothing in the run. -/
theorem signer_connects_once (host : Host W σ) (outside : ε → σ → σ) (s : σ) (settings : Settings)
    (builder : Builder) (calls later : List (Call ε)) :
    let watched := run host.watched (unnoticed outside)
    let k := watched (start (s, []) settings builder) calls
    let r := signer host.watched k
    k.through Prod.fst = run host outside (start s settings builder) calls ∧
    (Contact.listings k.world.2).length =
      allAttempts host outside (start s settings builder) calls ∧
    (∀ i, k.shared = some i → i < k.signers.length ∧ r = (.ok i, k)) ∧
    (k.shared = none → ∃ contacts, r.2.world.2 = k.world.2 ++ contacts ∧
      Attempt settings.session.passphrase k.signers.length contacts r.1 r.2.shared) ∧
    (∀ i, r.1 = .ok i → .reset ∉ later → (signer host.watched (watched r.2 later)).1 = .ok i) ∧
    (reset host.watched.toDevice k).2.shared = none := by
  intro watched k r
  have erased : run host outside ((start (s, []) settings builder).through Prod.fst) calls =
      k.through Prod.fst :=
    run_through host.watched_mirrors (fun _ _ => rfl) (start (s, []) settings builder) calls
  have asked := run_listings host outside (start (s, []) settings builder) calls
  refine ⟨erased.symm, asked.trans (Nat.zero_add _), ?_, ?_, ?_, reset_shared _ k⟩
  · intro i chosen
    have within : k.Within := run_keeps (fun _ call => perform_within _ _ call) calls _ nofun
    exact ⟨within i chosen, signer_of_shared chosen⟩
  · intro unshared
    obtain ⟨contacts, noted, attempt⟩ := signer_attempt host unshared
    have kept : k.settings = settings :=
      run_keeps (fun k call same => (perform_settings _ _ k call).trans same) calls _ rfl
    rw [kept] at attempt
    exact ⟨contacts, noted, attempt⟩
  · intro i told kept
    have chosen : (watched r.2 later).shared = some i := run_shared (shared_of_signer told) kept
    rw [signer_of_shared chosen]

end Keyring

end HardwareSigner
