import HardwareSigner.Proofs.Keyring.Sharing
import HardwareSigner.Proofs.Keyring.Solo
/-!
Whether a keyring can connect.  Over a wallet that can always be opened, all that matters is whether
the wallet is open, what each signer last saw of it, and which signer is shared.
-/

namespace HardwareSigner
open SoftwareWallet (State)

/-- The outline of a keyring: whether its wallet is open, what the signers' sessions believe of
that, and the signer that is shared. -/
structure Outline where
  isOpen : Bool
  states : List SessionState
  shared : Option Nat

namespace Outline

def signer (o : Outline) : Except Error Nat × Outline :=
  match o.shared with
  | some i => (.ok i, o)
  | none =>
      if o.isOpen then (.error (.walletOpen .walletAlreadyOpen), o)
      else (.ok o.states.length, ⟨true, o.states ++ [.opened], some o.states.length⟩)

def reopen (i : Nat) (o : Outline) : Outline :=
  match o.states[i]? with
  | none => o
  | some state =>
      { o with isOpen := true, states := o.states.set i (if o.isOpen then state else .opened) }

/-- A session that takes its wallet to be closed leaves it as it is. -/
def close (i : Nat) (o : Outline) : Outline :=
  match o.states[i]? with
  | none => o
  | some state =>
      { o with
        isOpen := if state = .opened then false else o.isOpen
        states := o.states.set i .closed }

def reset (o : Outline) : Outline :=
  match o.shared with
  | none => o
  | some i => close i { o with shared := none }

def perform (o : Outline) : Call Empty → Outline
  | .signer => o.signer.2
  | .reset => o.reset
  | .use i .close => o.close i
  | .use i _ => o.reopen i

theorem perform_of_uses (o : Outline) (i : Nat) {operation : Operation Empty}
    (uses : operation.Uses) : o.perform (.use i operation) = o.reopen i := by
  cases operation with
  | close => cases uses
  | outside change => cases change
  | publicKey path => rfl
  | addressAndKey path hrp => rfl
  | sign path document => rfl

theorem perform_of_missing {o : Outline} {i : Nat} (missing : o.states[i]? = none)
    (operation : Operation Empty) : o.perform (.use i operation) = o := by
  cases operation <;> simp only [perform, reopen, close, missing]

theorem signer_of_unshared {o : Outline} (unshared : o.shared = none) (closed : o.isOpen = false) :
    o.signer = (.ok o.states.length, ⟨true, o.states ++ [.opened], some o.states.length⟩) := by
  rw [signer, unshared, closed]
  rfl

/-- The wallet is open just when the shared signer last saw it open; the others saw it closed. -/
structure Tidy (o : Outline) : Prop where
  unshared : o.shared = none → o.isOpen = false
  shared : ∀ i, o.shared = some i → o.states[i]? = some (if o.isOpen then .opened else .closed)
  dropped : ∀ i state, o.states[i]? = some state → o.shared = some i ∨ state = .closed

theorem Tidy.signer {o : Outline} (tidy : o.Tidy) :
    (∃ i, o.signer.1 = .ok i) ∧ o.signer.2.Tidy := by
  cases chosen : o.shared with
  | some i =>
      rw [Outline.signer, chosen]
      exact ⟨⟨i, rfl⟩, tidy⟩
  | none =>
      rw [signer_of_unshared chosen (tidy.unshared chosen)]
      refine ⟨⟨_, rfl⟩, nofun, ?_, ?_⟩
      · rintro i ⟨⟩
        exact List.getElem?_concat_length
      · intro i state found
        -- None of the signers before the new one is shared, so they all were dropped.
        rw [List.getElem?_append] at found
        split at found
        · refine .inr ((tidy.dropped i state found).resolve_left ?_)
          rw [chosen]
          exact nofun
        · have last : i - o.states.length = 0 := by
            have bound := (List.getElem?_eq_some_iff.mp found).1
            rw [List.length_singleton] at bound
            omega
          exact .inl (congrArg some (by omega))

theorem Tidy.close {o : Outline} (tidy : o.Tidy) (i : Nat) : (o.close i).Tidy := by
  cases found : o.states[i]? with
  | none =>
      rw [Outline.close, found]
      exact tidy
  | some state =>
      rw [Outline.close, found]
      have bound := (List.getElem?_eq_some_iff.mp found).1
      refine ⟨?_, ?_, ?_⟩
      · intro unshared
        simp only [tidy.unshared unshared, ite_self]
      · intro j chosen
        have seen := tidy.shared j chosen
        rw [List.getElem?_set]
        by_cases same : i = j
        · subst same
          obtain rfl := Option.some.inj (found.symm.trans seen)
          rw [if_pos rfl, if_pos bound]
          cases o.isOpen <;> rfl
        · -- A dropped signer last saw the wallet closed, so closing it does not reach the wallet.
          have closed : state = .closed := by
            refine (tidy.dropped i state found).resolve_left ?_
            intro chosen'
            exact same (Option.some.inj (chosen'.symm.trans chosen))
          rw [if_neg same, seen, closed]
          rfl
      · intro j state' found'
        by_cases same : i = j
        · subst same
          rw [List.getElem?_set_self bound] at found'
          exact .inr (Option.some.inj found').symm
        · rw [List.getElem?_set_ne same] at found'
          exact tidy.dropped j state' found'

theorem Tidy.reopen {o : Outline} (tidy : o.Tidy) {i : Nat} (chosen : o.shared = some i) :
    (o.reopen i).Tidy := by
  have seen := tidy.shared i chosen
  have bound := (List.getElem?_eq_some_iff.mp seen).1
  have opened : (if o.isOpen then (if o.isOpen then SessionState.opened else .closed)
      else .opened) = .opened := by
    cases o.isOpen <;> rfl
  rw [Outline.reopen, seen]
  simp only [opened]
  refine ⟨?_, ?_, ?_⟩
  · intro unshared
    exact absurd (chosen.symm.trans unshared) nofun
  · intro j chosen'
    obtain rfl : i = j := Option.some.inj (chosen.symm.trans chosen')
    exact List.getElem?_set_self bound
  · intro j state found
    by_cases same : i = j
    · exact .inl (same ▸ chosen)
    · rw [List.getElem?_set_ne same] at found
      exact tidy.dropped j state found

theorem Tidy.reset {o : Outline} (tidy : o.Tidy) : o.reset.Tidy := by
  cases chosen : o.shared with
  | none =>
      rw [Outline.reset, chosen]
      exact tidy
  | some i =>
      have seen := tidy.shared i chosen
      have bound := (List.getElem?_eq_some_iff.mp seen).1
      rw [Outline.reset, chosen]
      simp only [Outline.close, seen]
      refine ⟨?_, nofun, ?_⟩
      · intro _
        cases o.isOpen <;> rfl
      · intro j state found
        by_cases same : i = j
        · subst same
          rw [List.getElem?_set_self bound] at found
          exact .inr (Option.some.inj found).symm
        · rw [List.getElem?_set_ne same] at found
          refine .inr ((tidy.dropped j state found).resolve_left ?_)
          intro chosen'
          exact same (Option.some.inj (chosen.symm.trans chosen'))

end Outline

/-- The wallet can be opened, and is open or not; the session last saw it in this state. -/
def Seen (state : SessionState) (isOpen : Bool) (seen : SessionState) (s : State) : Prop :=
  s.Ready ∧ s.isOpen = isOpen ∧ seen = state

namespace Session
variable {w : SoftwareWallet}

theorem use_seen (state : SessionState) (isOpen : Bool) :
    Session.Use Bench.host (On w (Seen state isOpen))
      (On w (Seen (if isOpen then state else .opened) true)) where
  reopen := by
    refine reopen_on ?_
    rintro seen s ⟨ready, rfl, rfl⟩
    rw [SoftwareWallet.openChannel_ready w ready]
    refine ⟨ready, rfl, ?_⟩
    cases s.isOpen <;> rfl
  derive path := by
    refine derive_on path ?_
    rintro pin seen s ⟨ready, opened, rfl⟩
    obtain ⟨counts, pinned, same⟩ := SoftwareWallet.derive_switches path pin w s
    rw [same]
    exact ⟨ready, opened, rfl⟩
  sign account typedData := by
    refine sign_on account typedData ?_
    rintro seen s ⟨ready, opened, rfl⟩
    obtain ⟨counts, same⟩ := SoftwareWallet.sign_switches account typedData w s
    rw [same]
    exact ⟨ready, opened, rfl⟩
  notice := print_on
  print := print_on

theorem close_seen (state : SessionState) (isOpen : Bool) :
    Leads (On w (Seen state isOpen))
      (On w (Seen .closed (if state = .opened then false else isOpen)))
      (close Bench.host.toDevice) := by
  apply close_on
  · rintro s ⟨ready, -, rfl⟩
    exact ⟨ready, rfl, rfl⟩
  · rintro s ⟨ready, same, rfl⟩
    exact ⟨ready, same, rfl⟩

end Session

namespace Keyring

/-- A keyring over one wallet in software, which can be opened, has this outline. -/
structure Shows (w : SoftwareWallet) (o : Outline) (k : Keyring Handle Bench) : Prop where
  wallet : ∃ s, k.world.Solo w s ∧ s.Ready ∧ s.isOpen = o.isOpen
  handles : ∀ signer ∈ k.signers, ∀ session, signer.session = some session →
    session.wallet = .software 0 w
  states : k.signers.map (fun signer => signer.session.map (·.state)) = o.states.map some
  shared : k.shared = o.shared

variable {w : SoftwareWallet} {o : Outline} {k : Keyring Handle Bench}

theorem Shows.length (shows : Shows w o k) : k.signers.length = o.states.length := by
  have same := congrArg List.length shows.states
  rwa [List.length_map, List.length_map] at same

theorem Shows.getElem? (shows : Shows w o k) (i : Nat) :
    k.signers[i]?.map (fun signer => signer.session.map (·.state)) = o.states[i]?.map some := by
  rw [← List.getElem?_map, ← List.getElem?_map, shows.states]

/-- What holds of the signers one by one, when the keyring has the outline. -/
theorem Shows.signer (shows : Shows w o k) {i : Nat} {signer : Signer Handle}
    (known : k.signers[i]? = some signer) :
    ∃ state, o.states[i]? = some state ∧ signer.isConnected = true ∧
      Signer.Holds (Session.On w (Seen state o.isOpen)) (signer, k.world) := by
  have same := shows.getElem? i
  rw [known, Option.map_some] at same
  obtain ⟨state, found, seen⟩ := Option.map_eq_some_iff.mp same.symm
  obtain ⟨session, bound, believed⟩ := Option.map_eq_some_iff.mp seen.symm
  refine ⟨state, found, ?_, ?_⟩
  · rw [Signer.isConnected, bound, Option.isSome_some]
  · intro session' bound'
    obtain rfl : session = session' := Option.some.inj (bound.symm.trans bound')
    obtain ⟨s, solo, ready, opened⟩ := shows.wallet
    have driver := shows.handles signer (List.mem_of_getElem? known) session bound
    exact ⟨driver, s, solo, ready, opened, believed⟩

/-- The outline after an operation of one signer. -/
theorem Shows.set (shows : Shows w o k) (i : Nat) {signer : Signer Handle} {b : Bench}
    {state : SessionState} {isOpen : Bool} (connected : signer.isConnected = true)
    (holds : Signer.Holds (Session.On w (Seen state isOpen)) (signer, b)) :
    Shows w { o with isOpen, states := o.states.set i state }
      { k with signers := k.signers.set i signer, world := b } := by
  obtain ⟨session, bound⟩ := Option.isSome_iff_exists.mp connected
  obtain ⟨driver, s, solo, ready, opened, believed⟩ := holds session bound
  refine ⟨⟨s, solo, ready, opened⟩, ?_, ?_, shows.shared⟩
  · intro other among session' bound'
    rcases List.mem_or_eq_of_mem_set among with before | rfl
    · exact shows.handles other before session' bound'
    · obtain rfl : session = session' := Option.some.inj (bound.symm.trans bound')
      exact driver
  · rw [List.map_set, List.map_set, shows.states, bound, Option.map_some, believed]

theorem use_shows (shows : Shows w o k) (i : Nat) (operation : Operation Empty) :
    Shows w (o.perform (.use i operation))
      (perform Bench.host Empty.elim k (.use i operation)) := by
  cases known : k.signers[i]? with
  | none =>
      have missing : o.states[i]? = none := by
        rw [List.getElem?_eq_none_iff, ← shows.length]
        exact List.getElem?_eq_none_iff.mp known
      rw [Outline.perform_of_missing missing, use_of_none known]
      exact shows
  | some signer =>
      obtain ⟨state, found, connected, holds⟩ := shows.signer known
      rw [use_of_some known]
      have still := (Signer.perform_isConnected Bench.host Empty.elim (signer, k.world)
        operation).trans connected
      rcases operation.close_or_uses with rfl | uses
      · have closed := Signer.withSession_leads (Session.close_seen state o.isOpen)
          "close Ledger" (signer, k.world) holds
        simp only [Outline.perform, Outline.close, found]
        exact shows.set i still closed
      · have used : Signer.Holds (Session.On w (Seen _ true))
            (Signer.perform Bench.host Empty.elim (signer, k.world) operation) :=
          Signer.perform_leads (Session.use_seen state o.isOpen) uses (signer, k.world) holds
        simp only [Outline.perform_of_uses o i uses, Outline.reopen, found]
        exact shows.set i still used

theorem reset_shows (shows : Shows w o k) :
    Shows w o.reset (reset Bench.host.toDevice k).2 := by
  cases chosen : k.shared with
  | none =>
      have same : o.shared = none := shows.shared ▸ chosen
      rw [reset_of_unshared chosen]
      simp only [Outline.reset, same]
      exact shows
  | some i =>
      have same : o.shared = some i := shows.shared ▸ chosen
      have dropped : Shows w { o with shared := none } { k with shared := none } :=
        ⟨shows.wallet, shows.handles, shows.states, rfl⟩
      rw [reset_of_shared chosen Empty.elim]
      simp only [Outline.reset, same]
      exact use_shows dropped i .close

theorem signer_shows (shows : Shows w o k) :
    (signer Bench.host k).1 = o.signer.1 ∧ Shows w o.signer.2 (signer Bench.host k).2 := by
  cases chosen : k.shared with
  | some i =>
      have same : o.shared = some i := shows.shared ▸ chosen
      rw [signer_of_shared chosen]
      simp only [Outline.signer, same]
      exact ⟨trivial, shows⟩
  | none =>
      have same : o.shared = none := shows.shared ▸ chosen
      obtain ⟨s, solo, ready, opened⟩ := shows.wallet
      obtain ⟨b, connected, solo'⟩ := Bench.connect_solo solo ready k.settings.session
      simp only [Outline.signer, same]
      cases was : o.isOpen with
      | true =>
          rw [if_pos (opened.trans was)] at connected
          rw [signer_of_error chosen connected, if_pos rfl]
          exact ⟨rfl, ⟨s.afterOpen, solo', ready, was.symm⟩, shows.handles, shows.states,
            chosen.trans same.symm⟩
      | false =>
          rw [opened.trans was, if_neg Bool.false_ne_true] at connected
          rw [signer_of_ok chosen connected, if_neg Bool.false_ne_true]
          refine ⟨congrArg Except.ok shows.length, ⟨s.afterOpen, solo', ready, rfl⟩, ?_, ?_, ?_⟩
          · intro signer among session bound
            rcases List.mem_append.mp among with before | new
            · exact shows.handles signer before session bound
            · cases List.mem_singleton.mp new
              cases bound
              rfl
          · rw [List.map_append, List.map_append, shows.states]
            rfl
          · exact congrArg some shows.length

/-- The outline of a keyring tells the outline after any call. -/
theorem perform_shows (shows : Shows w o k) (call : Call Empty) :
    Shows w (o.perform call) (perform Bench.host Empty.elim k call) := by
  cases call with
  | signer => exact (signer_shows shows).2
  | reset => exact reset_shows shows
  | use i operation => exact use_shows shows i operation

theorem run_shows (shows : Shows w o k) (calls : List (Call Empty)) :
    Shows w (calls.foldl Outline.perform o) (run Bench.host Empty.elim k calls) := by
  induction calls generalizing o k with
  | nil => exact shows
  | cons call calls ih => exact ih (perform_shows shows call)

/-- A keyring whose dropped signers are only closed stays tidy. -/
theorem orderly_tidy (shows : Shows w o k) (tidy : o.Tidy) {calls : List (Call Empty)}
    (orderly : Orderly Bench.host Empty.elim k calls) : (calls.foldl Outline.perform o).Tidy := by
  induction calls generalizing o k with
  | nil => exact tidy
  | cons call calls ih =>
      refine ih (perform_shows shows call) ?_ orderly.2
      cases call with
      | signer => exact tidy.signer.2
      | reset => exact tidy.reset
      | use i operation =>
          rcases operation.close_or_uses with rfl | uses
          · exact tidy.close i
          · rw [Outline.perform_of_uses o i uses]
            rcases orderly.1 i operation rfl with chosen | rfl
            · exact tidy.reopen (shows.shared.symm.trans chosen)
            · cases uses

/-- A keyring over one wallet in software, as it is before anyone has asked for a signer. -/
def solo (w : SoftwareWallet) (s : State) (settings : Settings) (builder : Builder) :
    Keyring Handle Bench :=
  start (.start [.software w s] (.listing [0])) settings builder

theorem solo_shows {s : State} (ready : s.Ready) (settings : Settings) (builder : Builder) :
    Shows w ⟨s.isOpen, [], none⟩ (solo w s settings builder) :=
  ⟨⟨s, ⟨rfl, rfl⟩, ready, rfl⟩, nofun, rfl, rfl⟩

/-- Over one wallet that can be opened, asking for a signer fails just when none is shared and the
wallet is open, as it is after a dropped signer was used.  If dropped signers are at most closed,
asking for a signer never fails. -/
theorem signer_reconnects (w : SoftwareWallet) (s : State) (closed : s.isOpen = false)
    (ready : s.Ready) (settings : Settings) (builder : Builder) (calls : List (Call Empty)) :
    let k := run Bench.host Empty.elim (solo w s settings builder) calls
    (∃ s', k.world.stations = [.software w s'] ∧
      (signer Bench.host k).1 =
        match k.shared with
        | some i => .ok i
        | none =>
            if s'.isOpen then .error (.walletOpen .walletAlreadyOpen)
            else .ok k.signers.length) ∧
    (Orderly Bench.host Empty.elim (solo w s settings builder) calls →
      ∃ i, (signer Bench.host k).1 = .ok i) := by
  intro k
  have start := solo_shows (w := w) ready settings builder
  have shows := run_shows start calls
  have answered := (signer_shows shows).1
  constructor
  · obtain ⟨s', alone, -, opened⟩ := shows.wallet
    refine ⟨s', alone.stations, ?_⟩
    rw [answered, Outline.signer, shows.shared, opened, shows.length]
    split
    · rfl
    · split <;> rfl
  · intro orderly
    rw [answered]
    have tidy : Outline.Tidy ⟨s.isOpen, [], none⟩ := ⟨fun _ => closed, nofun, nofun⟩
    exact (orderly_tidy start tidy orderly).signer.1

/-- A keyring that was reset connects again, and its first signer may be closed once more. -/
theorem signer_reconnects_after_reset :
    let w : SoftwareWallet := ⟨"memory", ⟨⟨1, by decide, by decide⟩, .padRight []⟩⟩
    ∃ i, (signer Bench.host (run Bench.host Empty.elim (solo w .fresh .default .document)
      [.signer, .use 0 (.publicKey (.ethereum 0)), .reset, .use 0 .close])).1 = .ok i := by
  intro w
  refine (signer_reconnects w .fresh rfl ⟨rfl, rfl⟩ .default .document _).2 ?_
  refine ⟨nofun, ?_, nofun, ?_, trivial⟩
  · rintro i operation ⟨⟩
    exact .inl rfl
  · rintro i operation ⟨⟩
    exact .inr rfl

/-- A signer used after the reset that dropped it opens the wallet, and no other can connect. -/
theorem signer_refused_after_late_use :
    let w : SoftwareWallet := ⟨"memory", ⟨⟨1, by decide, by decide⟩, .padRight []⟩⟩
    (signer Bench.host (run Bench.host Empty.elim (solo w .fresh .default .document)
      [.signer, .reset, .use 0 (.publicKey (.ethereum 0))])).1 =
        .error (.walletOpen .walletAlreadyOpen) := by
  intro w
  have start := solo_shows (w := w) (s := .fresh) ⟨rfl, rfl⟩ .default .document
  exact (signer_shows (run_shows start _)).1

end Keyring

end HardwareSigner
