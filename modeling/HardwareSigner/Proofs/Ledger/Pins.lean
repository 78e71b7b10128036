import HardwareSigner.Proofs.Keyring.Runs
import HardwareSigner.Proofs.Ledger.Desk
/-!
Which path a Ledger signs at.  The driver looks the account's address up among the paths it has
pinned, and these outlive failed openings and dropped links; after a derivation in the same session
the path found is nevertheless the one just derived at.
-/

namespace HardwareSigner
variable {τ : Type}

namespace Ledger

@[simp] theorem signingPath_pinPath (l : Ledger) (account : Account) (path : Path) :
    (l.pinPath account.address path).signingPath account = path := by
  simp only [signingPath, pinPath, List.lookup_cons_self, Option.getD_some]

theorem signingPath_of_unpinned {l : Ledger} (unpinned : l.pinned = []) (account : Account) :
    l.signingPath account = account.path := by
  simp only [signingPath, unpinned, List.lookup_nil, Option.getD_none]

theorem accountOfReply_path {path : Path} {reply : Bytes} {account : Account}
    (read : accountOfReply path reply = .ok account) : account.path = path := by
  simp only [accountOfReply] at read
  split at read
  · cases read
  · split at read
    · cases read
      rfl
    · cases read

section
variable (t : Transport τ)

theorem openChannel_pinned (l : Ledger) (s : τ) :
    (openChannel t (l, s)).2.1.pinned = l.pinned := by
  have call := openChannel_call t l s
  generalize openChannel t (l, s) = r at call ⊢
  cases call <;> rfl

theorem derive_unpinned (path : Path) (l : Ledger) (s : τ) :
    (derive t path false (l, s)).2.1 = l := by
  have call := derive_call t path false l s
  generalize derive t path false (l, s) = r at call ⊢
  cases call <;> rfl

theorem sign_ledger (account : Account) (typedData : TypedData) (l : Ledger) (s : τ) :
    (sign t account typedData (l, s)).2.1 = l := by
  have call := sign_call t account typedData l s
  generalize sign t account typedData (l, s) = r at call ⊢
  cases call <;> rfl

/-- An account just derived signs at its path, if nothing is pinned where nothing shall be. -/
theorem derive_signingPath {path : Path} {pin : Bool} {l l' : Ledger} {s s' : τ}
    {account : Account} (unpinned : pin = false → l.pinned = [])
    (derived : derive t path pin (l, s) = (.ok account, (l', s'))) :
    l'.signingPath account = path := by
  have call := derive_call t path pin l s
  rw [derived] at call
  cases call with
  | derived known made sent read =>
      cases pin with
      | true => exact signingPath_pinPath l account path
      | false =>
          rw [if_neg Bool.false_ne_true, signingPath_of_unpinned (unpinned rfl)]
          exact accountOfReply_path read

end

end Ledger

namespace Session

/-- A session that shall not pin paths has pinned none. -/
def PinsAsSet (r : Session Ledger × τ) : Prop :=
  r.1.settings.pinDerivations = false → r.1.wallet.pinned = []

section
variable {host : Host Ledger τ} {t : Transport τ}

theorem pinsAsSet_invariant (ledger : host.toDevice = Ledger.device t) :
    Invariant host PinsAsSet where
  reopen := by
    intro ⟨session, s⟩ asSet unset
    rw [reopen_snd, ledger] at unset ⊢
    exact (Ledger.openChannel_pinned t session.wallet s).trans (asSet unset)
  derive := by
    intro path ⟨session, s⟩ asSet unset
    have kept := Ledger.derive_unpinned t path session.wallet s
    simp only [derive, run, ledger, Ledger.device] at unset ⊢
    rw [unset, kept]
    exact asSet unset
  sign := by
    intro account typedData ⟨session, s⟩ asSet unset
    have kept := Ledger.sign_ledger t account typedData session.wallet s
    simp only [sign, run, ledger, Ledger.device, kept]
    exact asSet unset
  close := by
    intro ⟨session, s⟩ asSet unset
    simp only [close] at unset ⊢
    cases known : session.state with
    | closed =>
        rw [known] at unset
        exact asSet unset
    | opened =>
        simp only [run, ledger, Ledger.device]
        rfl
  print := by
    intro line session s asSet
    exact asSet

/-- The account that a session reaches signs at the path it was asked for. -/
theorem reach_signingPath (ledger : host.toDevice = Ledger.device t) {path : Path}
    {session : Session Ledger} {s : τ} {account : Account} {r : Session Ledger × τ}
    (asSet : PinsAsSet (session, s))
    (reached : reach host.toDevice path (session, s) = (.ok account, r)) :
    r.1.wallet.signingPath account = path := by
  simp only [reach_eq, ledger, Ledger.device, Prod.mk.injEq] at reached
  obtain ⟨derived, rfl⟩ := reached
  refine Ledger.derive_signingPath t ?_ (Prod.ext derived rfl)
  intro unset
  exact (Ledger.openChannel_pinned t session.wallet s).trans (asSet unset)

end

end Session

end HardwareSigner
