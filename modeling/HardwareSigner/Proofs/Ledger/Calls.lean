import HardwareSigner.Ledger.Wallet
/-!
How the operations of a Ledger go, step by step: one relation for each, with a rule for every place
where the operation can end.
-/

namespace HardwareSigner.Ledger
open Apdu (Command)
variable {τ : Type}

/-- The ways in which an attempt to open a Ledger goes. -/
inductive OpenCall (t : Transport τ) (l : Ledger) (s : τ) :
    Except Error Unit × (Ledger × τ) → Prop where
  | alreadyOpen {v} : openVersion? t l s = some v →
      OpenCall t l s (.error .walletAlreadyOpen, (l, s))
  | unlinked {e s'} : openVersion? t l s = none → t.openLink s = (.error e, s') →
      OpenCall t l s (.error e, (l, s'))
  | unread {e s' s''} : openVersion? t l s = none → t.openLink s = (.ok (), s') →
      readVersion t s' = (.error e, s'') → OpenCall t l s (.error e, (l, (t.closeLink s'').2))
  | opened {v s' s''} : openVersion? t l s = none → t.openLink s = (.ok (), s') →
      readVersion t s' = (.ok v, s'') →
      OpenCall t l s (.ok (), ({ l with version := some v }, s''))

/-- The ways in which a derivation on a Ledger goes. -/
inductive DeriveCall (t : Transport τ) (path : Path) (pin : Bool) (l : Ledger) (s : τ) :
    Except Error Account × (Ledger × τ) → Prop where
  | closed : openVersion? t l s = none → DeriveCall t path pin l s (.error .walletClosed, (l, s))
  | unmade {v e} : openVersion? t l s = some v → publicKeyCommand path = .error e →
      DeriveCall t path pin l s (.error e, (l, s))
  | unanswered {v c e s'} : openVersion? t l s = some v → publicKeyCommand path = .ok c →
      t.send c s = (.error e, s') → DeriveCall t path pin l s (.error e, (l, s'))
  | malformed {v c reply e s'} : openVersion? t l s = some v → publicKeyCommand path = .ok c →
      t.send c s = (.ok reply, s') → accountOfReply path reply = .error e →
      DeriveCall t path pin l s (.error e, (l, s'))
  | derived {v c reply account s'} : openVersion? t l s = some v →
      publicKeyCommand path = .ok c → t.send c s = (.ok reply, s') →
      accountOfReply path reply = .ok account →
      DeriveCall t path pin l s
        (.ok account, (if pin then l.pinPath account.address path else l, s'))

/-- The ways in which a request for a signature goes on a Ledger. -/
inductive SignCall (t : Transport τ) (account : Account) (typedData : TypedData) (l : Ledger)
    (s : τ) : Except Error Bytes × (Ledger × τ) → Prop where
  | closed : openVersion? t l s = none →
      SignCall t account typedData l s (.error .walletClosed, (l, s))
  | outdated {v} : openVersion? t l s = some v → v.signsTypedData = false →
      SignCall t account typedData l s (.error (.apdu (Apdu.Fault.outdatedApp v)), (l, s))
  | unmade {v e} : openVersion? t l s = some v → v.signsTypedData = true →
      signCommand (l.signingPath account) typedData = .error e →
      SignCall t account typedData l s (.error e, (l, s))
  | unanswered {v c e s'} : openVersion? t l s = some v → v.signsTypedData = true →
      signCommand (l.signingPath account) typedData = .ok c → t.send c s = (.error e, s') →
      SignCall t account typedData l s (.error e, (l, s'))
  | answered {v c reply s'} : openVersion? t l s = some v → v.signsTypedData = true →
      signCommand (l.signingPath account) typedData = .ok c → t.send c s = (.ok reply, s') →
      SignCall t account typedData l s (signatureOfReply reply, (l, s'))

theorem openChannel_call (t : Transport τ) (l : Ledger) (s : τ) :
    OpenCall t l s (openChannel t (l, s)) := by
  simp only [openChannel]
  cases known : openVersion? t l s with
  | some v => exact .alreadyOpen known
  | none =>
      rcases linking : t.openLink s with ⟨e | ⟨⟩, s'⟩
      · exact .unlinked known linking
      · simp only
        rcases reading : readVersion t s' with ⟨e | v, s''⟩
        · exact .unread known linking reading
        · exact .opened known linking reading

theorem derive_call (t : Transport τ) (path : Path) (pin : Bool) (l : Ledger) (s : τ) :
    DeriveCall t path pin l s (derive t path pin (l, s)) := by
  simp only [derive]
  cases known : openVersion? t l s with
  | none => exact .closed known
  | some v =>
      cases made : publicKeyCommand path with
      | error e => exact .unmade known made
      | ok c =>
          simp only
          rcases sending : t.send c s with ⟨e | reply, s'⟩
          · exact .unanswered known made sending
          · simp only
            cases read : accountOfReply path reply with
            | error e => exact .malformed known made sending read
            | ok account => exact .derived known made sending read

theorem sign_call (t : Transport τ) (account : Account) (typedData : TypedData) (l : Ledger)
    (s : τ) : SignCall t account typedData l s (sign t account typedData (l, s)) := by
  simp only [sign]
  cases known : openVersion? t l s with
  | none => exact .closed known
  | some v =>
      cases signs : v.signsTypedData with
      | false =>
          simp only [signs, Bool.false_eq_true, if_false]
          exact .outdated known signs
      | true =>
          simp only [signs, if_true]
          cases made : signCommand (l.signingPath account) typedData with
          | error e => exact .unmade known signs made
          | ok c =>
              simp only
              rcases sending : t.send c s with ⟨e | reply, s'⟩
              · exact .unanswered known signs made sending
              · exact .answered known signs made sending

end HardwareSigner.Ledger
