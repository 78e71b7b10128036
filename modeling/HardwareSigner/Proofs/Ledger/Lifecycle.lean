import HardwareSigner.Proofs.Ledger.Desk
/-!
When a Ledger is open.  The driver goes by a version it once read and by a link that can go down on
its own.  The two never disagree about a connection: only an opening that reads the version brings
the link up for use, so what is sent later goes to the app of that version.
-/

namespace HardwareSigner
variable {τ : Type}

/-- A failed opening leaves the link up or down, as it was; closing and dropping take it down. -/
structure Transport.Faithful (t : Transport τ) (drop : τ → τ) : Prop where
  unopened {s : τ} {e : Error} : (t.openLink s).1 = .error e →
    t.isConnected (t.openLink s).2 = t.isConnected s
  closed (s : τ) : t.isConnected (t.closeLink s).2 = false
  dropped (s : τ) : t.isConnected (drop s) = false

/-- The link goes down on its own. -/
def Script.drop (s : Script) : Script :=
  { s with connected := false }

theorem Script.faithful : Script.transport.Faithful Script.drop where
  unopened {s e} failed := by
    simp only [Script.transport, Script.openLink] at failed ⊢
    split at failed
    · rfl
    · cases failed
    · cases failed
  closed s := by
    simp only [Script.transport, Script.closeLink]
    split <;> rfl
  dropped s := rfl

namespace AppVersion

/-- Lexicographic order. -/
def Le (v w : AppVersion) : Prop :=
  v.major < w.major ∨ v.major = w.major ∧
    (v.minor < w.minor ∨ v.minor = w.minor ∧ v.patch ≤ w.patch)

theorem isGE_then_iff (o p : Ordering) :
    (o.then p).isGE = true ↔ o = .gt ∨ o = .eq ∧ p.isGE = true := by
  cases o <;> simp

theorem isGE_compare_iff (v w : AppVersion) : (v.compare w).isGE = true ↔ w.Le v := by
  simp only [compare, Le, isGE_then_iff, Nat.isGE_compare, Nat.compare_eq_gt, Nat.compare_eq_eq,
    UInt8.lt_iff_toNat_lt, UInt8.le_iff_toNat_le, ← UInt8.toNat_inj]
  rw [@eq_comm _ v.major.toNat, @eq_comm _ v.minor.toNat]

end AppVersion

namespace Ledger
open Apdu (Command)

/-- What is done with a Ledger, or happens to its link. -/
inductive Step where
  | openChannel
  | closeChannel
  | derive (path : Path) (pin : Bool)
  | sign (account : Account) (typedData : TypedData)
  | drop

/-- A step taken: how it ended, and what went over the link for it. -/
structure Taken where
  step : Step
  outcome : Except Error Unit
  events : List DeskEvent

def Step.perform (t : Transport τ) (drop : τ → τ) : Step → Action (Ledger × Desk τ) Unit
  | .openChannel => Ledger.openChannel (Desk.transport t)
  | .closeChannel => Ledger.closeChannel (Desk.transport t)
  | .derive path pin => (Ledger.derive (Desk.transport t) path pin).andThen fun _ r => (.ok (), r)
  | .sign account typedData =>
      (Ledger.sign (Desk.transport t) account typedData).andThen fun _ r => (.ok (), r)
  | .drop => fun (l, d) => (.ok (), (l, d.relink drop))

/-- Takes a step, with a record of its own. -/
def take (t : Transport τ) (drop : τ → τ) (step : Step) : Ledger × τ → Taken × (Ledger × τ) :=
  fun (l, s) =>
    let r := step.perform t drop (l, ⟨s, []⟩)
    (⟨step, r.1, r.2.2.log⟩, (r.2.1, r.2.2.link))

def takeAll (t : Transport τ) (drop : τ → τ) :
    List Step → Ledger × τ → List Taken × (Ledger × τ)
  | [], r => ([], r)
  | step :: steps, r =>
      let first := take t drop step r
      let rest := takeAll t drop steps first.2
      (first.1 :: rest.1, rest.2)

namespace Step

/-- The steps that need an open wallet. -/
def Uses : Step → Prop
  | derive .. | sign .. => True
  | openChannel | closeChannel | drop => False

end Step

namespace Taken

/-- An opening that succeeded: the link was opened, and the version read right after. -/
def Opens (v : AppVersion) (x : Taken) : Prop :=
  x.step = .openChannel ∧ x.outcome = .ok () ∧ ∃ response reply,
    x.events = [.linked (.ok ()), .exchanged configurationCommand (.ok response)] ∧
      response.checked = .ok reply ∧ versionOfReply reply = .ok v

/-- A drop, a closing however it ended, or an opening that failed on a closed wallet. -/
def Closes (x : Taken) : Prop :=
  x.step = .drop ∨ x.step = .closeChannel ∨
    x.step = .openChannel ∧ ∃ e, x.outcome = .error e ∧ e ≠ .walletAlreadyOpen

/-- A step that leaves the connection alone, and at most sends commands. -/
def Keeps (x : Taken) : Prop :=
  ¬ x.Closes ∧ ∀ event ∈ x.events, ∃ command answer, event = .exchanged command answer

end Taken

/-- The last connection stands, and was made by an opening that read this version. -/
def Connected (v : AppVersion) (history : List Taken) : Prop :=
  ∃ before opening since, history = before ++ opening :: since ∧
    opening.Opens v ∧ ∀ x ∈ since, x.Keeps

section
variable {t : Transport τ} {drop : τ → τ}

theorem openVersion?_of_disconnected {s : τ} (down : t.isConnected s = false) (l : Ledger) :
    openVersion? t l s = none := by
  rw [openVersion?, down, if_neg Bool.false_ne_true]

theorem openVersion?_eq_some {l : Ledger} {s : τ} {v : AppVersion}
    (known : openVersion? t l s = some v) : t.isConnected s = true ∧ l.version = some v := by
  rw [openVersion?] at known
  split at known
  · exact ⟨‹_›, known⟩
  · cases known

/-- A version that was read comes from the answer to the one command sent for it. -/
theorem readVersion_ok {d d' : Desk τ} {v : AppVersion}
    (read : readVersion (Desk.transport t) d = (.ok v, d')) :
    ∃ response reply, d'.log = d.log ++ [.exchanged configurationCommand (.ok response)] ∧
      response.checked = .ok reply ∧ versionOfReply reply = .ok v := by
  rw [readVersion_eq] at read
  obtain ⟨parsed, rfl⟩ := Prod.mk.inj read
  cases answer : (t.exchange configurationCommand d.link).1 with
  | error e =>
      rw [answer] at parsed
      cases parsed
  | ok response =>
      rw [answer] at parsed
      cases checked : response.checked with
      | error e =>
          simp only [Except.bind, checked] at parsed
          cases parsed
      | ok reply =>
          simp only [Except.bind, checked] at parsed
          exact ⟨response, reply, rfl, checked, parsed⟩

/-- A wallet open after an attempt to open it was open before, or has just been opened. -/
theorem openChannel_open (faithful : t.Faithful drop) {l : Ledger} {s : τ} {v : AppVersion}
    (known : openVersion? t (take t drop .openChannel (l, s)).2.1
      (take t drop .openChannel (l, s)).2.2 = some v) :
    (take t drop .openChannel (l, s)).1.Opens v ∨
      openVersion? t l s = some v ∧ (take t drop .openChannel (l, s)).1.Keeps := by
  simp only [take, Step.perform] at known ⊢
  have call := openChannel_call (Desk.transport t) l ⟨s, []⟩
  generalize Ledger.openChannel (Desk.transport t) (l, ⟨s, []⟩) = r at call known ⊢
  cases call with
  | alreadyOpen =>
      refine .inr ⟨known, ?_, fun event none => absurd none List.not_mem_nil⟩
      rintro (h | h | ⟨-, e, same, other⟩)
      · cases h
      · cases h
      · cases same
        exact other rfl
  | unlinked shut linking =>
      obtain ⟨failed, rfl⟩ := Prod.mk.inj linking
      -- The link is as before, so the wallet is as closed as before.
      have same : openVersion? t l (t.openLink s).2 = openVersion? t l s := by
        rw [openVersion?, faithful.unopened failed, openVersion?]
      exact absurd (shut.symm.trans (same.symm.trans known)) nofun
  | @unread _ _ d shut linking reading =>
      have down : openVersion? t l (t.closeLink d.link).2 = none :=
        openVersion?_of_disconnected (faithful.closed d.link) l
      exact absurd (down.symm.trans known) nofun
  | @opened v' _ d shut linking reading =>
      have linked : (t.openLink s).1 = .ok () := congrArg Prod.fst linking
      obtain ⟨-, rfl⟩ := Prod.mk.inj linking
      obtain ⟨response, reply, noted, checked, parsed⟩ := readVersion_ok reading
      obtain rfl : v' = v := Option.some.inj (openVersion?_eq_some known).2
      have events : d.log = [.linked (.ok ()), .exchanged configurationCommand (.ok response)] := by
        rw [noted, ← linked]
        rfl
      exact .inl ⟨rfl, rfl, response, reply, events, checked, parsed⟩

/-- An attempt to open the wallet sends no command but the one that asks for the version. -/
theorem openChannel_sends {l : Ledger} {s : τ} {c : Command} {answer : Except Error Apdu.Response}
    (sent : .exchanged c answer ∈ (take t drop .openChannel (l, s)).1.events) :
    c = configurationCommand := by
  simp only [take, Step.perform] at sent
  have call := openChannel_call (Desk.transport t) l ⟨s, []⟩
  generalize Ledger.openChannel (Desk.transport t) (l, ⟨s, []⟩) = r at call sent
  cases call with
  | alreadyOpen => cases sent
  | unlinked shut linking =>
      obtain ⟨-, rfl⟩ := Prod.mk.inj linking
      cases List.mem_singleton.mp sent
  | unread shut linking reading =>
      rw [readVersion_eq] at reading
      obtain ⟨-, rfl⟩ := Prod.mk.inj linking
      obtain ⟨-, rfl⟩ := Prod.mk.inj reading
      rcases List.mem_append.mp sent with sent | sent
      · rcases List.mem_append.mp sent with sent | sent
        · cases List.mem_singleton.mp sent
        · cases List.mem_singleton.mp sent
          rfl
      · cases List.mem_singleton.mp sent
  | opened shut linking reading =>
      rw [readVersion_eq] at reading
      obtain ⟨-, rfl⟩ := Prod.mk.inj linking
      obtain ⟨-, rfl⟩ := Prod.mk.inj reading
      rcases List.mem_append.mp sent with sent | sent
      · cases List.mem_singleton.mp sent
      · cases List.mem_singleton.mp sent
        rfl

/-- The ways in which a step goes that needs an open wallet. -/
inductive UseCall (t : Transport τ) (step : Step) (l : Ledger) (s : τ) :
    Taken × (Ledger × τ) → Prop where
  | closed : openVersion? t l s = none →
      UseCall t step l s (⟨step, .error .walletClosed, []⟩, (l, s))
  | unsent {v outcome} : openVersion? t l s = some v →
      UseCall t step l s (⟨step, outcome, []⟩, (l, s))
  | sent {v c outcome l'} : openVersion? t l s = some v →
      (c.ins = signIns → v.signsTypedData = true) → l'.version = l.version →
      UseCall t step l s
        (⟨step, outcome, [.exchanged c (t.exchange c s).1]⟩, (l', (t.exchange c s).2))

theorem UseCall.of_send {step : Step} {l l' : Ledger} {s : τ} {v : AppVersion} {c : Command}
    {x : Except Error Bytes} {d : Desk τ} {outcome : Except Error Unit}
    (known : openVersion? t l s = some v) (signs : c.ins = signIns → v.signsTypedData = true)
    (kept : l'.version = l.version)
    (sending : (Desk.transport t).send c ⟨s, []⟩ = (x, d)) :
    UseCall t step l s (⟨step, outcome, d.log⟩, (l', d.link)) := by
  rw [Desk.send_eq] at sending
  obtain ⟨-, rfl⟩ := Prod.mk.inj sending
  exact .sent known signs kept

theorem derive_use (path : Path) (pin : Bool) (l : Ledger) (s : τ) :
    UseCall t (.derive path pin) l s (take t drop (.derive path pin) (l, s)) := by
  simp only [take, Step.perform, Action.andThen]
  have call := derive_call (Desk.transport t) path pin l ⟨s, []⟩
  generalize Ledger.derive (Desk.transport t) path pin (l, ⟨s, []⟩) = r at call ⊢
  have other {v : AppVersion} {c : Command} (made : publicKeyCommand path = .ok c)
      (signs : c.ins = signIns) : v.signsTypedData = true := by
    have ins : publicKeyIns = signIns := (publicKeyCommand_ins made).symm.trans signs
    exact absurd ins (by decide)
  cases call with
  | closed shut => exact .closed shut
  | unmade known made => exact .unsent known
  | unanswered known made sending => exact .of_send known (other made) rfl sending
  | malformed known made sending read => exact .of_send known (other made) rfl sending
  | derived known made sending read =>
      refine .of_send known (other made) ?_ sending
      cases pin <;> rfl

theorem sign_use (account : Account) (typedData : TypedData) (l : Ledger) (s : τ) :
    UseCall t (.sign account typedData) l s (take t drop (.sign account typedData) (l, s)) := by
  simp only [take, Step.perform, Action.andThen]
  have call := sign_call (Desk.transport t) account typedData l ⟨s, []⟩
  generalize Ledger.sign (Desk.transport t) account typedData (l, ⟨s, []⟩) = r at call ⊢
  cases call with
  | closed shut => exact .closed shut
  | outdated known signs => exact .unsent known
  | unmade known signs made => exact .unsent known
  | unanswered known signs made sending => exact .of_send known (fun _ => signs) rfl sending
  | @answered _ _ reply _ known signs made sending =>
      cases signatureOfReply reply <;> exact .of_send known (fun _ => signs) rfl sending

theorem not_closes_of_uses {x : Taken} (uses : x.step.Uses) : ¬ x.Closes := by
  rintro (h | h | ⟨h, -⟩) <;> rw [h] at uses <;> exact uses

theorem UseCall.isOpen {step : Step} (uses : step.Uses) {l : Ledger} {s : τ}
    {r : Taken × (Ledger × τ)} (call : UseCall t step l s r) {v : AppVersion}
    (known : openVersion? t r.2.1 r.2.2 = some v) :
    openVersion? t l s = some v ∧ r.1.Keeps := by
  cases call with
  | closed shut => exact absurd (shut.symm.trans known) nofun
  | unsent before =>
      exact ⟨known, not_closes_of_uses uses, fun event none => absurd none List.not_mem_nil⟩
  | sent before signs kept =>
      have same := (openVersion?_eq_some before).2
      rw [← kept, (openVersion?_eq_some known).2] at same
      refine ⟨before.trans same.symm, not_closes_of_uses uses, fun event one => ?_⟩
      exact ⟨_, _, List.mem_singleton.mp one⟩

theorem Connected.append {v : AppVersion} {history : List Taken} (connected : Connected v history)
    {x : Taken} (keeps : x.Keeps) : Connected v (history ++ [x]) := by
  obtain ⟨before, opening, since, rfl, opens, kept⟩ := connected
  refine ⟨before, opening, since ++ [x], ?_, opens, ?_⟩
  · rw [List.append_assoc, List.cons_append]
  · exact List.forall_mem_append.mpr ⟨kept, fun y one => List.mem_singleton.mp one ▸ keeps⟩

theorem UseCall.refused {step : Step} {l : Ledger} {s : τ} {r : Taken × (Ledger × τ)}
    (call : UseCall t step l s r) (shut : openVersion? t l s = none) :
    r = (⟨step, .error .walletClosed, []⟩, (l, s)) := by
  cases call with
  | closed _ => rfl
  | unsent known => exact absurd (shut.symm.trans known) nofun
  | sent known signs kept => exact absurd (shut.symm.trans known) nofun

end

end Ledger

end HardwareSigner
