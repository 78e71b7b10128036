import HardwareSigner.Proofs.Keyring.Calls
import HardwareSigner.Proofs.Ledger.Calls
/-!
A desk has the link to a Ledger and an operator's console, with one record of what goes over the
link and what is printed.  For each operation of the Ledger a lemma says what it adds to the record.
-/

namespace HardwareSigner
variable {τ : Type}

/-- What happens on a desk. -/
inductive DeskEvent where
  | linked (outcome : Except Error Unit)
  | unlinked (outcome : Except Error Unit)
  | exchanged (command : Apdu.Command) (answer : Except Error Apdu.Response)
  | printed (line : String)

namespace DeskEvent

/-- The lines among the events, in order. -/
def lines (events : List DeskEvent) : List String :=
  events.filterMap fun
    | printed line => some line
    | _ => none

/-- The commands among the events that ask for a signature, in order. -/
def signCommands (events : List DeskEvent) : List Apdu.Command :=
  events.filterMap fun
    | exchanged command _ => if command.ins = Ledger.signIns then some command else none
    | _ => none

/-- Nothing was printed, and no signature was asked for. -/
def Quiet (events : List DeskEvent) : Prop :=
  lines events = [] ∧ signCommands events = []

@[simp] theorem lines_append (es fs : List DeskEvent) : lines (es ++ fs) = lines es ++ lines fs :=
  List.filterMap_append

@[simp] theorem signCommands_append (es fs : List DeskEvent) :
    signCommands (es ++ fs) = signCommands es ++ signCommands fs := List.filterMap_append

@[simp] theorem lines_printed (lines : List String) :
    DeskEvent.lines (lines.map .printed) = lines := by
  rw [DeskEvent.lines, List.filterMap_map]
  exact List.filterMap_some

@[simp] theorem signCommands_printed (lines : List String) :
    signCommands (lines.map .printed) = [] := by
  rw [signCommands, List.filterMap_map]
  exact List.filterMap_eq_nil_iff.mpr fun _ _ => rfl

theorem Quiet.append {es fs : List DeskEvent} (h : Quiet es) (k : Quiet fs) : Quiet (es ++ fs) := by
  constructor
  · rw [lines_append, h.1, k.1, List.append_nil]
  · rw [signCommands_append, h.2, k.2, List.append_nil]

theorem quiet_exchanged {command : Apdu.Command} (other : command.ins ≠ Ledger.signIns)
    (answer : Except Error Apdu.Response) : Quiet [.exchanged command answer] := by
  constructor
  · rfl
  · simp only [signCommands, List.filterMap_cons, if_neg other, List.filterMap_nil]

end DeskEvent

structure Desk (τ : Type) where
  link : τ
  log : List DeskEvent

namespace Desk
open DeskEvent (Quiet)

/-- What one exchange over the link adds to the record. -/
def note (d : Desk τ) (link : τ) (event : DeskEvent) : Desk τ :=
  ⟨link, d.log ++ [event]⟩

/-- A change of the link from outside, of which nothing is written down. -/
def relink (change : τ → τ) (d : Desk τ) : Desk τ :=
  { d with link := change d.link }

/-- The link of a desk: what goes over it is written down. -/
def transport (t : Transport τ) : Transport (Desk τ) where
  openLink d :=
    let r := t.openLink d.link
    (r.1, d.note r.2 (.linked r.1))
  closeLink d :=
    let r := t.closeLink d.link
    (r.1, d.note r.2 (.unlinked r.1))
  exchange command d :=
    let r := t.exchange command d.link
    (r.1, d.note r.2 (.exchanged command r.1))
  isConnected d := t.isConnected d.link

/-- A host whose hub finds one Ledger, as yet unopened. -/
def host (t : Transport τ) (name : String) : Host Ledger (Desk τ) where
  toDevice := Ledger.device (transport t)
  hub d := (.ok (some [Ledger.closed name]), d)
  print line d := d.note d.link (.printed line)

/-- The events that came after those on record before, with a property. -/
def Adds (P : List DeskEvent → Prop) (before after : Desk τ) : Prop :=
  ∃ events, after.log = before.log ++ events ∧ P events

theorem Adds.refl (d : Desk τ) : Adds Quiet d d :=
  ⟨[], (List.append_nil d.log).symm, rfl, rfl⟩

theorem Adds.trans {a b c : Desk τ} (first : Adds Quiet a b) (second : Adds Quiet b c) :
    Adds Quiet a c := by
  obtain ⟨es, hes, quiet⟩ := first
  obtain ⟨fs, hfs, quiet'⟩ := second
  refine ⟨es ++ fs, ?_, quiet.append quiet'⟩
  rw [hfs, hes, List.append_assoc]

section
variable {t : Transport τ}

/-- A command sent is one exchange on record, whose answer is then looked at. -/
theorem send_eq (command : Apdu.Command) (d : Desk τ) :
    (transport t).send command d =
      ((t.exchange command d.link).1.bind Apdu.Response.checked,
        d.note (t.exchange command d.link).2
          (.exchanged command (t.exchange command d.link).1)) := by
  simp only [Transport.send, Action.andThen, transport]
  rcases t.exchange command d.link with ⟨e | response, s⟩ <;> rfl

/-- Whatever is made of the answer, sending a command adds one exchange to the record. -/
theorem send_log {command : Apdu.Command} {d d' : Desk τ} {x : Except Error Bytes}
    (sent : (transport t).send command d = (x, d')) :
    ∃ answer, d'.log = d.log ++ [.exchanged command answer] := by
  rw [send_eq] at sent
  cases sent
  exact ⟨_, rfl⟩

theorem send_quiet {command : Apdu.Command} {d d' : Desk τ} {x : Except Error Bytes}
    (sent : (transport t).send command d = (x, d')) (other : command.ins ≠ Ledger.signIns) :
    Adds Quiet d d' := by
  obtain ⟨answer, noted⟩ := send_log sent
  exact ⟨_, noted, DeskEvent.quiet_exchanged other answer⟩

theorem openLink_quiet (d : Desk τ) : Adds Quiet d ((transport t).openLink d).2 :=
  ⟨_, rfl, rfl, rfl⟩

theorem closeLink_quiet (d : Desk τ) : Adds Quiet d ((transport t).closeLink d).2 :=
  ⟨_, rfl, rfl, rfl⟩

end

end Desk

namespace Ledger
open Desk DeskEvent

theorem command_ok {ins : UInt8} {data : Bytes} {c : Apdu.Command}
    (made : command ins data = .ok c) : c.ins = ins ∧ c.data = data := by
  simp only [command, Apdu.Command.ethereum, Apdu.Command.make] at made
  split at made
  · rename_i c' found
    split at found
    · cases found
      cases made
      exact ⟨rfl, rfl⟩
    · cases found
  · cases made

theorem publicKeyCommand_ins {path : Path} {c : Apdu.Command}
    (made : publicKeyCommand path = .ok c) : c.ins = publicKeyIns := by
  simp only [publicKeyCommand] at made
  split at made
  · cases made
  · exact (command_ok made).1

/-- The data of a command that asks for a signature: the path, then both hashes. -/
theorem signCommand_ok {path : Path} {typedData : TypedData} {c : Apdu.Command}
    (made : signCommand path typedData = .ok c) :
    ∃ encoded hashes, encodePath path = .ok encoded ∧ typedData.signingHashes = .ok hashes ∧
      c.ins = signIns ∧ c.data = encoded ++ hashes.domain.bytes ++ hashes.message.bytes := by
  simp only [signCommand] at made
  cases hashed : typedData.signingHashes with
  | error e => rw [hashed] at made; cases made
  | ok hashes =>
      simp only [hashed] at made
      cases written : encodePath path with
      | error e => rw [written] at made; cases made
      | ok encoded =>
          simp only [written] at made
          exact ⟨encoded, hashes, rfl, rfl, command_ok made⟩

section
variable {t : Transport τ}

/-- The version is read with one command, whatever comes of it. -/
theorem readVersion_eq (d : Desk τ) :
    readVersion (transport t) d =
      (((t.exchange configurationCommand d.link).1.bind Apdu.Response.checked).bind versionOfReply,
        d.note (t.exchange configurationCommand d.link).2
          (.exchanged configurationCommand (t.exchange configurationCommand d.link).1)) := by
  simp only [readVersion, Action.andThen, send_eq]
  cases (t.exchange configurationCommand d.link).1.bind Apdu.Response.checked <;> rfl

theorem readVersion_quiet {d d' : Desk τ} {x : Except Error AppVersion}
    (read : readVersion (transport t) d = (x, d')) : Adds Quiet d d' := by
  rw [readVersion_eq] at read
  cases read
  exact ⟨_, rfl, DeskEvent.quiet_exchanged (by decide) _⟩

theorem openChannel_quiet (l : Ledger) (d : Desk τ) :
    Adds Quiet d (openChannel (transport t) (l, d)).2.2 := by
  have call := openChannel_call (transport t) l d
  generalize openChannel (transport t) (l, d) = r at call ⊢
  cases call with
  | alreadyOpen known => exact .refl d
  | unlinked known linking => exact congrArg Prod.snd linking ▸ openLink_quiet d
  | unread known linking reading =>
      have linked := openLink_quiet (t := t) d
      rw [linking] at linked
      exact (linked.trans (readVersion_quiet reading)).trans (closeLink_quiet _)
  | opened known linking reading =>
      have linked := openLink_quiet (t := t) d
      rw [linking] at linked
      exact linked.trans (readVersion_quiet reading)

theorem derive_quiet (path : Path) (pin : Bool) (l : Ledger) (d : Desk τ) :
    Adds Quiet d (derive (transport t) path pin (l, d)).2.2 := by
  have call := derive_call (transport t) path pin l d
  generalize derive (transport t) path pin (l, d) = r at call ⊢
  have other : publicKeyIns ≠ signIns := by decide
  cases call with
  | closed known => exact .refl d
  | unmade known made => exact .refl d
  | unanswered known made sent => exact send_quiet sent (publicKeyCommand_ins made ▸ other)
  | malformed known made sent read => exact send_quiet sent (publicKeyCommand_ins made ▸ other)
  | derived known made sent read => exact send_quiet sent (publicKeyCommand_ins made ▸ other)

/-- A request for a signature sends at most one command, made for the account's path. -/
theorem sign_adds (account : Account) (typedData : TypedData) (l : Ledger) (d : Desk τ) :
    Adds (fun events => Quiet events ∨ ∃ c answer, events = [.exchanged c answer] ∧
        signCommand (l.signingPath account) typedData = .ok c)
      d (sign (transport t) account typedData (l, d)).2.2 := by
  have call := sign_call (transport t) account typedData l d
  generalize sign (transport t) account typedData (l, d) = r at call ⊢
  have idle : Adds Quiet d d := .refl d
  cases call with
  | closed known => exact idle.imp fun _ h => ⟨h.1, .inl h.2⟩
  | outdated known signs => exact idle.imp fun _ h => ⟨h.1, .inl h.2⟩
  | unmade known signs made => exact idle.imp fun _ h => ⟨h.1, .inl h.2⟩
  | unanswered known signs made sent =>
      obtain ⟨answer, noted⟩ := send_log sent
      exact ⟨_, noted, .inr ⟨_, answer, rfl, made⟩⟩
  | answered known signs made sent =>
      obtain ⟨answer, noted⟩ := send_log sent
      exact ⟨_, noted, .inr ⟨_, answer, rfl, made⟩⟩

end

end Ledger

end HardwareSigner
