import HardwareSigner.Proofs.Ledger.KeyReplies
import HardwareSigner.Proofs.Ledger.Lifecycle
/-!
When a Ledger shows the version of its app.  An opening stores the version and a closing forgets it,
but a wallet is open only while the link stands as well.  A link that goes down on its own closes
the wallet and leaves the version behind, in the label too, until the wallet is closed or an opening
succeeds.
-/

namespace HardwareSigner
variable {τ : Type}

/-- A link that only an opening brings up, and only a closing or a drop takes down. -/
structure Transport.Steady (t : Transport τ) (drop : τ → τ) : Prop extends t.Faithful drop where
  opened {s : τ} : (t.openLink s).1 = .ok () → t.isConnected (t.openLink s).2 = true
  exchanged (c : Apdu.Command) (s : τ) : t.isConnected (t.exchange c s).2 = t.isConnected s

theorem Script.steady : Script.transport.Steady Script.drop where
  toFaithful := Script.faithful
  opened {s} opened := by
    simp only [Script.transport, Script.openLink] at opened ⊢
    split at opened
    · cases opened
    · rfl
    · rfl
  exchanged c s := by
    simp only [Script.transport, Script.exchange]
    split <;> rfl

namespace Ledger

/-- A closing, or an opening that succeeded: what the stored version was is gone. -/
def Taken.Resets (x : Taken) : Prop :=
  x.step = .closeChannel ∨ x.step = .openChannel ∧ x.outcome = .ok ()

/-- An opening read this version, and in the steps `since` then the wallet was neither closed nor
opened again. -/
def Remembered (v : AppVersion) (since history : List Taken) : Prop :=
  ∃ before opening, history = before ++ opening :: since ∧ opening.Opens v ∧
    ∀ x ∈ since, ¬ x.Resets

theorem Taken.Opens.unique {v w : AppVersion} {x : Taken} (first : x.Opens v)
    (second : x.Opens w) : v = w := by
  obtain ⟨-, -, _, reply, events, checked, read⟩ := first
  obtain ⟨-, -, _, reply', events', checked', read'⟩ := second
  obtain ⟨-, same⟩ := List.cons.inj (events.symm.trans events')
  cases same
  obtain rfl := Except.ok.inj (checked.symm.trans checked')
  exact Except.ok.inj (read.symm.trans read')

theorem Taken.Opens.resets {v : AppVersion} {x : Taken} (opens : x.Opens v) : x.Resets :=
  .inr ⟨opens.1, opens.2.1⟩

/-- Whether a version is remembered is decided by the last step, or by those before it. -/
theorem remembered_concat {v : AppVersion} {since history : List Taken} {x : Taken} :
    Remembered v since (history ++ [x]) ↔
      x.Opens v ∧ since = [] ∨
        ¬ x.Resets ∧ ∃ since', since = since' ++ [x] ∧ Remembered v since' history := by
  constructor
  · rintro ⟨before, opening, whole, opens, kept⟩
    rcases List.eq_nil_or_concat since with rfl | ⟨since', last, rfl⟩
    · obtain ⟨-, same⟩ := List.append_inj' whole rfl
      cases same
      exact .inl ⟨opens, rfl⟩
    · rw [List.concat_eq_append] at whole kept ⊢
      rw [← List.cons_append, ← List.append_assoc] at whole
      obtain ⟨rfl, same⟩ := List.append_inj' whole rfl
      cases same
      obtain ⟨earlier, keeps⟩ := List.forall_mem_append.mp kept
      exact .inr ⟨keeps x List.mem_cons_self, since', rfl, before, opening, rfl, opens, earlier⟩
  · rintro (⟨opens, rfl⟩ | ⟨keeps, since', rfl, before, opening, rfl, opens, earlier⟩)
    · exact ⟨history, x, rfl, opens, nofun⟩
    · refine ⟨before, opening, ?_, opens, ?_⟩
      · rw [List.append_assoc, List.cons_append]
      · exact List.forall_mem_append.mpr
          ⟨earlier, fun y one => List.mem_singleton.mp one ▸ keeps⟩

section
variable {t : Transport τ} {drop : τ → τ}

/-- What a step does to the stored version, and to the link while a version is stored. -/
inductive Stores (t : Transport τ) (x : Taken) (l l' : Ledger) (s s' : τ) : Prop where
  | stored {v} : x.Opens v → l'.version = some v → t.isConnected s' = true → Stores t x l l' s s'
  | forgotten : x.step = .closeChannel → l'.version = none → Stores t x l l' s s'
  | kept : ¬ x.Resets → l'.version = l.version →
      (∀ v, l.version = some v →
        (t.isConnected s' = true ↔ t.isConnected s = true ∧ x.step ≠ .drop)) →
      Stores t x l l' s s'

theorem openChannel_stores (steady : t.Steady drop) (l : Ledger) (s : τ) :
    let r := take t drop .openChannel (l, s)
    Stores t r.1 l r.2.1 s r.2.2 := by
  intro r
  have keeps {e : Error} {events : List DeskEvent} :
      ¬ (Taken.mk .openChannel (.error e) events).Resets := by
    rintro (closing | ⟨-, opened⟩)
    · cases closing
    · cases opened
  have undropped : Step.openChannel ≠ .drop := by
    intro same
    cases same
  have opens (v : AppVersion) := openChannel_open (l := l) (s := s) (v := v) steady.toFaithful
  have call := openChannel_call (Desk.transport t) l ⟨s, []⟩
  simp only [r, take, Step.perform] at opens ⊢
  generalize Ledger.openChannel (Desk.transport t) (l, ⟨s, []⟩) = r at call opens ⊢
  cases call with
  | alreadyOpen _ =>
      exact .kept keeps rfl fun _ _ => (and_iff_left undropped).symm
  | unlinked _ linking =>
      obtain ⟨failed, rfl⟩ := Prod.mk.inj linking
      have same := steady.unopened failed
      refine .kept keeps rfl fun _ _ => ?_
      rw [and_iff_left undropped]
      exact iff_of_eq (congrArg (· = true) same)
  | @unread _ _ d shut _ _ =>
      -- A version is stored, so the wallet was closed because its link was down.
      refine .kept keeps rfl fun v known => iff_of_false ?_ fun both => ?_
      · exact Bool.eq_false_iff.mp (steady.closed d.link)
      · have open_ : openVersion? t l s = some v := (if_pos both.1).trans known
        cases shut.symm.trans open_
  | @opened v _ d shut linking reading =>
      have linked : (t.openLink s).1 = .ok () := congrArg Prod.fst linking
      have up : t.isConnected d.link = true := by
        obtain ⟨-, rfl⟩ := Prod.mk.inj linking
        rw [readVersion_eq] at reading
        obtain ⟨-, rfl⟩ := Prod.mk.inj reading
        exact (steady.exchanged _ _).trans (steady.opened linked)
      rcases opens v (if_pos up) with opens | ⟨open_, -⟩
      · exact .stored opens rfl up
      · cases shut.symm.trans open_

theorem UseCall.stores (steady : t.Steady drop) {step : Step} (uses : step.Uses) {l : Ledger}
    {s : τ} {r : Taken × (Ledger × τ)} (call : UseCall t step l s r) :
    Stores t r.1 l r.2.1 s r.2.2 := by
  have keeps {outcome : Except Error Unit} {events : List DeskEvent} :
      ¬ (Taken.mk step outcome events).Resets := by
    rintro (rfl | ⟨rfl, -⟩) <;> exact uses
  have undropped : step ≠ .drop := by
    rintro rfl
    exact uses
  cases call with
  | closed _ => exact .kept keeps rfl fun _ _ => (and_iff_left undropped).symm
  | unsent _ => exact .kept keeps rfl fun _ _ => (and_iff_left undropped).symm
  | sent _ _ same =>
      refine .kept keeps same fun _ _ => ?_
      rw [steady.exchanged, and_iff_left undropped]

theorem take_stores (steady : t.Steady drop) (step : Step) (l : Ledger) (s : τ) :
    let r := take t drop step (l, s)
    Stores t r.1 l r.2.1 s r.2.2 := by
  cases step with
  | openChannel => exact openChannel_stores steady l s
  | closeChannel => exact .forgotten rfl rfl
  | derive path pin => exact (derive_use path pin l s).stores steady (by trivial)
  | sign account typedData => exact (sign_use account typedData l s).stores steady (by trivial)
  | drop =>
      refine .kept nofun rfl fun _ _ => iff_of_false ?_ fun both => both.2 rfl
      exact Bool.eq_false_iff.mp (steady.dropped s)

/-- The stored version is the one remembered, and its link stands unless it has been dropped. -/
structure Recalls (t : Transport τ) (history : List Taken) (l : Ledger) (s : τ) : Prop where
  version (v : AppVersion) : l.version = some v ↔ ∃ since, Remembered v since history
  link {v : AppVersion} {since : List Taken} : Remembered v since history →
    (t.isConnected s = true ↔ ∀ x ∈ since, x.step ≠ .drop)

theorem Recalls.step {history : List Taken} {x : Taken} {l l' : Ledger} {s s' : τ}
    (recalls : Recalls t history l s) (stores : Stores t x l l' s s') :
    Recalls t (history ++ [x]) l' s' := by
  cases stores with
  | @stored w opens version up =>
      have only {v : AppVersion} {since : List Taken}
          (last : Remembered v since (history ++ [x])) : x.Opens v ∧ since = [] := by
        rcases remembered_concat.mp last with last | ⟨keeps, -⟩
        · exact last
        · exact absurd opens.resets keeps
      constructor
      · intro v
        rw [version]
        constructor
        · rintro ⟨⟩
          exact ⟨[], remembered_concat.mpr (.inl ⟨opens, rfl⟩)⟩
        · rintro ⟨since, last⟩
          rw [opens.unique (only last).1]
      · intro v since last
        obtain ⟨-, rfl⟩ := only last
        exact iff_of_true up nofun
  | forgotten closing version =>
      have none {v : AppVersion} {since : List Taken} :
          ¬ Remembered v since (history ++ [x]) := by
        rw [remembered_concat]
        rintro (⟨opens, -⟩ | ⟨keeps, -⟩)
        · exact absurd (closing.symm.trans opens.1) nofun
        · exact keeps (.inl closing)
      constructor
      · intro v
        rw [version]
        exact iff_of_false nofun fun ⟨_, last⟩ => none last
      · intro v since last
        exact absurd last none
  | kept keeps version link =>
      have before {v : AppVersion} {since : List Taken} :
          Remembered v since (history ++ [x]) ↔
            ∃ since', since = since' ++ [x] ∧ Remembered v since' history := by
        rw [remembered_concat, and_iff_right keeps]
        exact or_iff_right fun last => keeps last.1.resets
      constructor
      · intro v
        rw [version, recalls.version]
        constructor
        · rintro ⟨since, last⟩
          exact ⟨since ++ [x], before.mpr ⟨since, rfl, last⟩⟩
        · rintro ⟨_, last⟩
          obtain ⟨since, -, earlier⟩ := before.mp last
          exact ⟨since, earlier⟩
      · intro v since last
        obtain ⟨since, rfl, earlier⟩ := before.mp last
        rw [link v ((recalls.version v).mpr ⟨since, earlier⟩), recalls.link earlier,
          List.forall_mem_append, List.forall_mem_singleton]

/-- Whatever steps are taken, the driver goes on recalling what it has read. -/
theorem takeAll_recalls (steady : t.Steady drop) (steps : List Step) {history : List Taken}
    {l : Ledger} {s : τ} (recalls : Recalls t history l s) :
    Recalls t (history ++ (takeAll t drop steps (l, s)).1) (takeAll t drop steps (l, s)).2.1
      (takeAll t drop steps (l, s)).2.2 := by
  -- Over the steps still to come; the ones taken so far stand in `history`.
  induction steps generalizing history l s with
  | nil =>
      rw [takeAll, List.append_nil]
      exact recalls
  | cons step steps ih =>
      rw [takeAll, List.append_cons]
      exact ih (recalls.step (take_stores steady step l s))

theorem Recalls.new (t : Transport τ) (name : String) (s : τ) : Recalls t [] (closed name) s := by
  have none {v : AppVersion} {since : List Taken} : ¬ Remembered v since [] := by
    rintro ⟨before, opening, whole, -⟩
    exact List.append_ne_nil_of_right_ne_nil before (List.cons_ne_nil _ _) whole.symm
  constructor
  · intro v
    exact iff_of_false nofun fun ⟨_, last⟩ => none last
  · intro v since last
    exact absurd last none

theorem take_name (step : Step) (l : Ledger) (s : τ) :
    (take t drop step (l, s)).2.1.name = l.name := by
  cases step with
  | openChannel =>
      simp only [take, Step.perform]
      have call := openChannel_call (Desk.transport t) l ⟨s, []⟩
      generalize Ledger.openChannel (Desk.transport t) (l, ⟨s, []⟩) = r at call ⊢
      cases call <;> rfl
  | closeChannel => rfl
  | derive path pin =>
      simp only [take, Step.perform, Action.andThen]
      have call := derive_call (Desk.transport t) path pin l ⟨s, []⟩
      generalize Ledger.derive (Desk.transport t) path pin (l, ⟨s, []⟩) = r at call ⊢
      cases call with
      | derived _ _ _ _ => cases pin <;> rfl
      | closed _ | unmade _ _ | unanswered _ _ _ | malformed _ _ _ _ => rfl
  | sign account typedData =>
      simp only [take, Step.perform, Action.andThen]
      have call := sign_call (Desk.transport t) account typedData l ⟨s, []⟩
      generalize Ledger.sign (Desk.transport t) account typedData (l, ⟨s, []⟩) = r at call ⊢
      cases call with
      | @answered _ _ reply _ _ _ _ _ => cases signatureOfReply reply <;> rfl
      | closed _ | outdated _ _ | unmade _ _ _ | unanswered _ _ _ _ => rfl
  | drop => rfl

theorem takeAll_name (steps : List Step) (l : Ledger) (s : τ) :
    (takeAll t drop steps (l, s)).2.1.name = l.name := by
  induction steps generalizing l s with
  | nil => rfl
  | cons step steps ih => exact (ih _ _).trans (take_name step l s)

/-- A derivation at an admissible path asks the device if the wallet is open. -/
theorem take_derive_of_ready {path : Path} (pin : Bool) {l : Ledger} {s : τ}
    (isOpen : IsOpen t l s) (askable : Askable path) :
    ∃ c, publicKeyCommand path = .ok c ∧
      (take t drop (.derive path pin) (l, s)).1.events = [.exchanged c (t.exchange c s).1] := by
  obtain ⟨c, -, made, -, -⟩ := publicKeyCommand_of_askable askable
  refine ⟨c, made, ?_⟩
  have done := derive_of_ready (t := Desk.transport t) (s := ⟨s, []⟩) pin isOpen made
  simp only [Desk.send_eq] at done
  simp only [take, Step.perform, Action.andThen, done]
  cases ((t.exchange c s).1.bind Apdu.Response.checked).bind (accountOfReply path) <;> rfl

theorem take_derive_of_closed (path : Path) (pin : Bool) {l : Ledger} {s : τ}
    (shut : ¬ IsOpen t l s) :
    take t drop (.derive path pin) (l, s) =
      (⟨.derive path pin, .error .walletClosed, []⟩, (l, s)) := by
  refine (derive_use path pin l s).refused ?_
  cases known : openVersion? t l s with
  | none => rfl
  | some v => exact absurd (isOpen_iff.mpr ⟨v, known⟩) shut

theorem label_eq_name_iff (l : Ledger) : l.label = l.name ↔ l.version = none := by
  rw [label]
  cases l.version with
  | none => exact iff_of_true rfl rfl
  | some v =>
      refine iff_of_false (fun same => ?_) nofun
      have longer := congrArg String.length same
      simp only [String.length_append] at longer
      have opened : " (Ethereum app ".length = 15 := rfl
      omega

/-- In any run of a new Ledger, over a link that may go down at any time, the version shown is the
one read at the last opening that succeeded, until the wallet is closed.  The wallet is open, and
asks the device for keys, if the link has not been dropped since that opening; so a version is
shown on a closed wallet exactly after a drop, and opening again does not take it away if it
fails. -/
theorem version_is_shown_until_closed (steady : t.Steady drop) (name : String) (link : τ)
    (steps : List Step) :
    let run := takeAll t drop steps (closed name, link)
    let l := run.2.1
    (∀ v, l.version = some v ↔ ∃ since, Remembered v since run.1) ∧
    (IsOpen t l run.2.2 ↔
      ∃ v since, Remembered v since run.1 ∧ ∀ x ∈ since, x.step ≠ .drop) ∧
    ((∃ v, l.version = some v) ∧ ¬ IsOpen t l run.2.2 ↔
      ∃ v since, Remembered v since run.1 ∧ ∃ x ∈ since, x.step = .drop) ∧
    (l.label = name ↔ l.version = none) ∧
    (∀ v, l.version = some v → l.label = name ++ " (Ethereum app " ++ v.display ++ ")") ∧
    (∀ path pin, Askable path →
      let x := take t drop (.derive path pin) run.2
      (IsOpen t l run.2.2 → ∃ command, publicKeyCommand path = .ok command ∧
        x.1.events = [.exchanged command (t.exchange command run.2.2).1]) ∧
      (¬ IsOpen t l run.2.2 → x = (⟨.derive path pin, .error .walletClosed, []⟩, run.2))) := by
  intro run l
  have recalls : Recalls t run.1 l run.2.2 :=
    takeAll_recalls steady steps (Recalls.new t name link)
  have named : l.name = name := takeAll_name steps (closed name) link
  refine ⟨recalls.version, ?_, ?_, ?_, ?_, ?_⟩
  · constructor
    · rintro ⟨up, v, known⟩
      obtain ⟨since, last⟩ := (recalls.version v).mp known
      exact ⟨v, since, last, (recalls.link last).mp up⟩
    · rintro ⟨v, since, last, undropped⟩
      exact ⟨(recalls.link last).mpr undropped, v, (recalls.version v).mpr ⟨since, last⟩⟩
  · constructor
    · rintro ⟨⟨v, known⟩, shut⟩
      obtain ⟨since, last⟩ := (recalls.version v).mp known
      have dropped : ¬ ∀ x ∈ since, x.step ≠ .drop :=
        fun undropped => shut ⟨(recalls.link last).mpr undropped, v, known⟩
      push Not at dropped
      exact ⟨v, since, last, dropped⟩
    · rintro ⟨v, since, last, x, one, dropped⟩
      refine ⟨⟨v, (recalls.version v).mpr ⟨since, last⟩⟩, fun isOpen => ?_⟩
      exact (recalls.link last).mp isOpen.1 x one dropped
  · rw [← named]
    exact label_eq_name_iff l
  · intro v known
    rw [← named, label, known]
  · intro path pin askable
    exact ⟨fun isOpen => take_derive_of_ready pin isOpen askable,
      fun shut => take_derive_of_closed path pin shut⟩

/-- After a drop the version stays, also when the wallet cannot be opened again. -/
theorem version_is_shown_until_closed_failing :
    let script : Script := ⟨false, [], [.ok [0, 1, 9, 20, 0x90, 0x00]], [], []⟩
    let run := takeAll Script.transport Script.drop [.openChannel, .drop, .openChannel]
      (closed "Nano", script)
    (∃ since, Remembered ⟨1, 9, 20⟩ since run.1) ∧ ¬ IsOpen Script.transport run.2.1 run.2.2 := by
  intro script run
  obtain ⟨shown, isOpen, -⟩ := version_is_shown_until_closed Script.steady "Nano" script
    [.openChannel, .drop, .openChannel]
  exact ⟨(shown ⟨1, 9, 20⟩).mp rfl, fun ⟨up, _⟩ => absurd up (by decide)⟩

/-- The version of an app that can no longer be asked. -/
theorem version_is_shown_after_drop :
    let script : Script := ⟨false, [], [.ok [0, 1, 9, 20, 0x90, 0x00]], [], []⟩
    let run := takeAll Script.transport Script.drop [.openChannel, .drop] (closed "Nano", script)
    let asked := Step.derive (.ethereum 0) false
    run.2.1.version = some ⟨1, 9, 20⟩ ∧ run.2.1.label = "Nano (Ethereum app v1.9.20)" ∧
      take Script.transport Script.drop asked run.2 =
        (⟨asked, .error .walletClosed, []⟩, run.2) := by
  refine ⟨rfl, by decide +kernel, rfl⟩

end

end Ledger

end HardwareSigner
