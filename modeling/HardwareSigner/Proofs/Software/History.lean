import HardwareSigner.Proofs.Keyring.Answers
import HardwareSigner.Proofs.TypedData.Mismatches
import Mathlib.Data.List.DropRight
/-!
What the state of a wallet in software tells of its history: how often it was asked for what, and
which paths were pinned since it was last closed.
-/

namespace HardwareSigner
open SoftwareWallet (State Counts)

section
variable {α : Type} [DecidableEq α]

theorem eraseDups_concat (as : List α) (b : α) :
    (as ++ [b]).eraseDups = if b ∈ as then as.eraseDups else as.eraseDups ++ [b] := by
  rw [List.eraseDups_append]
  by_cases old : b ∈ as
  · have gone : [b].removeAll as = [] := by
      simp [List.removeAll, old]
    rw [if_pos old, gone, List.eraseDups_nil, List.append_nil]
  · have kept : [b].removeAll as = [b] := by
      simp [List.removeAll, old]
    rw [if_neg old, kept]
    rfl

theorem nodup_eraseDups (as : List α) : as.eraseDups.Nodup := by
  induction as using List.reverseRecOn with
  | nil => exact List.nodup_nil
  | append_singleton as b ih =>
      rw [eraseDups_concat]
      by_cases old : b ∈ as
      · rw [if_pos old]
        exact ih
      · rw [if_neg old, ← List.concat_eq_append]
        exact ih.concat (mt List.mem_eraseDups.mp old)

end

/-- What a wallet is asked for, and counts. -/
inductive Request where
  | opening
  | closing
  | derivation
  | signature
  deriving DecidableEq

def SoftwareWallet.Counts.of (counts : Counts) : Request → Nat
  | .opening => counts.opens
  | .closing => counts.closes
  | .derivation => counts.derives
  | .signature => counts.signs

namespace Touch

def request? : Touch → Option Request
  | openChannel _ => some .opening
  | closeChannel => some .closing
  | derive _ _ => some .derivation
  | sign _ _ => some .signature
  | control _ => none

/-- The path that a touch pins, given the state it finds. -/
def pins? (s : State) : Touch → Option Path
  | derive path true => if s.isOpen = true ∧ s.failDerive = false then some path else none
  | _ => none

/-- Every touch of a list with the state that it finds. -/
def found (w : SoftwareWallet) : State → List Touch → List (State × Touch)
  | _, [] => []
  | s, t :: ts => (s, t) :: found w (t.effect w s) ts

/-- The paths that were pinned since the last closing, as often as they were. -/
def pinnedSinceClosed (log : List (State × Touch)) : List Path :=
  (log.rtakeWhile fun entry => entry.2.request? ≠ some .closing).filterMap fun entry =>
    entry.2.pins? entry.1

variable {w : SoftwareWallet} {s : State}

theorem found_concat (w : SoftwareWallet) (s : State) (ts : List Touch) (t : Touch) :
    found w s (ts ++ [t]) = found w s ts ++ [(ts.foldl (effect w) s, t)] := by
  induction ts generalizing s with
  | nil => rfl
  | cons first ts ih => exact congrArg ((s, first) :: ·) (ih (first.effect w s))

theorem openChannel_effect (w : SoftwareWallet) (s : State) (passphrase : String) :
    ∃ isOpen, (openChannel passphrase).effect w s =
      { s with isOpen, counts.opens := s.counts.opens + 1 } := by
  unfold effect
  by_cases ready : s.Ready
  · rw [SoftwareWallet.openChannel_ready w ready]
    exact ⟨true, rfl⟩
  · obtain ⟨reason, failed⟩ := SoftwareWallet.openChannel_unready w ready
    rw [failed]
    exact ⟨s.isOpen, rfl⟩

theorem derive_effect (w : SoftwareWallet) (s : State) (path : Path) (pin : Bool) :
    (derive path pin).effect w s =
      ((derive path pin).pins? s).elim { s with counts.derives := s.counts.derives + 1 }
        ({ s with counts.derives := s.counts.derives + 1 } : State).pin := by
  simp only [effect, SoftwareWallet.derive, pins?]
  cases s.isOpen <;> cases s.failDerive <;> cases pin <;> rfl

theorem sign_effect (w : SoftwareWallet) (s : State) (account : Account) (typedData : TypedData) :
    (sign account typedData).effect w s = { s with counts.signs := s.counts.signs + 1 } := by
  simp only [effect, SoftwareWallet.sign]
  cases s.isOpen <;> cases s.failSign <;> rfl

theorem control_effect (w : SoftwareWallet) (s : State) (c : Control) :
    ((control c).effect w s).counts = s.counts ∧ ((control c).effect w s).pinned = s.pinned := by
  cases c <;> exact ⟨rfl, rfl⟩

/-- Whatever comes of it, a request is counted. -/
theorem counts_effect (w : SoftwareWallet) (s : State) (t : Touch) (r : Request) :
    (t.effect w s).counts.of r = s.counts.of r + if t.request? = some r then 1 else 0 := by
  cases t with
  | openChannel passphrase =>
      obtain ⟨isOpen, opened⟩ := openChannel_effect w s passphrase
      rw [opened]
      cases r <;> rfl
  | closeChannel => cases r <;> rfl
  | derive path pin =>
      have counts : ((derive path pin).effect w s).counts =
          { s.counts with derives := s.counts.derives + 1 } := by
        rw [derive_effect]
        cases (derive path pin).pins? s with
        | none => rfl
        | some path =>
            simp only [Option.elim, State.pin]
            split <;> rfl
      rw [counts]
      cases r <;> rfl
  | sign account typedData =>
      rw [sign_effect]
      cases r <;> rfl
  | control c =>
      rw [(control_effect w s c).1]
      rfl

theorem pinned_effect (w : SoftwareWallet) (s : State) {t : Touch}
    (stays : t.request? ≠ some .closing) :
    (t.effect w s).pinned = (t.pins? s).elim s.pinned fun path => (s.pin path).pinned := by
  cases t with
  | openChannel passphrase =>
      obtain ⟨isOpen, opened⟩ := openChannel_effect w s passphrase
      rw [opened]
      rfl
  | closeChannel => exact absurd rfl stays
  | derive path pin =>
      rw [derive_effect]
      cases (derive path pin).pins? s with
      | none => rfl
      | some path =>
          simp only [Option.elim, State.pin]
          split <;> rfl
  | sign account typedData =>
      rw [sign_effect]
      rfl
  | control c => exact (control_effect w s c).2

theorem pinnedSinceClosed_concat (log : List (State × Touch)) (entry : State × Touch) :
    pinnedSinceClosed (log ++ [entry]) =
      if entry.2.request? = some .closing then []
      else pinnedSinceClosed log ++ (entry.2.pins? entry.1).toList := by
  unfold pinnedSinceClosed
  rw [List.rtakeWhile_concat]
  by_cases closes : entry.2.request? = some .closing
  · rw [if_pos closes, if_neg (by rwa [decide_eq_true_iff, not_not]), List.filterMap_nil]
  · rw [if_neg closes, if_pos (decide_eq_true closes), List.filterMap_append,
      List.filterMap_cons, List.filterMap_nil]
    cases entry.2.pins? entry.1 <;> rfl

/-- What a history makes of a new wallet. -/
abbrev after (w : SoftwareWallet) (ts : List Touch) : State :=
  ts.foldl (effect w) .fresh

/-- A state tells of a history what was asked for, and what was pinned. -/
structure Tells (w : SoftwareWallet) (ts : List Touch) (s : State) : Prop where
  counts : ∀ r, s.counts.of r = (ts.map request?).count (some r)
  closed : s.unplugged = true → s.isOpen = false
  distinct : s.pinned.Nodup
  pinned : s.pinned = (pinnedSinceClosed (found w .fresh ts)).eraseDups

theorem after_concat (w : SoftwareWallet) (ts : List Touch) (t : Touch) :
    after w (ts ++ [t]) = t.effect w (after w ts) :=
  List.foldl_concat _ _ _ _

theorem pinned_after (w : SoftwareWallet) (ts : List Touch) :
    (after w ts).pinned = (pinnedSinceClosed (found w .fresh ts)).eraseDups := by
  induction ts using List.reverseRecOn with
  | nil => rfl
  | append_singleton ts t ih =>
      rw [found_concat, pinnedSinceClosed_concat, after_concat]
      by_cases closes : t.request? = some .closing
      · cases t with
        | closeChannel => rfl
        | _ => cases closes
      · rw [if_neg closes, pinned_effect w _ closes]
        cases t.pins? (after w ts) with
        | none =>
            rw [Option.toList_none, List.append_nil]
            exact ih
        | some path =>
            -- The state and the history agree on which paths are pinned for the first time.
            have held : path ∈ (after w ts).pinned ↔
                path ∈ pinnedSinceClosed (found w .fresh ts) := by
              rw [ih, List.mem_eraseDups]
            rw [Option.toList_some, eraseDups_concat, ← ih]
            simp only [Option.elim, State.pin, held]
            split <;> rfl

theorem tells_after (w : SoftwareWallet) (ts : List Touch) : Tells w ts (after w ts) where
  counts r := by
    induction ts using List.reverseRecOn with
    | nil => cases r <;> rfl
    | append_singleton ts t ih =>
        rw [after_concat, counts_effect, ih, List.map_append, List.count_append, List.map_singleton,
          List.count_singleton]
        simp only [beq_iff_eq]
  closed := by
    induction ts using List.reverseRecOn with
    | nil => exact nofun
    | append_singleton ts t ih =>
        rw [after_concat]
        exact SoftwareWallet.State.Sealed.touch ih w t
  distinct := pinned_after w ts ▸ nodup_eraseDups _
  pinned := pinned_after w ts

end Touch

/-- Typed data that cannot be hashed are never blamed on the wallet. -/
theorem TypedData.hashStruct_ne_walletClosed (td : TypedData) (name : String) (value : Json) :
    td.hashStruct name value ≠ .error .walletClosed := by
  intro failed
  by_cases defined : td.types.contains name = true ∨ name = domainType
  · cases refusal_of_hashStruct defined failed
  · obtain ⟨unknown, other⟩ := not_or.mp defined
    cases (hashStruct_undefined (Bool.eq_false_iff.mpr unknown) other).symm.trans failed

theorem TypedData.signingHash_ne_walletClosed (td : TypedData) :
    td.signingHash ≠ .error .walletClosed := by
  unfold signingHash
  cases domain : td.domainSeparator with
  | error e =>
      rintro ⟨⟩
      exact hashStruct_ne_walletClosed td _ _ domain
  | ok separator =>
      cases message : td.messageHash with
      | error e =>
          rintro ⟨⟩
          exact hashStruct_ne_walletClosed td _ _ message
      | ok hash => exact nofun

namespace SoftwareWallet

theorem keyAt_ne_walletClosed (w : SoftwareWallet) (path : Path) :
    w.keyAt path ≠ .error .walletClosed := by
  unfold keyAt
  split <;> exact nofun

theorem accountAt_ne_walletClosed (w : SoftwareWallet) (path : Path) :
    w.accountAt path ≠ .error .walletClosed := by
  unfold accountAt
  cases keyed : w.keyAt path with
  | error e =>
      rintro ⟨⟩
      exact w.keyAt_ne_walletClosed path keyed
  | ok key => exact nofun

theorem signature_ne_walletClosed (w : SoftwareWallet) (account : Account) (typedData : TypedData) :
    w.signature account typedData ≠ .error .walletClosed := by
  unfold signature
  cases keyed : w.keyAt account.path with
  | error e =>
      rintro ⟨⟩
      exact w.keyAt_ne_walletClosed account.path keyed
  | ok key =>
      dsimp only
      split
      · exact nofun
      · cases hashed : typedData.signingHash with
        | error e =>
            rintro ⟨⟩
            exact typedData.signingHash_ne_walletClosed hashed
        | ok digest =>
            dsimp only
            cases Ecdsa.sign key digest <;> exact nofun

theorem derive_closed_iff {w : SoftwareWallet} {s : State} {path : Path} {pin : Bool} :
    (derive path pin (w, s)).1 = .error .walletClosed ↔ s.isOpen = false := by
  simp only [derive]
  cases s.isOpen with
  | false => exact iff_of_true rfl rfl
  | true =>
      have opened : true ≠ false := by decide
      cases s.failDerive with
      | true => exact iff_of_false (by rintro ⟨⟩) opened
      | false => exact iff_of_false (w.accountAt_ne_walletClosed path) opened

theorem sign_closed_iff {w : SoftwareWallet} {s : State} {account : Account}
    {typedData : TypedData} :
    (sign account typedData (w, s)).1 = .error .walletClosed ↔ s.isOpen = false := by
  simp only [sign]
  cases s.isOpen with
  | false => exact iff_of_true rfl rfl
  | true =>
      have opened : true ≠ false := by decide
      cases s.failSign with
      | true => exact iff_of_false (by rintro ⟨⟩) opened
      | false => exact iff_of_false (w.signature_ne_walletClosed account typedData) opened

end SoftwareWallet

end HardwareSigner
