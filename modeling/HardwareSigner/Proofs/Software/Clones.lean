import HardwareSigner.Proofs.Software.History
/-!
Several handles on wallets in software.  Handles that are copies of each other act on one wallet; a
copy under another label is a handle on a wallet of its own.
-/

namespace HardwareSigner
open SoftwareWallet (State)

/-- What a touch through a handle leaves of the handle and of the bench. -/
def Touch.through (r : Handle × Bench) : Touch → Handle × Bench
  | openChannel passphrase => (Bench.host.openChannel passphrase r).2
  | closeChannel => (Bench.host.closeChannel r).2
  | derive path pin => (Bench.host.derive path pin r).2
  | sign account typedData => (Bench.host.sign account typedData r).2
  | control c => (r.1, r.2.control r.1.station c)

theorem Bench.act_software {α : Type} {b : Bench} {i : Nat} {w : SoftwareWallet} {s : State}
    (here : b.stations[i]? = some (.software w s)) (software : Action (SoftwareWallet × State) α)
    (ledger : Action (Ledger × Script) α) :
    act software ledger (.software i w, b) =
      ((software (w, s)).1, (.software i (software (w, s)).2.1,
        { b with stations := b.stations.set i (.software w (software (w, s)).2.2) })) := by
  simp only [act, Handle.station, here]

theorem Touch.through_software {b : Bench} {i : Nat} {w : SoftwareWallet} {s : State}
    (here : b.stations[i]? = some (.software w s)) (t : Touch) :
    t.through (.software i w, b) =
      (.software i w, { b with stations := b.stations.set i (.software w (t.effect w s)) }) := by
  have act {α : Type} {software : Action (SoftwareWallet × State) α}
      {ledger : Action (Ledger × Script) α} (same : (software (w, s)).2.1 = w) :
      (Bench.act software ledger (.software i w, b)).2 = (.software i w,
        { b with stations := b.stations.set i (.software w (software (w, s)).2.2) }) := by
    rw [Bench.act_software here, same]
  cases t with
  | openChannel passphrase => exact act (SoftwareWallet.openChannel_wallet w s)
  | closeChannel => exact act rfl
  | derive path pin => exact act (SoftwareWallet.derive_wallet path pin w s)
  | sign account typedData => exact act (SoftwareWallet.sign_wallet account typedData w s)
  | control c =>
      have turned : (Station.software w s).control c = .software w (s.control c) := by
        cases c <;> rfl
      have modified : b.stations.modify i (·.control c) =
          b.stations.set i (.software w (s.control c)) := by
        rw [List.modify_eq_set_getElem?, here, Option.map_eq_map, Option.map_some,
          Option.getD_some, turned]
      exact congrArg (fun stations => (Handle.software i w, { b with stations })) modified

/-- Handles on the wallets of a bench. -/
structure Rack where
  handles : List Handle
  bench : Bench

inductive Move where
  | clone (handle : Nat)
  | relabel (handle : Nat) (label : String)
  | touch (handle : Nat) (t : Touch)

namespace Rack

/-- A new wallet and one handle on it. -/
def start (w : SoftwareWallet) : Rack :=
  ⟨[.software 0 w], .start [.softwareOf w] (.listing [0])⟩

/-- Nothing comes of a move with a handle that does not exist. -/
def step (r : Rack) : Move → Rack
  | .clone k =>
    match r.handles[k]? with
    | some h => { r with handles := r.handles ++ [h] }
    | none => r
  | .relabel k label =>
    match r.handles[k]? with
    | some (.software _ w) =>
      let (h, b) := r.bench.add (.softwareOf (w.withLabel label))
      ⟨r.handles ++ [h], b⟩
    | _ => r
  | .touch k t =>
    match r.handles[k]? with
    | some h =>
      let (h, b) := t.through (h, r.bench)
      ⟨r.handles.set k h, b⟩
    | none => r

def run (r : Rack) (moves : List Move) : Rack :=
  moves.foldl step r

def station? (r : Rack) (i : Nat) : Option Station :=
  r.bench.stations[i]?

/-- The touch that a move brings to a station. -/
def touch? (r : Rack) (i : Nat) : Move → Option Touch
  | .touch k t => if r.handles[k]?.map Handle.station = some i then some t else none
  | _ => none

/-- All that a run brings to a station, in order. -/
def touches (i : Nat) : Rack → List Move → List Touch
  | _, [] => []
  | r, move :: moves => (r.touch? i move).toList ++ touches i (r.step move) moves

theorem run_concat (r : Rack) (moves : List Move) (move : Move) :
    r.run (moves ++ [move]) = (r.run moves).step move :=
  List.foldl_concat _ _ _ _

theorem touches_concat (r : Rack) (i : Nat) (moves : List Move) (move : Move) :
    touches i r (moves ++ [move]) = touches i r moves ++ ((r.run moves).touch? i move).toList := by
  induction moves generalizing r with
  | nil => exact List.append_nil _
  | cons first moves ih =>
      rw [List.cons_append, touches, touches, ih, List.append_assoc]
      rfl

/-- Handles are on wallets of the bench, whose states are what was done to them. -/
structure Kept (r : Rack) (done : Nat → List Touch) : Prop where
  handles : ∀ h ∈ r.handles, ∃ i w s, h = .software i w ∧ r.station? i = some (.software w s)
  stations : ∀ i station, r.station? i = some station →
    ∃ w, station = .software w (Touch.after w (done i))
  later : ∀ i, r.station? i = none → done i = []

theorem kept_start (w : SoftwareWallet) : (start w).Kept fun _ => [] where
  handles h held := by
    cases List.mem_singleton.mp held
    exact ⟨0, w, _, rfl, rfl⟩
  stations i station here := by
    cases i with
    | zero =>
        cases here
        exact ⟨w, rfl⟩
    | succ i => cases here
  later _ _ := rfl

theorem step_clone {r : Rack} {k : Nat} {h : Handle} (held : r.handles[k]? = some h) :
    r.step (.clone k) = { r with handles := r.handles ++ [h] } := by
  simp only [Rack.step, held]

theorem step_relabel {r : Rack} {k i : Nat} {w : SoftwareWallet}
    (held : r.handles[k]? = some (.software i w)) (label : String) :
    r.step (.relabel k label) =
      ⟨r.handles ++ [.software r.bench.stations.length (w.withLabel label)],
        { r.bench with
          stations := r.bench.stations ++ [.software (w.withLabel label) .fresh] }⟩ := by
  simp only [Rack.step, held]
  rfl

def put (r : Rack) (i : Nat) (station : Station) : Rack :=
  { r with bench.stations := r.bench.stations.set i station }

theorem step_touch {r : Rack} {k i : Nat} {w : SoftwareWallet} {s : State}
    (held : r.handles[k]? = some (.software i w)) (here : r.station? i = some (.software w s))
    (t : Touch) : r.step (.touch k t) = r.put i (.software w (t.effect w s)) := by
  obtain ⟨inside, own⟩ := List.getElem?_eq_some_iff.mp held
  have same : r.handles.set k (.software i w) = r.handles := by
    rw [← own, List.set_getElem_self]
  simp only [Rack.step, held, Touch.through_software here, same, put]

theorem lt_of_station? {r : Rack} {i : Nat} {station : Station}
    (here : r.station? i = some station) : i < r.bench.stations.length :=
  (List.getElem?_eq_some_iff.mp here).1

theorem station?_put {r : Rack} {j : Nat} {old : Station} (there : r.station? j = some old)
    (station : Station) (i : Nat) :
    (r.put j station).station? i = if j = i then some station else r.station? i := by
  rw [put, station?, List.getElem?_set, if_pos (lt_of_station? there)]
  rfl

theorem touch?_of_held {r : Rack} {k j : Nat} {w : SoftwareWallet}
    (held : r.handles[k]? = some (.software j w)) (i : Nat) (t : Touch) :
    r.touch? i (.touch k t) = if j = i then some t else none := by
  simp only [touch?, held, Option.map_some, Handle.station, Option.some_inj]

/-- All that a move can do on a rack whose handles are on its wallets. -/
inductive Moved (r : Rack) : Move → Rack → Prop where
  | idle {move : Move} : (∀ i, r.touch? i move = none) → Moved r move r
  | clone {k : Nat} {h : Handle} : h ∈ r.handles →
      Moved r (.clone k) { r with handles := r.handles ++ [h] }
  | relabel {k : Nat} {label : String} (w : SoftwareWallet) : Moved r (.relabel k label)
      ⟨r.handles ++ [.software r.bench.stations.length w],
        { r.bench with stations := r.bench.stations ++ [.software w .fresh] }⟩
  | touch {k j : Nat} {w : SoftwareWallet} {s : State} {t : Touch} :
      r.handles[k]? = some (.software j w) → r.station? j = some (.software w s) →
      Moved r (.touch k t) (r.put j (.software w (t.effect w s)))

section
variable {r : Rack} {done : Nat → List Touch}

theorem Kept.moved (kept : r.Kept done) (move : Move) : r.Moved move (r.step move) := by
  cases move with
  | clone k =>
      cases held : r.handles[k]? with
      | none =>
          simp only [Rack.step, held]
          exact .idle fun _ => rfl
      | some h =>
          rw [step_clone held]
          exact .clone (List.mem_of_getElem? held)
  | relabel k label =>
      cases held : r.handles[k]? with
      | none =>
          simp only [Rack.step, held]
          exact .idle fun _ => rfl
      | some h =>
          obtain ⟨j, w, s, rfl, -⟩ := kept.handles h (List.mem_of_getElem? held)
          rw [step_relabel held]
          exact .relabel (w.withLabel label)
  | touch k t =>
      cases held : r.handles[k]? with
      | none =>
          have nowhere (i : Nat) : r.touch? i (.touch k t) = none := by
            simp only [touch?, held, Option.map_none, reduceCtorEq, if_false]
          simp only [Rack.step, held]
          exact .idle nowhere
      | some h =>
          obtain ⟨j, w, s, rfl, there⟩ := kept.handles h (List.mem_of_getElem? held)
          rw [step_touch held there]
          exact .touch held there

theorem Kept.clone (kept : r.Kept done) {h : Handle} (held : h ∈ r.handles) :
    Kept { r with handles := r.handles ++ [h] } done := by
  refine ⟨?_, kept.stations, kept.later⟩
  intro h' held'
  rcases List.mem_append.mp held' with old | new
  · exact kept.handles h' old
  · cases List.mem_singleton.mp new
    exact kept.handles h held

theorem getElem?_concat_cases {α : Type} {l : List α} {a x : α} {i : Nat}
    (here : (l ++ [a])[i]? = some x) : l[i]? = some x ∨ l[i]? = none ∧ x = a := by
  by_cases inside : i < l.length
  · rw [List.getElem?_append_left inside] at here
    exact .inl here
  · have outside : l.length ≤ i := Nat.not_lt.mp inside
    rw [List.getElem?_append_right outside, List.getElem?_singleton] at here
    refine .inr ⟨List.getElem?_eq_none outside, ?_⟩
    split at here
    · exact (Option.some.inj here).symm
    · cases here

theorem Kept.relabel (kept : r.Kept done) (w : SoftwareWallet) :
    Kept ⟨r.handles ++ [.software r.bench.stations.length w],
      { r.bench with stations := r.bench.stations ++ [.software w .fresh] }⟩ done := by
  have old {i : Nat} {station : Station} (here : r.station? i = some station) :
      (r.bench.stations ++ [.software w .fresh])[i]? = some station := by
    rw [List.getElem?_append_left (lt_of_station? here)]
    exact here
  refine ⟨?_, ?_, ?_⟩
  · intro h held
    rcases List.mem_append.mp held with before | new
    · obtain ⟨i, w', s', rfl, here⟩ := kept.handles h before
      exact ⟨i, w', s', rfl, old here⟩
    · cases List.mem_singleton.mp new
      exact ⟨_, _, _, rfl, List.getElem?_concat_length⟩
  · intro i station here
    rcases getElem?_concat_cases here with there | ⟨there, rfl⟩
    · exact kept.stations i station there
    · rw [kept.later i there]
      exact ⟨_, rfl⟩
  · intro i gone
    apply kept.later
    cases there : r.station? i with
    | none => rfl
    | some station => cases gone.symm.trans (old there)

theorem Kept.touch (kept : r.Kept done) {j : Nat} {w : SoftwareWallet} {s : State}
    (there : r.station? j = some (.software w s)) (t : Touch) :
    (r.put j (.software w (t.effect w s))).Kept fun i =>
      done i ++ if j = i then [t] else [] := by
  have same : s = Touch.after w (done j) := by
    obtain ⟨w', same⟩ := kept.stations j _ there
    cases same
    rfl
  constructor
  · intro h held
    obtain ⟨i, w', s', rfl, here⟩ := kept.handles h held
    by_cases own : j = i
    · subst own
      cases there.symm.trans here
      exact ⟨j, w, _, rfl, by rw [station?_put there, if_pos rfl]⟩
    · exact ⟨i, w', s', rfl, by rw [station?_put there, if_neg own, here]⟩
  · intro i station here
    rw [station?_put there] at here
    by_cases own : j = i
    · subst own
      rw [if_pos rfl] at here ⊢
      cases here
      rw [same, ← Touch.after_concat]
      exact ⟨w, rfl⟩
    · rw [if_neg own] at here ⊢
      rw [List.append_nil]
      exact kept.stations i station here
  · intro i gone
    rw [station?_put there] at gone
    by_cases own : j = i
    · rw [if_pos own] at gone
      cases gone
    · rw [if_neg own] at gone ⊢
      rw [List.append_nil]
      exact kept.later i gone

theorem Kept.step (kept : r.Kept done) (move : Move) :
    (r.step move).Kept fun i => done i ++ (r.touch? i move).toList := by
  have moved := kept.moved move
  generalize r.step move = r' at moved ⊢
  cases moved with
  | idle nowhere =>
      simp only [nowhere, Option.toList_none, List.append_nil]
      exact kept
  | clone held =>
      simp only [touch?, Option.toList_none, List.append_nil]
      exact kept.clone held
  | relabel w =>
      simp only [touch?, Option.toList_none, List.append_nil]
      exact kept.relabel w
  | @touch k j w s t held there =>
      have brought (i : Nat) :
          (r.touch? i (.touch k t)).toList = if j = i then [t] else [] := by
        rw [touch?_of_held held]
        split <;> rfl
      simp only [brought]
      exact kept.touch there t

end

/-- The wallets on a rack are where the touches have led that went to them. -/
theorem kept_run (w : SoftwareWallet) (moves : List Move) :
    ((start w).run moves).Kept fun i => touches i (start w) moves := by
  induction moves using List.reverseRecOn with
  | nil => exact kept_start w
  | append_singleton moves move ih =>
      simp only [run_concat, touches_concat]
      exact ih.step move

section
variable {r : Rack} {done : Nat → List Touch}

theorem Kept.station?_of_untouched (kept : r.Kept done) {i : Nat} {move : Move}
    (inside : i < r.bench.stations.length) (untouched : r.touch? i move = none) :
    (r.step move).station? i = r.station? i := by
  have moved := kept.moved move
  generalize r.step move = r' at moved ⊢
  cases moved with
  | idle => rfl
  | clone => rfl
  | relabel w => exact List.getElem?_append_left inside
  | touch held there =>
      rw [station?_put there]
      apply if_neg
      rintro rfl
      rw [touch?_of_held held, if_pos rfl] at untouched
      cases untouched

theorem Kept.wallet_stays (kept : r.Kept done) {i : Nat} {w : SoftwareWallet} {s : State}
    (here : r.station? i = some (.software w s)) (move : Move) :
    ∃ s', (r.step move).station? i = some (.software w s') := by
  have moved := kept.moved move
  generalize r.step move = r' at moved ⊢
  cases moved with
  | idle => exact ⟨s, here⟩
  | clone => exact ⟨s, here⟩
  | relabel w => exact ⟨s, (List.getElem?_append_left (lt_of_station? here)).trans here⟩
  | @touch _ j _ _ _ _ there =>
      rw [station?_put there]
      by_cases own : j = i
      · subst own
        cases there.symm.trans here
        exact ⟨_, if_pos rfl⟩
      · exact ⟨s, (if_neg own).trans here⟩

theorem Kept.handle_stays (kept : r.Kept done) {k : Nat} {h : Handle}
    (held : r.handles[k]? = some h) (move : Move) : (r.step move).handles[k]? = some h := by
  have longer (h' : Handle) : (r.handles ++ [h'])[k]? = some h :=
    (List.getElem?_append_left (List.getElem?_eq_some_iff.mp held).1).trans held
  have moved := kept.moved move
  generalize r.step move = r' at moved ⊢
  cases moved with
  | idle => exact held
  | clone => exact longer _
  | relabel w => exact longer _
  | touch => exact held

theorem Kept.handle_run (kept : r.Kept done) {k : Nat} {h : Handle}
    (held : r.handles[k]? = some h) (moves : List Move) :
    (r.run moves).handles[k]? = some h := by
  induction moves generalizing r done with
  | nil => exact held
  | cons move moves ih => exact ih (kept.step move) (kept.handle_stays held move)

theorem Kept.run_untouched (kept : r.Kept done) {i : Nat} {moves : List Move}
    (inside : i < r.bench.stations.length) (untouched : touches i r moves = []) :
    (r.run moves).station? i = r.station? i := by
  induction moves generalizing r done with
  | nil => rfl
  | cons move moves ih =>
      obtain ⟨first, rest⟩ := List.append_eq_nil_iff.mp untouched
      have same := kept.station?_of_untouched inside (Option.toList_eq_nil_iff.mp first)
      have inside' : i < (r.step move).bench.stations.length := by
        rw [station?, station?, List.getElem?_eq_getElem inside] at same
        exact (List.getElem?_eq_some_iff.mp same).1
      exact (ih (kept.step move) inside' rest).trans same

end

theorem station?_start (w : SoftwareWallet) (moves : List Move) :
    ∃ s, ((start w).run moves).station? 0 = some (.software w s) := by
  induction moves using List.reverseRecOn with
  | nil => exact ⟨_, rfl⟩
  | append_singleton moves move ih =>
      obtain ⟨s, here⟩ := ih
      rw [run_concat]
      exact (kept_run w moves).wallet_stays here move

/-- The wallets on a rack that was grown from one of them.  The state of each tells what was done
through its handles since it was new, in whichever order, and nothing else changes it; a handle is
told that the wallet is closed just while it is.  A copy under another label is on a new wallet. -/
theorem wallets_over_whole_runs (w : SoftwareWallet) (moves : List Move) :
    let rack := (start w).run moves
    (∃ s, rack.station? 0 = some (.software w s)) ∧
    (∀ i station, rack.station? i = some station → ∃ w' s, station = .software w' s ∧
      s = Touch.after w' (touches i (start w) moves) ∧
      Touch.Tells w' (touches i (start w) moves) s ∧
      ∀ h ∈ rack.handles, h.station = i →
        (∀ path pin, (Bench.host.derive path pin (h, rack.bench)).1 = .error .walletClosed ↔
          s.isOpen = false) ∧
        ∀ account typedData,
          (Bench.host.sign account typedData (h, rack.bench)).1 = .error .walletClosed ↔
            s.isOpen = false) ∧
    (∀ i more, i < rack.bench.stations.length → touches i rack more = [] →
      (rack.run more).station? i = rack.station? i) ∧
    (∀ (k : Nat) h more, rack.handles[k]? = some h → (rack.run more).handles[k]? = some h) ∧
    ∀ (k : Nat) i w' label, rack.handles[k]? = some (.software i w') →
      rack.step (.relabel k label) =
        ⟨rack.handles ++ [.software rack.bench.stations.length ⟨label, w'.master⟩],
          { rack.bench with
            stations := rack.bench.stations ++ [.software ⟨label, w'.master⟩ .fresh] }⟩ := by
  intro rack
  have kept := kept_run w moves
  refine ⟨station?_start w moves, ?_, fun i more => kept.run_untouched,
    fun k h more held => kept.handle_run held more, fun k i w' label held => step_relabel held label⟩
  intro i station here
  obtain ⟨w', rfl⟩ := kept.stations i station here
  refine ⟨w', _, rfl, rfl, Touch.tells_after w' _, ?_⟩
  intro h held bound
  -- A handle on this station is a handle on this very wallet.
  obtain ⟨j, w'', s, rfl, there⟩ := kept.handles h held
  cases bound
  cases there.symm.trans here
  constructor
  · intro path pin
    have told : Bench.host.derive path pin (.software j w', rack.bench) = _ :=
      Bench.act_software here _ _
    rw [told]
    exact SoftwareWallet.derive_closed_iff
  · intro account typedData
    have told : Bench.host.sign account typedData (.software j w', rack.bench) = _ :=
      Bench.act_software here _ _
    rw [told]
    exact SoftwareWallet.sign_closed_iff

/-- Two handles on one wallet and one on a spare: what the spare is asked for is not counted, and
what was pinned stays pinned while the wallet is unplugged. -/
theorem wallets_over_whole_runs_after_unplug :
    let w : SoftwareWallet := ⟨"memory", ⟨⟨1, by decide, by decide⟩, .padRight []⟩⟩
    let pin (k : Nat) (index : UInt32) : Move := .touch k (.derive (.ethereum index) true)
    let moves : List Move := [pin 0 7, .touch 0 (.openChannel ""), .clone 0, pin 1 3, pin 0 5,
      pin 1 3, .relabel 1 "spare", .touch 2 (.openChannel ""), .touch 2 .closeChannel,
      .touch 1 (.control .unplug), pin 0 9]
    ∃ s, ((start w).run moves).station? 0 = some (.software w s) ∧
      s.isOpen = false ∧ s.pinned = [.ethereum 3, .ethereum 5] ∧ s.counts = ⟨1, 0, 5, 0⟩ ∧
      (Bench.host.derive (.ethereum 3) true (.software 0 w, ((start w).run moves).bench)).1 =
        .error .walletClosed := by
  intro w pin moves
  obtain ⟨⟨s, here⟩, tells, -⟩ := wallets_over_whole_runs w moves
  obtain ⟨w', s', same, after, told, closed⟩ := tells 0 _ here
  obtain ⟨wallet, state⟩ := Station.software.inj same
  rw [← wallet] at after told
  rw [← state] at after told closed
  have shut : s.isOpen = false := told.closed (by rw [after]; decide +kernel)
  have pinned : s.pinned = [.ethereum 3, .ethereum 5] := told.pinned.trans (by decide +kernel)
  have counts : s.counts = ⟨1, 0, 5, 0⟩ := by
    rw [after]
    decide +kernel
  have held := (kept_start w).handle_run (List.getElem?_cons_zero) moves
  exact ⟨s, here, shut, pinned, counts,
    ((closed _ (List.mem_of_getElem? held) rfl).1 _ true).mpr shut⟩

end Rack

end HardwareSigner
