import HardwareSigner.Proofs.Bytes
import HardwareSigner.Proofs.Ledger.Pins
import HardwareSigner.Proofs.Text.Utf8
/-!
Keys that a Ledger tells.  An account comes out of a derivation if and only if the answer is a
success and holds a point of the curve together with that point's own address.  Nothing else that a
device may send is taken for one, and what is not taken leaves the driver as it was.
-/

namespace HardwareSigner
variable {τ : Type}

/-- The numbers are the coordinates of a point of the curve `y² = x³ + 7`. -/
theorem Secp256k1.Point.onCurve_iff {q : Secp256k1.Point} :
    q.onCurve = true ↔ q.x < prime ∧ q.y < prime ∧ q.y ^ 2 % prime = (q.x ^ 3 + 7) % prime := by
  have cube : (q.x * q.x % prime * q.x + 7) % prime = (q.x ^ 3 + 7) % prime := by
    rw [Nat.pow_succ, Nat.pow_two, Nat.add_mod, Nat.mul_mod, Nat.mod_mod, ← Nat.mul_mod,
      ← Nat.add_mod]
  simp only [onCurve, cube, Bool.and_eq_true, decide_eq_true_eq, beq_iff_eq, and_assoc, Nat.pow_two]

theorem Address.eq_ofPublicKey_iff {address : Address} {key : PublicKey} :
    address = .ofPublicKey key ↔ address.bytes =
      (Keccak.hash (Bytes.ofNat 32 key.point.x ++ Bytes.ofNat 32 key.point.y)).bytes.drop 12 := by
  obtain ⟨bytes, size⟩ := address
  exact Iff.of_eq (mk.injEq ..)

namespace PublicKey

/-- Sixty-five bytes are a key if they are the uncompressed form of a point on the curve. -/
theorem ofBytes?_uncompressed_iff {bs : Bytes} (size : bs.length = 65) {key : PublicKey} :
    ofBytes? bs = some key ↔ bs = key.uncompressed ∧ key.point.onCurve = true := by
  obtain ⟨mark, body, rfl⟩ := List.exists_cons_of_length_eq_add_one size
  have whole : body.length = 64 := Nat.succ.inj size
  have noCompressed : body.length ≠ 32 := by omega
  rw [ofBytes?, uncompressed]
  constructor
  · intro read
    split at read
    · rename_i marked
      simp only at read
      split at read
      · rename_i on
        cases read
        refine ⟨?_, on⟩
        rw [Bytes.ofNat_toNat (by rw [List.length_take]; omega),
          Bytes.ofNat_toNat (by rw [List.length_drop]; omega), List.take_append_drop, marked.1]
      · cases read
    · rw [if_neg fun compressed => noCompressed compressed.2] at read
      cases read
  · rintro ⟨same, on⟩
    obtain ⟨rfl, rfl⟩ := List.cons.inj same
    obtain ⟨xBound, yBound, -⟩ := Secp256k1.Point.onCurve_iff.mp on
    have fits {n : Nat} (small : n < Secp256k1.prime) : n % 256 ^ 32 = n :=
      Nat.mod_eq_of_lt (Nat.lt_trans small (by decide))
    have left : (Bytes.ofNat 32 key.point.x).length = 32 := Bytes.length_ofNat _ _
    simp only [whole, and_self, if_true, List.take_left' left, List.drop_left' left,
      Bytes.toNat_ofNat, fits xBound, fits yBound, on]

end PublicKey

namespace Ledger
open Apdu (Command Response)

/-- The version is known and the link stands. -/
def IsOpen (t : Transport τ) (l : Ledger) (s : τ) : Prop :=
  t.isConnected s = true ∧ ∃ v, l.version = some v

/-- As many components as the app takes. -/
def Askable (path : Path) : Prop :=
  1 ≤ path.indices.length ∧ path.indices.length ≤ 10

/-- A point of the curve behind the length of a key, and behind another length a text that is read
as an address.  More may follow. -/
def Tells (payload : Bytes) (point : Secp256k1.Point) (address : Address) : Prop :=
  point.x < Secp256k1.prime ∧ point.y < Secp256k1.prime ∧
  point.y ^ 2 % Secp256k1.prime = (point.x ^ 3 + 7) % Secp256k1.prime ∧
  ∃ (text : String) (size : UInt8) (rest : Bytes),
    payload = 65 :: 0x04 :: (Bytes.ofNat 32 point.x ++ Bytes.ofNat 32 point.y ++
      size :: (Bytes.ofString text ++ rest)) ∧
    (Bytes.ofString text).length = size.toNat ∧ Address.ofHex text = .ok address

theorem splitKeyReply?_eq_some_iff {payload keyBytes text : Bytes} :
    splitKeyReply? payload = some (keyBytes, text) ↔
      keyBytes.length = 65 ∧ ∃ (size : UInt8) (rest : Bytes),
        payload = 65 :: (keyBytes ++ size :: (text ++ rest)) ∧ text.length = size.toNat := by
  constructor
  · intro split
    unfold splitKeyReply? at split
    split at split
    · cases split
    rename_i keySize behind
    split at split
    · cases split
    rename_i whole
    obtain ⟨known, long⟩ := not_or.mp whole
    split at split
    · cases split
    rename_i size rest later
    split at split
    · cases split
    cases split
    refine ⟨by rw [List.length_take]; omega, size, rest.drop size.toNat, ?_,
      by rw [List.length_take]; omega⟩
    have first : keySize = 65 := UInt8.toNat_inj.mp (not_not.mp known)
    rw [List.take_append_drop, ← later, List.take_append_drop, first]
  · rintro ⟨whole, size, rest, rfl, fits⟩
    have long : ¬ (keyBytes ++ size :: (text ++ rest)).length < 65 := by
      rw [List.length_append]
      omega
    have enough : ¬ (text ++ rest).length < size.toNat := by
      rw [List.length_append]
      omega
    have known : ¬ ((65 : UInt8).toNat ≠ 65 ∨ (keyBytes ++ size :: (text ++ rest)).length < 65) :=
      not_or.mpr ⟨not_not.mpr rfl, long⟩
    rw [splitKeyReply?, if_neg known, List.drop_left' whole]
    simp only [if_neg enough, List.take_left' whole, List.take_left' fits]

/-- A reply is taken for the key and the text that stand in it, or not at all. -/
theorem keyOfReply_ok_iff {payload : Bytes} {key : PublicKey} {address : Address} :
    keyOfReply payload = .ok (key, address) ↔ ∃ keyBytes text,
      splitKeyReply? payload = some (keyBytes, Bytes.ofString text) ∧
        PublicKey.ofBytes? keyBytes = some key ∧ Address.ofHex text = .ok address := by
  constructor
  · intro read
    unfold keyOfReply at read
    split at read
    · cases read
    rename_i keyBytes addressBytes split_
    split at read
    · cases read
    rename_i text decoded
    split at read
    · cases read
    rename_i key' known
    split at read
    · rename_i address' read'
      cases read
      obtain rfl := Bytes.toString?_eq_some_iff.mp decoded
      exact ⟨keyBytes, text, split_, known, read'⟩
    · cases read
  · rintro ⟨keyBytes, text, split_, known, read⟩
    rw [keyOfReply]
    simp only [split_, Bytes.toString?_ofString, known, read]

theorem keyOfReply_ok_iff_tells {payload : Bytes} {key : PublicKey} {address : Address} :
    keyOfReply payload = .ok (key, address) ↔ Tells payload key.point address := by
  rw [keyOfReply_ok_iff]
  constructor
  · rintro ⟨keyBytes, text, split_, known, read⟩
    obtain ⟨whole, size, rest, rfl, fits⟩ := splitKeyReply?_eq_some_iff.mp split_
    obtain ⟨rfl, on⟩ := (PublicKey.ofBytes?_uncompressed_iff whole).mp known
    obtain ⟨xBound, yBound, equation⟩ := Secp256k1.Point.onCurve_iff.mp on
    exact ⟨xBound, yBound, equation, text, size, rest, rfl, fits, read⟩
  · rintro ⟨xBound, yBound, equation, text, size, rest, rfl, fits, read⟩
    have on := Secp256k1.Point.onCurve_iff.mpr ⟨xBound, yBound, equation⟩
    have whole : key.uncompressed.length = 65 := by
      rw [PublicKey.uncompressed, List.length_cons, List.length_append, Bytes.length_ofNat,
        Bytes.length_ofNat]
    exact ⟨key.uncompressed, text, splitKeyReply?_eq_some_iff.mpr ⟨whole, size, rest, rfl, fits⟩,
      (PublicKey.ofBytes?_uncompressed_iff whole).mpr ⟨rfl, on⟩, read⟩

theorem accountOfReply_ok_iff {path : Path} {payload : Bytes} {account : Account} :
    accountOfReply path payload = .ok account ↔ ∃ key address, Tells payload key.point address ∧
      address = .ofPublicKey key ∧ account = ⟨key, address, path⟩ := by
  simp only [← keyOfReply_ok_iff_tells]
  constructor
  · intro read
    unfold accountOfReply at read
    split at read
    · cases read
    rename_i key reported found
    simp only at read
    split at read
    · rename_i own
      cases read
      exact ⟨key, reported, found, own.symm, congrArg (Account.mk key · path) own⟩
    · cases read
  · rintro ⟨key, address, found, rfl, rfl⟩
    rw [accountOfReply, found]
    exact if_pos rfl

theorem length_components (indices : List UInt32) :
    (indices.flatMap fun i => Bytes.ofNat 4 i.toNat).length = 4 * indices.length := by
  induction indices with
  | nil => rfl
  | cons i rest ih =>
      rw [List.flatMap_cons, List.length_append, Bytes.length_ofNat, ih, List.length_cons]
      omega

theorem encodePath_of_askable {path : Path} (askable : Askable path) :
    encodePath path = .ok (UInt8.ofNat path.indices.length ::
      path.indices.flatMap fun i => Bytes.ofNat 4 i.toNat) := by
  rw [encodePath, if_neg]
  rintro (none | long)
  · have empty : path.indices = [] := List.isEmpty_iff.mp none
    have some := askable.1
    rw [empty] at some
    cases some
  · exact absurd askable.2 (Nat.not_le.mpr long)

theorem encodePath_of_not_askable {path : Path} (other : ¬ Askable path) :
    ∃ e, encodePath path = .error e := by
  refine ⟨_, if_pos ?_⟩
  by_cases none : path.indices = []
  · exact .inl (List.isEmpty_iff.mpr none)
  · refine .inr (Nat.lt_of_not_le fun short => other ⟨?_, short⟩)
    exact List.length_pos_iff.mpr none

/-- For a path that the app takes there is a command, with the path as its data. -/
theorem publicKeyCommand_of_askable {path : Path} (askable : Askable path) :
    ∃ c data, publicKeyCommand path = .ok c ∧ encodePath path = .ok data ∧
      c.bytes = [0xE0, 0x02, 0x00, 0x00, UInt8.ofNat data.length] ++ data := by
  have size : (UInt8.ofNat path.indices.length ::
      path.indices.flatMap fun i => Bytes.ofNat 4 i.toNat).length ≤ Apdu.maxData := by
    have short := askable.2
    rw [List.length_cons, length_components, Apdu.maxData]
    omega
  rw [publicKeyCommand, encodePath_of_askable askable]
  simp only [command, Command.ethereum, Command.make, dif_pos size]
  exact ⟨_, _, rfl, rfl, rfl⟩

theorem askable_of_publicKeyCommand {path : Path} {c : Command}
    (made : publicKeyCommand path = .ok c) : Askable path := by
  by_contra other
  obtain ⟨e, refused⟩ := encodePath_of_not_askable other
  rw [publicKeyCommand, refused] at made
  cases made

theorem lookup_filter_ne {α β : Type} [DecidableEq α] (entries : List (α × β)) {a b : α}
    (other : b ≠ a) : (entries.filter (·.1 ≠ a)).lookup b = entries.lookup b := by
  induction entries with
  | nil => rfl
  | cons entry rest ih =>
      obtain ⟨key, value⟩ := entry
      by_cases here : key = a
      · subst here
        simp only [List.filter_cons, ne_eq, not_true_eq_false, decide_false, Bool.false_eq_true,
          if_false, List.lookup_cons, beq_false_of_ne other, ih]
      · simp only [List.filter_cons, ne_eq, here, not_false_eq_true, decide_true, if_true,
          List.lookup_cons, ih]

/-- What is pinned for an address takes the place of an earlier path, and nothing else changes. -/
theorem lookup_pinPath (l : Ledger) (address : Address) (path : Path) (other : Address) :
    (l.pinPath address path).pinned.lookup other =
      if other = address then some path else l.pinned.lookup other := by
  by_cases here : other = address
  · subst here
    rw [if_pos rfl]
    exact List.lookup_cons_self
  · rw [if_neg here, pinPath, List.lookup_cons, beq_false_of_ne here]
    exact lookup_filter_ne l.pinned here

theorem checked_ok_iff {response : Response} {payload : Bytes} :
    response.checked = .ok payload ↔ response.statusWord = 0x9000 ∧ response.data = payload := by
  rw [Response.checked, Response.isSuccess]
  by_cases success : response.statusWord = Response.success
  · rw [if_pos (beq_iff_eq.mpr success)]
    constructor
    · rintro ⟨⟩
      exact ⟨success, rfl⟩
    · rintro ⟨-, rfl⟩
      rfl
  · rw [if_neg fun same => success (beq_iff_eq.mp same)]
    exact iff_of_false nofun fun both => success both.1

section
variable {t : Transport τ}

theorem isOpen_iff {l : Ledger} {s : τ} : IsOpen t l s ↔ ∃ v, openVersion? t l s = some v := by
  rw [IsOpen, openVersion?]
  by_cases up : t.isConnected s = true
  · rw [if_pos up]
    exact and_iff_right up
  · rw [if_neg up]
    exact iff_of_false (fun both => up both.1) nofun

theorem bind_checked_ok_iff {answer : Except Error Response} {payload : Bytes} :
    answer.bind Response.checked = .ok payload ↔
      ∃ response, answer = .ok response ∧ response.statusWord = 0x9000 ∧
        response.data = payload := by
  cases answer with
  | error e => exact iff_of_false nofun nofun
  | ok response =>
      constructor
      · intro read
        exact ⟨response, rfl, checked_ok_iff.mp read⟩
      · rintro ⟨_, ⟨⟩, read⟩
        exact checked_ok_iff.mpr read

/-- An account is read out of an answer just when it is a success whose payload tells a key. -/
theorem account_of_answer_iff {answer : Except Error Response} {path : Path} {account : Account} :
    (answer.bind Response.checked).bind (accountOfReply path) = .ok account ↔
      ∃ response key address, answer = .ok response ∧ response.statusWord = 0x9000 ∧
        Tells response.data key.point address ∧ address = .ofPublicKey key ∧
        account = ⟨key, address, path⟩ := by
  constructor
  · intro read
    cases payload : answer.bind Response.checked with
    | error e =>
        rw [payload] at read
        cases read
    | ok reply =>
        rw [payload] at read
        obtain ⟨response, answered, success, rfl⟩ := bind_checked_ok_iff.mp payload
        obtain ⟨key, address, told⟩ := accountOfReply_ok_iff.mp read
        exact ⟨response, key, address, answered, success, told⟩
  · rintro ⟨response, key, address, answered, success, told⟩
    rw [bind_checked_ok_iff.mpr ⟨response, answered, success, rfl⟩]
    exact accountOfReply_ok_iff.mpr ⟨key, address, told⟩

/-- Asking a wallet that is closed, or for a path that the app does not take, sends nothing. -/
theorem derive_of_unready {path : Path} (pin : Bool) {l : Ledger} {s : τ}
    (unready : ¬ (IsOpen t l s ∧ Askable path)) :
    ∃ e, derive t path pin (l, s) = (.error e, (l, s)) := by
  have call := derive_call t path pin l s
  generalize derive t path pin (l, s) = r at call ⊢
  cases call with
  | closed _ => exact ⟨_, rfl⟩
  | unmade _ _ => exact ⟨_, rfl⟩
  | unanswered known made _ =>
      exact absurd ⟨isOpen_iff.mpr ⟨_, known⟩, askable_of_publicKeyCommand made⟩ unready
  | malformed known made _ _ =>
      exact absurd ⟨isOpen_iff.mpr ⟨_, known⟩, askable_of_publicKeyCommand made⟩ unready
  | derived known made _ _ =>
      exact absurd ⟨isOpen_iff.mpr ⟨_, known⟩, askable_of_publicKeyCommand made⟩ unready

/-- What an open wallet makes of a path that the app takes: one command, and the account in its
answer. -/
theorem derive_of_ready {path : Path} (pin : Bool) {l : Ledger} {s : τ} {c : Command}
    (isOpen : IsOpen t l s) (made : publicKeyCommand path = .ok c) :
    let read := (t.send c s).1.bind (accountOfReply path)
    derive t path pin (l, s) = (read, (match read with
      | .ok account => if pin then l.pinPath account.address path else l
      | .error _ => l, (t.send c s).2)) := by
  obtain ⟨v, known⟩ := isOpen_iff.mp isOpen
  simp only [derive, known, made]
  rcases t.send c s with ⟨e | reply, s'⟩
  · rfl
  · simp only [Except.bind]
    cases accountOfReply path reply <;> rfl

/-- A derivation gives an account just when the wallet is open, the app takes the path, and the
answer is a success whose payload tells a key and the address that ends the hash of its coordinates.
The account is then theirs, and the address is pinned to the path if it shall be; any other end
leaves the driver as it was.  One command is
sent if the wallet is open and the app takes the path, and else nothing goes over the link. -/
theorem derive_takes_consistent_replies (t : Transport τ) (path : Path) (pin : Bool) (l : Ledger)
    (d : Desk τ) :
    let r := derive (Desk.transport t) path pin (l, d)
    (∀ account, r.1 = .ok account ↔
      IsOpen t l d.link ∧ Askable path ∧ ∃ command response key address,
        publicKeyCommand path = .ok command ∧ (t.exchange command d.link).1 = .ok response ∧
        response.statusWord = 0x9000 ∧ Tells response.data key.point address ∧
        address.bytes = (Keccak.hash
          (Bytes.ofNat 32 key.point.x ++ Bytes.ofNat 32 key.point.y)).bytes.drop 12 ∧
        account = ⟨key, address, path⟩) ∧
    (∀ account, r.1 = .ok account →
      r.2.1.version = l.version ∧ r.2.1.label = l.label ∧
        (pin = false → r.2.1.pinned = l.pinned) ∧
        (pin = true → ∀ address, r.2.1.pinned.lookup address =
          if address = account.address then some path else l.pinned.lookup address)) ∧
    (∀ e, r.1 = .error e → r.2.1 = l) ∧
    (IsOpen t l d.link ∧ Askable path → ∃ command data, encodePath path = .ok data ∧
      command.bytes = [0xE0, 0x02, 0x00, 0x00, UInt8.ofNat data.length] ++ data ∧
      r.2.2.log = d.log ++ [.exchanged command (t.exchange command d.link).1]) ∧
    (¬ (IsOpen t l d.link ∧ Askable path) → r.2.2 = d) := by
  intro r
  by_cases ready : IsOpen t l d.link ∧ Askable path
  · obtain ⟨c, data, made, written, bytes⟩ := publicKeyCommand_of_askable ready.2
    have done := derive_of_ready (t := Desk.transport t) pin (s := d) ready.1 made
    simp only [Desk.send_eq] at done
    have found : r.1 = ((t.exchange c d.link).1.bind Response.checked).bind (accountOfReply path) :=
      congrArg Prod.fst done
    refine ⟨fun account => ?_, fun account taken => ?_, fun e refused => ?_,
      fun _ => ⟨c, data, written, bytes, congrArg (·.2.2.log) done⟩,
      fun unready => absurd ready unready⟩
    · rw [found, account_of_answer_iff]
      simp only [← Address.eq_ofPublicKey_iff]
      constructor
      · rintro ⟨response, key, address, answered⟩
        exact ⟨ready.1, ready.2, c, response, key, address, made, answered⟩
      · rintro ⟨-, -, c', response, key, address, made', answered⟩
        obtain rfl := Except.ok.inj (made'.symm.trans made)
        exact ⟨response, key, address, answered⟩
    · have kept : r.2.1 = if pin then l.pinPath account.address path else l := by
        have driver := congrArg (·.2.1) done
        simp only [← found, taken] at driver
        exact driver
      rw [kept]
      cases pin with
      | false => exact ⟨rfl, rfl, fun _ => rfl, nofun⟩
      | true => exact ⟨rfl, rfl, nofun, fun _ => lookup_pinPath l account.address path⟩
    · have driver := congrArg (·.2.1) done
      simp only [← found, refused] at driver
      exact driver
  · obtain ⟨e, done⟩ := derive_of_unready (t := Desk.transport t) pin (s := d) ready
    have refused : r.1 = .error e := congrArg Prod.fst done
    refine ⟨fun account => ?_, fun account taken => ?_, fun _ _ => congrArg (·.2.1) done,
      fun both => absurd both ready, fun _ => congrArg (·.2.2) done⟩
    · rw [refused]
      exact iff_of_false nofun fun all => ready ⟨all.1, all.2.1⟩
    · cases refused.symm.trans taken

/-- The key one is told with its address, in letters of both cases and with a byte behind it. -/
theorem derive_takes_consistent_replies_first_key :
    let point := Secp256k1.basePoint
    let text := "0x7E5F4552091A69125d5DfCb7b8C2659029395Bdf"
    let response : Response := ⟨65 :: 0x04 :: (Bytes.ofNat 32 point.x ++ Bytes.ofNat 32 point.y ++
      42 :: (Bytes.ofString text ++ [0x00])), 0x90, 0x00⟩
    let t : Transport Unit :=
      { openLink := fun s => (.ok (), s)
        closeLink := fun s => (.ok (), s)
        exchange := fun _ s => (.ok response, s)
        isConnected := fun _ => true }
    let l : Ledger := ⟨"Nano", some ⟨1, 9, 20⟩, []⟩
    ∃ address r, derive (Desk.transport t) (.ethereum 1) true (l, ⟨(), []⟩) =
        (.ok ⟨⟨point⟩, address, .ethereum 1⟩, r) ∧
      address.toHex = "0x7e5f4552091a69125d5dfcb7b8c2659029395bdf" ∧
      r.1.pinned.lookup address = some (.ethereum 1) := by
  intro point text response t l
  obtain ⟨takes, keeps, -⟩ := derive_takes_consistent_replies t (.ethereum 1) true l ⟨(), []⟩
  generalize derive (Desk.transport t) (.ethereum 1) true (l, ⟨(), []⟩) = r at takes keeps ⊢
  obtain ⟨outcome, r⟩ := r
  -- As a variable, so that only the next two steps compute a hash.
  obtain ⟨address, own⟩ : ∃ address : Address, address = .ofPublicKey ⟨point⟩ := ⟨_, rfl⟩
  have read : Address.ofHex text = .ok address := by
    rw [own]
    decide +kernel
  have written : address.toHex = "0x7e5f4552091a69125d5dfcb7b8c2659029395bdf" := by
    rw [own]
    decide +kernel
  have askable : Askable (.ethereum 1) := ⟨by decide, by decide⟩
  obtain ⟨command, data, made, -⟩ := publicKeyCommand_of_askable askable
  have told : Tells response.data point address :=
    ⟨by decide, by decide, by decide +kernel, text, 42, [0x00], rfl, by decide +kernel, read⟩
  have taken : outcome = .ok ⟨⟨point⟩, address, .ethereum 1⟩ :=
    (takes _).mpr ⟨⟨rfl, _, rfl⟩, askable, command, response, ⟨point⟩, address, made, rfl,
      by decide, told, Address.eq_ofPublicKey_iff.mp own, rfl⟩
  obtain ⟨-, -, -, pinned⟩ := keeps _ taken
  exact ⟨address, r, congrArg (·, r) taken, written, (pinned rfl address).trans (if_pos rfl)⟩

end

end Ledger

end HardwareSigner
