import HardwareSigner.Proofs.Bits
import HardwareSigner.Proofs.Bytes
import HardwareSigner.Proofs.Ledger.KeyReplies
import HardwareSigner.Proofs.Ledger.Lifecycle
import HardwareSigner.Proofs.TypedData.Reading
/-!
Commands can be read back.  A path says how many components it has before they come, and they are
of one size, so what stands behind a path cannot be taken for a part of it; a command says how much
data it has.
-/

namespace HardwareSigner

namespace Apdu.Command

/-- A command as a device reads it, with as much data as its header says. -/
def ofBytes? : Bytes → Option Command
  | cla :: ins :: p1 :: p2 :: size :: data =>
    if whole : data.length = size.toNat then
      some ⟨cla, ins, p1, p2, data, whole ▸ Nat.le_of_lt_succ size.toNat_lt⟩
    else none
  | _ => none

/-- The length of the data fits in one byte. -/
theorem toNat_size (c : Command) : (UInt8.ofNat c.data.length).toNat = c.data.length :=
  UInt8.toNat_ofNat_of_lt' (Nat.lt_succ_of_le c.short)

/-- What a device reads as a command is what the command is written as. -/
theorem ofBytes?_eq_some_iff {bs : Bytes} {c : Command} : ofBytes? bs = some c ↔ bs = c.bytes := by
  constructor
  · intro read
    unfold ofBytes? at read
    split at read
    · split at read
      · rename_i whole
        cases read
        rw [bytes]
        simp only [whole, UInt8.ofNat_toNat]
      · cases read
    · cases read
  · rintro rfl
    rw [bytes, ofBytes?, dif_pos c.toNat_size.symm]

theorem bytes_injective {c d : Command} (same : c.bytes = d.bytes) : c = d := by
  have read := ofBytes?_eq_some_iff.mpr same
  exact Option.some.inj ((ofBytes?_eq_some_iff.mpr rfl).symm.trans read)

end Apdu.Command

namespace Ledger
open Apdu (Command)

/-- A component in four bytes. -/
def indexBytes (index : UInt32) : Bytes :=
  Bytes.ofNat 4 index.toNat

def indexOfBytes (bs : Bytes) : UInt32 :=
  UInt32.ofNat (Bytes.toNat bs)

theorem indexOfBytes_indexBytes (index : UInt32) : indexOfBytes (indexBytes index) = index := by
  rw [indexOfBytes, indexBytes, Bytes.toNat_ofNat, Nat.mod_eq_of_lt index.toNat_lt,
    UInt32.ofNat_toNat]

theorem indexBytes_indexOfBytes {bs : Bytes} (size : bs.length = 4) :
    indexBytes (indexOfBytes bs) = bs := by
  have small : Bytes.toNat bs < 2 ^ 32 := by
    have bound := Bytes.toNat_lt bs
    rw [size] at bound
    exact bound
  rw [indexBytes, indexOfBytes, UInt32.toNat_ofNat_of_lt' small, Bytes.ofNat_toNat size]

/-- The path at the beginning of a byte string, as a device reads it, and what follows. -/
def splitPath? : Bytes → Option (Path × Bytes)
  | [] => none
  | count :: rest =>
    if (1 ≤ count.toNat ∧ count.toNat ≤ 10) ∧ 4 * count.toNat ≤ rest.length then
      some (⟨(firstBlocks 4 count.toNat rest).map indexOfBytes⟩, rest.drop (4 * count.toNat))
    else none

theorem encodePath_ok_iff {path : Path} {data : Bytes} :
    encodePath path = .ok data ↔ Askable path ∧
      data = UInt8.ofNat path.indices.length :: path.indices.flatMap indexBytes := by
  by_cases askable : Askable path
  · rw [encodePath_of_askable askable, Except.ok.injEq, and_iff_right askable]
    exact eq_comm
  · obtain ⟨e, refused⟩ := encodePath_of_not_askable askable
    rw [refused]
    exact iff_of_false nofun fun both => askable both.1

theorem exists_encodePath_iff {path : Path} :
    (∃ data, encodePath path = .ok data) ↔ Askable path := by
  simp only [encodePath_ok_iff, exists_and_left, exists_eq, and_true]

theorem toNat_count {path : Path} (askable : Askable path) :
    (UInt8.ofNat path.indices.length).toNat = path.indices.length :=
  UInt8.toNat_ofNat_of_lt' (Nat.lt_of_le_of_lt askable.2 (by decide))

theorem length_encodePath {path : Path} {data : Bytes} (made : encodePath path = .ok data) :
    data.length = 4 * path.indices.length + 1 := by
  obtain ⟨-, rfl⟩ := encodePath_ok_iff.mp made
  rw [List.length_cons]
  exact congrArg Nat.succ (length_components path.indices)

/-- A device finds just that path at the beginning which was put there. -/
theorem splitPath?_eq_some_iff {bs rest : Bytes} {path : Path} :
    splitPath? bs = some (path, rest) ↔ ∃ data, encodePath path = .ok data ∧ bs = data ++ rest := by
  constructor
  · intro read
    unfold splitPath? at read
    split at read
    · cases read
    rename_i count tail
    split at read
    · rename_i fits
      cases read
      have size : (firstBlocks 4 count.toNat tail).length = count.toNat :=
        length_firstBlocks count.toNat tail
      have blocks : ((firstBlocks 4 count.toNat tail).map indexOfBytes).flatMap indexBytes =
          tail.take (4 * count.toNat) := by
        rw [List.flatMap_map, ← flatten_firstBlocks, ← List.flatMap_id']
        refine List.flatMap_congr fun block held => ?_
        exact indexBytes_indexOfBytes (length_of_mem_firstBlocks fits.2 held)
      refine ⟨_, encodePath_ok_iff.mpr ⟨?_, rfl⟩, ?_⟩
      · rw [Askable, List.length_map, size]
        exact fits.1
      · rw [List.length_map, size, blocks, UInt8.ofNat_toNat, List.cons_append,
          List.take_append_drop]
    · cases read
  · rintro ⟨data, made, rfl⟩
    obtain ⟨askable, rfl⟩ := encodePath_ok_iff.mp made
    have each : ∀ index ∈ path.indices, (indexBytes index).length = 4 :=
      fun index _ => Bytes.length_ofNat 4 index.toNat
    have size : (path.indices.flatMap indexBytes).length = 4 * path.indices.length :=
      length_components path.indices
    have fits : (1 ≤ path.indices.length ∧ path.indices.length ≤ 10) ∧
        4 * path.indices.length ≤ (path.indices.flatMap indexBytes ++ rest).length := by
      refine ⟨askable, ?_⟩
      rw [List.length_append, size]
      exact Nat.le_add_right _ _
    have indices : (path.indices.map indexBytes).map indexOfBytes = path.indices := by
      rw [List.map_map]
      exact (List.map_congr_left fun index _ => indexOfBytes_indexBytes index).trans
        (List.map_id' path.indices)
    rw [List.cons_append, splitPath?]
    simp only [toNat_count askable]
    rw [if_pos fits, firstBlocks_flatMap each, indices, List.drop_left' size]

/-- What stands behind a path cannot be taken for a part of the path. -/
theorem encodePath_append_inj {p q : Path} {a b x y : Bytes} (first : encodePath p = .ok a)
    (second : encodePath q = .ok b) (same : a ++ x = b ++ y) : p = q ∧ x = y := by
  have read : splitPath? (a ++ x) = some (p, x) := splitPath?_eq_some_iff.mpr ⟨a, first, rfl⟩
  have read' : splitPath? (a ++ x) = some (q, y) := splitPath?_eq_some_iff.mpr ⟨b, second, same⟩
  exact Prod.mk.inj (Option.some.inj (read.symm.trans read'))

theorem command_of_short {data : Bytes} (short : data.length ≤ Apdu.maxData) (ins : UInt8) :
    command ins data = .ok ⟨Command.ethereumClass, ins, 0, 0, data, short⟩ := by
  simp only [command, Command.ethereum, Command.make, dif_pos short]

/-- A path and two hashes: the most that is ever sent. -/
def longest : Nat := 105

theorem longest_le : longest ≤ Apdu.maxData := by decide

theorem length_encodePath_le {path : Path} {data : Bytes} (made : encodePath path = .ok data) :
    data.length + 64 ≤ longest := by
  have short := (exists_encodePath_iff.mp ⟨data, made⟩).2
  rw [length_encodePath made, longest]
  omega

theorem publicKeyCommand_of_encodePath {path : Path} {data : Bytes}
    (made : encodePath path = .ok data) :
    ∃ short, publicKeyCommand path =
      .ok ⟨Command.ethereumClass, publicKeyIns, 0, 0, data, short⟩ ∧ data.length ≤ longest := by
  have most : data.length ≤ longest := Nat.le_of_add_right_le (length_encodePath_le made)
  have short := Nat.le_trans most longest_le
  refine ⟨short, ?_, most⟩
  rw [publicKeyCommand, made]
  exact command_of_short short publicKeyIns

/-- A command for a key fails to be made only with the path. -/
theorem publicKeyCommand_error_iff {path : Path} {e : Error} :
    publicKeyCommand path = .error e ↔ encodePath path = .error e := by
  cases written : encodePath path with
  | error e' => simp only [publicKeyCommand, written, Except.error.injEq]
  | ok data =>
      obtain ⟨short, made, -⟩ := publicKeyCommand_of_encodePath written
      rw [made]
      simp only [reduceCtorEq]

section
variable {typedData : TypedData}

theorem signCommand_of_encodePath {path : Path} {data : Bytes} {hashes : TypedData.SigningHashes}
    (hashed : typedData.signingHashes = .ok hashes) (made : encodePath path = .ok data) :
    let sent := data ++ hashes.domain.bytes ++ hashes.message.bytes
    ∃ short, signCommand path typedData =
      .ok ⟨Command.ethereumClass, signIns, 0, 0, sent, short⟩ ∧ sent.length ≤ longest := by
  intro sent
  have most : sent.length ≤ longest := by
    rw [List.length_append, List.length_append, hashes.domain.size, hashes.message.size]
    exact length_encodePath_le made
  have short := Nat.le_trans most longest_le
  refine ⟨short, ?_, most⟩
  rw [signCommand, hashed]
  simp only [made]
  exact command_of_short short signIns

/-- A command for a signature fails to be made only with the hashes or the path. -/
theorem signCommand_error_iff {path : Path} {e : Error} :
    signCommand path typedData = .error e ↔ typedData.signingHashes = .error e ∨
      (∃ hashes, typedData.signingHashes = .ok hashes) ∧ encodePath path = .error e := by
  cases hashed : typedData.signingHashes with
  | error e' =>
      simp only [signCommand, hashed, Except.error.injEq, reduceCtorEq, exists_false, false_and,
        or_false]
  | ok hashes =>
      cases written : encodePath path with
      | error e' =>
          simp only [signCommand, hashed, written, Except.error.injEq, reduceCtorEq, false_or,
            Except.ok.injEq, exists_eq', true_and]
      | ok data =>
          obtain ⟨short, made, -⟩ := signCommand_of_encodePath hashed written
          rw [made]
          simp only [reduceCtorEq, and_false, or_false]

end

section
variable {τ : Type} {t : Transport τ} {drop : τ → τ}

/-- The commands that are made for a Ledger. -/
inductive Made : Command → Prop where
  | configuration : Made configurationCommand
  | publicKey {path : Path} {c : Command} : publicKeyCommand path = .ok c → Made c
  | sign {path : Path} {typedData : TypedData} {c : Command} :
      signCommand path typedData = .ok c → Made c

theorem Made.length_le {c : Command} (made : Made c) : c.data.length ≤ longest := by
  cases made with
  | configuration => decide
  | @publicKey path _ made =>
      cases written : encodePath path with
      | error e =>
          rw [publicKeyCommand_error_iff.mpr written] at made
          cases made
      | ok data =>
          obtain ⟨short, made', most⟩ := publicKeyCommand_of_encodePath written
          obtain rfl := Except.ok.inj (made.symm.trans made')
          exact most
  | sign made =>
      obtain ⟨data, hashes, written, hashed, -, sent⟩ := signCommand_ok made
      obtain ⟨-, -, most⟩ := signCommand_of_encodePath hashed written
      rw [sent]
      exact most

/-- What a step sends was made for a Ledger. -/
theorem take_made {step : Step} {l : Ledger} {s : τ} {c : Command}
    {answer : Except Error Apdu.Response}
    (sent : .exchanged c answer ∈ (take t drop step (l, s)).1.events) : Made c := by
  -- A step that asks for something asks with one command, the one that it made.
  have only {d : Desk τ} {c' : Command} {x : Except Error Bytes} (made : Made c')
      (sending : (Desk.transport t).send c' ⟨s, []⟩ = (x, d))
      (sent : .exchanged c answer ∈ d.log) : Made c := by
    obtain ⟨answer', noted⟩ := Desk.send_log sending
    rw [noted] at sent
    cases List.mem_singleton.mp sent
    exact made
  cases step with
  | openChannel => exact openChannel_sends sent ▸ .configuration
  | closeChannel => cases List.mem_singleton.mp sent
  | drop => cases sent
  | derive path pin =>
      simp only [take, Step.perform, Action.andThen] at sent
      have call := derive_call (Desk.transport t) path pin l ⟨s, []⟩
      generalize Ledger.derive (Desk.transport t) path pin (l, ⟨s, []⟩) = r at call sent
      cases call with
      | closed _ => cases sent
      | unmade _ _ => cases sent
      | unanswered _ made sending => exact only (.publicKey made) sending sent
      | malformed _ made sending _ => exact only (.publicKey made) sending sent
      | derived _ made sending _ => exact only (.publicKey made) sending sent
  | sign account typedData =>
      simp only [take, Step.perform, Action.andThen] at sent
      have call := sign_call (Desk.transport t) account typedData l ⟨s, []⟩
      generalize Ledger.sign (Desk.transport t) account typedData (l, ⟨s, []⟩) = r at call sent
      cases call with
      | closed _ => cases sent
      | outdated _ _ => cases sent
      | unmade _ _ _ => cases sent
      | unanswered _ _ made sending => exact only (.sign made) sending sent
      | @answered _ _ reply _ _ _ made sending =>
          refine only (.sign made) sending ?_
          cases read : signatureOfReply reply <;> rw [read] at sent <;> exact sent

/-- What a run sends was made for a Ledger. -/
theorem takeAll_made (steps : List Step) {r : Ledger × τ} {x : Taken}
    (one : x ∈ (takeAll t drop steps r).1) {c : Command} {answer : Except Error Apdu.Response}
    (sent : .exchanged c answer ∈ x.events) : Made c := by
  induction steps generalizing r with
  | nil => cases one
  | cons step steps ih =>
      rcases List.mem_cons.mp one with rfl | later
      · exact take_made sent
      · exact ih later

/-- Commands can be read back.  The paths of one to ten components are written so that they can be
told from whatever follows them, in particular from two hashes.  With such a path the command for a
key can always be made, and with hashes the command for a signature; no command of a run has more
than 105 bytes of data.  The bytes of a command say how much data it has, and they are those of no
other command. -/
theorem commands_can_be_read_back (t : Transport τ) (drop : τ → τ) :
    (∀ path, (∃ data, encodePath path = .ok data) ↔
      1 ≤ path.indices.length ∧ path.indices.length ≤ 10) ∧
    (∀ p q a b, encodePath p = .ok a → encodePath q = .ok b →
      (∀ x y, a ++ x = b ++ y → p = q ∧ x = y) ∧
      ∀ d m d' m' : Word, a ++ d.bytes ++ m.bytes = b ++ d'.bytes ++ m'.bytes →
        p = q ∧ d = d' ∧ m = m') ∧
    (∀ path data, encodePath path = .ok data →
      (∃ short, publicKeyCommand path = .ok ⟨0xE0, 0x02, 0, 0, data, short⟩) ∧
      ∀ typedData hashes, typedData.signingHashes = .ok hashes →
        ∃ short, signCommand path typedData =
          .ok ⟨0xE0, 0x0C, 0, 0, data ++ hashes.domain.bytes ++ hashes.message.bytes, short⟩) ∧
    (∀ path e, (publicKeyCommand path = .error e ↔ encodePath path = .error e) ∧
      ∀ typedData, signCommand path typedData = .error e ↔ typedData.signingHashes = .error e ∨
        (∃ hashes, typedData.signingHashes = .ok hashes) ∧ encodePath path = .error e) ∧
    (∀ l s steps, ∀ x ∈ (takeAll t drop steps (l, s)).1, ∀ command answer,
      .exchanged command answer ∈ x.events → command.data.length ≤ 105) ∧
    ∀ command : Command,
      (∃ size, command.bytes[4]? = some size ∧ size.toNat = command.data.length) ∧
      (∀ bs, Command.ofBytes? bs = some command ↔ bs = command.bytes) ∧
      ∀ other : Command, command.bytes = other.bytes → command = other := by
  refine ⟨fun path => exists_encodePath_iff, ?_, ?_, ?_, ?_, ?_⟩
  · intro p q a b first second
    refine ⟨fun x y same => encodePath_append_inj first second same, ?_⟩
    intro d m d' m' same
    rw [List.append_assoc, List.append_assoc] at same
    obtain ⟨path, hashes⟩ := encodePath_append_inj first second same
    obtain ⟨domain, message⟩ := List.append_inj hashes (d.size.trans d'.size.symm)
    exact ⟨path, Word.ext domain, Word.ext message⟩
  · intro path data made
    obtain ⟨short, key, -⟩ := publicKeyCommand_of_encodePath made
    refine ⟨⟨short, key⟩, fun typedData hashes hashed => ?_⟩
    obtain ⟨short, signature, -⟩ := signCommand_of_encodePath hashed made
    exact ⟨short, signature⟩
  · exact fun path e => ⟨publicKeyCommand_error_iff, fun typedData => signCommand_error_iff⟩
  · intro l s steps x one command answer sent
    exact (takeAll_made steps one sent).length_le
  · intro command
    exact ⟨⟨_, rfl, command.toNat_size⟩, fun bs => Command.ofBytes?_eq_some_iff,
      fun other same => Command.bytes_injective same⟩

/-- The longest path leaves room for two hashes, and they are what can be told behind it. -/
theorem commands_can_be_read_back_longest :
    let path : Path := ⟨List.replicate 10 0x80000001⟩
    let typedData : TypedData := ⟨.empty, .ofList [("Tx", [])], "Tx", .object []⟩
    ∃ data hashes, encodePath path = .ok data ∧ typedData.signingHashes = .ok hashes ∧
      (∀ y, data ++ hashes.domain.bytes = data ++ y → hashes.domain.bytes = y) ∧
      (∃ short, signCommand path typedData =
        .ok ⟨0xE0, 0x0C, 0, 0, data ++ hashes.domain.bytes ++ hashes.message.bytes, short⟩) ∧
      let script : Script := ⟨false, [], [.ok [0, 1, 9, 20, 0x90, 0x00]], [], []⟩
      ∀ x ∈ (takeAll Script.transport Script.drop [.openChannel, .derive path true]
        (closed "Nano", script)).1, ∀ command answer,
        .exchanged command answer ∈ x.events → command.data.length ≤ 105 := by
  intro path typedData
  obtain ⟨-, apart, made, -, sent, -⟩ := commands_can_be_read_back Script.transport Script.drop
  obtain ⟨hashes, hashed⟩ : ∃ hashes, typedData.signingHashes = .ok hashes :=
    TypedData.exists_of_isOk (by decide +kernel)
  have written : encodePath path = .ok (10 :: path.indices.flatMap indexBytes) := rfl
  refine ⟨_, hashes, written, hashed, ?_, (made path _ written).2 typedData hashes hashed, ?_⟩
  · exact fun y same => ((apart path path _ _ written written).1 _ y same).2
  · exact sent _ _ _

end

end Ledger

end HardwareSigner
