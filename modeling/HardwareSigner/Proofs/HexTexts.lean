import HardwareSigner.Address
import HardwareSigner.Proofs.Bytes
import HardwareSigner.Proofs.Hex
import HardwareSigner.Proofs.Json.Decoding
import HardwareSigner.TypedData.Hash
/-!
Addresses and hashes as hexadecimal texts.  However the letters of an address are cased, and whether
or not the text is marked, the address is read from it; no other texts are read as addresses.  A
shown hash can be read back too, so that an operator never sees one text for two hashes.
-/

namespace HardwareSigner

open Hex (Marked Says)

namespace Address
variable {a : Address} {text : String}

theorem ofHex_ok_iff : ofHex text = .ok a ↔ ∃ cs, Marked cs text.toList ∧ Says cs a.bytes := by
  rw [← Hex.decodeText_ok_iff, ofHex]
  constructor
  · intro found
    split at found
    · cases found
    rename_i bs read
    split at found
    · cases found
      exact read
    · cases found
  · intro read
    rw [read]
    exact dif_pos a.size

/-- The texts of addresses are those of forty digits. -/
theorem exists_ofHex_iff : (∃ a, ofHex text = .ok a) ↔
    ∃ cs, Marked cs text.toList ∧ cs.length = 40 ∧ ∀ c ∈ cs, ∃ d, Text.IsDigit 16 c d := by
  simp only [ofHex_ok_iff]
  constructor
  · rintro ⟨a, cs, front, said⟩
    exact ⟨cs, front, Hex.exists_says_iff.mp ⟨a.bytes, a.size, said⟩⟩
  · rintro ⟨cs, front, digits⟩
    obtain ⟨bs, size, said⟩ := (Hex.exists_says_iff (n := 20)).mpr digits
    exact ⟨⟨bs, size⟩, cs, front, said⟩

theorem toList_toHex (a : Address) :
    a.toHex.toList = '0' :: 'x' :: Hex.digits Hex.lowerDigit a.bytes :=
  Hex.toList_mark _

theorem map_toLower_raise {cs hash : List Char} (enough : cs.length ≤ hash.length) :
    (raise cs hash).map Char.toLower = cs.map Char.toLower := by
  induction cs generalizing hash with
  | nil => rfl
  | cons c cs ih =>
      cases hash with
      | nil => cases enough
      | cons h hash =>
          have letter : (if (Text.digit? h).any (8 ≤ ·) then c.toUpper else c).toLower =
              c.toLower := by
            split
            · exact Text.toLower_toUpper c
            · rfl
          have rest := ih (Nat.le_of_succ_le_succ enough)
          rw [raise] at rest ⊢
          rw [List.zipWith_cons_cons, List.map_cons, List.map_cons, letter, rest]

/-- The hash has more digits than the address, so that none is lost where letters are raised. -/
theorem toList_toChecksum (a : Address) :
    ∃ cs, a.toChecksum.toList = '0' :: 'x' :: cs ∧ Says cs a.bytes := by
  refine ⟨_, String.toList_ofList, ?_⟩
  rw [Says, map_toLower_raise, Hex.says_lower]
  rw [Hex.length_digits, Hex.length_digits, a.size, Word.size]
  decide

theorem ofDigits?_of_says {cs : List Char} (said : Says cs a.bytes) : ofDigits? cs = some a := by
  rw [ofDigits?, Hex.decode_ofList_iff.mpr said]
  exact dif_pos a.size

theorem decoder_toNode {ρ : Type} (a : Address) (depth : Nat) :
    decoder (ρ := ρ) depth a.toJson.toNode = .ok a := by
  have read := ofDigits?_of_says (Hex.says_lower a.bytes)
  rw [decoder, toJson, Json.Decoder.string_toNode]
  simp only [toList_toHex, read]

theorem ofDocument_toJson {ρ : Type} (a : Address) :
    ofDocument (ρ := ρ) (Bytes.ofString a.toJson.render) = .ok a := by
  have exact : a.toJson.Integral := ⟨nofun, nofun⟩
  have none : Json.byteList? 20 a.toJson.bytes = none := by
    rw [toJson, Json.bytes, Json.toChars, Json.ofChars_quote, Json.byteList?,
      Json.skipSpace_cons (by decide)]
    rfl
  rw [ofDocument, Json.render, Bytes.ofString_ofList, ← Json.bytes, none, Option.bind_none]
  exact Json.decode_bytes exact (a.decoder_toNode _)

end Address

namespace TypedData.SigningHashes

theorem shown_eq (bs : Bytes) : shown bs = Hex.inCapitals bs :=
  (Hex.inCapitals_eq bs).symm

/-- What an operator is shown of two hashes. -/
theorem lines_eq (h : SigningHashes) :
    h.lines = ["Signing the following payload with EIP-712:",
      "- Domain: " ++ Hex.inCapitals h.domain.bytes,
      "- Message: " ++ Hex.inCapitals h.message.bytes] := by
  rw [lines, shown_eq, shown_eq]

theorem hexBytes_shown (bs : Bytes) : hexBytes (shown bs) = .ok bs := by
  have front : Marked (Hex.digits Hex.upperDigit bs) (shown bs).toList := by
    rw [shown, Hex.encodeUpper, Hex.toList_mark]
    exact .marked
  rw [hexBytes, Hex.decodeText_ok_iff.mpr ⟨_, front, Hex.says_upper bs⟩]

theorem shown_inj {bs bs' : Bytes} : shown bs = shown bs' ↔ bs = bs' := by
  refine ⟨fun same => ?_, congrArg shown⟩
  have read := hexBytes_shown bs
  rw [same, hexBytes_shown] at read
  exact (Except.ok.inj read).symm

/-- What an operator sees tells apart any two pairs of hashes. -/
theorem lines_inj {h h' : SigningHashes} : h.lines = h'.lines ↔ h = h' := by
  refine ⟨fun same => ?_, congrArg lines⟩
  obtain ⟨first, rest⟩ := List.cons.inj (List.cons.inj same).2
  obtain ⟨second, -⟩ := List.cons.inj rest
  have domain := Word.ext (shown_inj.mp ((String.append_right_inj _).mp first))
  have message := Word.ext (shown_inj.mp ((String.append_right_inj _).mp second))
  exact congrArg₂ mk domain message

end TypedData.SigningHashes

open TypedData (SigningHashes)

/--
Both texts of an address are a mark and forty digits, and the texts that are read as the address are
those with these digits in letters of any case, marked or not.  Every text of forty digits is read
as some address, and no other text is.  What an address is written as in a document is read as the
address, and what bytes are shown as is read as the bytes; so what is shown for two hashes differs.
-/
theorem hexadecimal_texts_are_read_back {ρ : Type} (a : Address) (text : String) (bs bs' : Bytes)
    (h h' : SigningHashes) :
    (∀ own, own = a.toHex ∨ own = a.toChecksum →
      Address.ofHex own = .ok a ∧ ∃ ds, own.toList = '0' :: 'x' :: ds ∧ ds.length = 40 ∧
        (Address.ofHex text = .ok a ↔
          ∃ cs, Marked cs text.toList ∧ cs.map Char.toLower = ds.map Char.toLower)) ∧
    ((∃ a, Address.ofHex text = .ok a) ↔
      ∃ cs, Marked cs text.toList ∧ cs.length = 40 ∧ ∀ c ∈ cs, ∃ d, Text.IsDigit 16 c d) ∧
    Address.ofDocument (ρ := ρ) (Bytes.ofString a.toJson.render) = .ok a ∧
    TypedData.hexBytes (SigningHashes.shown bs) = .ok bs ∧
    (SigningHashes.shown bs = SigningHashes.shown bs' ↔ bs = bs') ∧
    (h.lines = h'.lines ↔ h = h') := by
  refine ⟨?_, Address.exists_ofHex_iff, a.ofDocument_toJson, SigningHashes.hexBytes_shown bs,
    SigningHashes.shown_inj, SigningHashes.lines_inj⟩
  intro own known
  obtain ⟨ds, letters, said⟩ : ∃ ds, own.toList = '0' :: 'x' :: ds ∧ Says ds a.bytes := by
    rcases known with rfl | rfl
    · exact ⟨_, a.toList_toHex, Hex.says_lower a.bytes⟩
    · exact a.toList_toChecksum
  have size : ds.length = 40 := by rw [said.length, a.size]
  refine ⟨Address.ofHex_ok_iff.mpr ⟨ds, letters ▸ .marked, said⟩, ds, letters, size, ?_⟩
  rw [Address.ofHex_ok_iff, said]
  rfl

theorem hexadecimal_texts_are_read_back_capitals :
    ∃ a : Address, a.toChecksum = "0x5aAeb6053F3E94C9b9A09f33669435E7Ef1BeAed" ∧
      Address.ofHex "0x5aAeb6053F3E94C9b9A09f33669435E7Ef1BeAed" = .ok a ∧
      Address.ofHex "5AAEB6053F3E94C9B9A09F33669435E7EF1BEAED" = .ok a := by
  let a : Address := ⟨[0x5A, 0xAE, 0xB6, 0x05, 0x3F, 0x3E, 0x94, 0xC9, 0xB9, 0xA0, 0x9F, 0x33, 0x66,
    0x94, 0x35, 0xE7, 0xEF, 0x1B, 0xEA, 0xED], rfl⟩
  have shown : a.toChecksum = "0x5aAeb6053F3E94C9b9A09f33669435E7Ef1BeAed" := by decide +kernel
  obtain ⟨reading, -⟩ := hexadecimal_texts_are_read_back (ρ := Empty) a
    "5AAEB6053F3E94C9B9A09F33669435E7EF1BEAED" [] [0] ⟨default, default⟩ ⟨default, .ofNat 1⟩
  obtain ⟨own, ds, letters, size, others⟩ := reading _ (.inr shown.symm)
  refine ⟨a, shown, own, others.mpr ⟨_, .plain, ?_⟩⟩
  obtain rfl := (List.cons.inj (List.cons.inj letters).2).2
  decide +kernel

end HardwareSigner
