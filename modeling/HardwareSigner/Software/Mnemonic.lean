import HardwareSigner.Error
import HardwareSigner.Software.WordList
import HardwareSigner.Text.Blank
import HardwareSigner.Text.Compatibility
/-! Mnemonic phrases: words that stand for random bits and a checksum of them. -/

namespace HardwareSigner.Mnemonic

def wordList : List (List Char) :=
  wordLines.flatMap fun line => Text.words line.toList

/-- A phrase has a multiple of three words, from 12 to 24. -/
def isWordCount (n : Nat) : Bool :=
  n % 3 == 0 && 12 ≤ n && n ≤ 24

/-- The numbers of words, the first of which has the given position. -/
def numbers (position : Nat) : List (List Char) → Except DerivationFault (List Nat)
  | [] => .ok []
  | word :: rest =>
    match wordList.idxOf? word with
    | none => .error (.unknownWord position)
    | some n => (numbers (position + 1) rest).map (n :: ·)

/-- Of 33 bits the last one belongs to the checksum: the first bits of a hash of the others. -/
def checks (bits : List Bool) : Bool :=
  let size := bits.length / 33 * 32
  let entropy := (blocks 8 (bits.take size)).map fun byte => UInt8.ofNat (ofBits byte)
  let hash := (Sha2.sha256 entropy).flatMap fun b => bitsOf 8 b.toNat
  bits.drop size == hash.take (bits.length - size)

/-- The words of a phrase, however they are spaced and in whatever form of letters. -/
def wordsOf (phrase : String) : Except DerivationFault (List (List Char)) :=
  let words := Text.words (Text.plain phrase.toList)
  if isWordCount words.length then
    match numbers 0 words with
    | .error fault => .error fault
    | .ok ns => if checks (ns.flatMap (bitsOf 11)) then .ok words else .error .badChecksum
  else .error (.wordCount words.length)

/-- The rounds of stretching. -/
def rounds : Nat := 2048

/-- The seed of a phrase, without a passphrase of its own. -/
def seed (phrase : String) : Except DerivationFault Bytes :=
  (wordsOf phrase).map fun words =>
    Hmac.pbkdf2 .sha512 (Bytes.ofString (String.ofList ([' '].intercalate words)))
      (Bytes.ofString "mnemonic") rounds

end HardwareSigner.Mnemonic
