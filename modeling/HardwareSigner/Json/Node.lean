import HardwareSigner.Bytes
import HardwareSigner.Json.Basic
import HardwareSigner.Text.Numeral
/-!
Documents as they stand in a text: members in written order, names and texts still escaped.  Where
the text stops being JSON the tree ends with a broken node, and nothing follows it.
-/

namespace HardwareSigner.Json

inductive Node where
  | broken
  | null
  | bool (value : Bool)
  | number (numeral : Numeral)
  | string (body : Bytes)
  | array (items : List Node)
  | object (members : List (Option Bytes × Node))

/-- The code unit that four hexadecimal digits name. -/
def codeUnit? (a b c d : UInt8) : Option Nat :=
  Text.digits? 16 (2 ^ 16) 0 ([a, b, c, d].map fun x => Char.ofNat x.toNat)

def isHigh (unit : Nat) : Bool := 0xD800 ≤ unit && unit < 0xDC00

def isLow (unit : Nat) : Bool := 0xDC00 ≤ unit && unit < 0xE000

/-- The byte that a one-letter escape stands for. -/
def escaped? (mark : UInt8) : Option UInt8 :=
  match Char.ofNat mark.toNat with
  | '"' => some 0x22
  | '\\' => some 0x5C
  | '/' => some 0x2F
  | 'b' => some 0x08
  | 'f' => some 0x0C
  | 'n' => some 0x0A
  | 'r' => some 0x0D
  | 't' => some 0x09
  | _ => none

/-- The UTF-8 bytes meant by the inside of a quoted text; surrogates must come in pairs. -/
def unescape? : Bytes → Option Bytes
  | [] => some []
  | 0x5C :: 0x75 :: a :: b :: c :: d :: rest =>
    match codeUnit? a b c d with
    | none => none
    | some unit =>
      if isLow unit then none
      else if isHigh unit then
        match rest with
        | 0x5C :: 0x75 :: a' :: b' :: c' :: d' :: rest' =>
          match codeUnit? a' b' c' d' with
          | none => none
          | some low =>
            if isLow low then
              let c := Char.ofNat (0x10000 + (unit - 0xD800) * 0x400 + (low - 0xDC00))
              (unescape? rest').map (String.utf8EncodeChar c ++ ·)
            else none
        | _ => none
      else (unescape? rest).map (String.utf8EncodeChar (Char.ofNat unit) ++ ·)
  | 0x5C :: mark :: rest =>
    match escaped? mark with
    | some byte => (unescape? rest).map (byte :: ·)
    | none => none
  | byte :: rest => (unescape? rest).map (byte :: ·)

def text? (body : Bytes) : Option String :=
  (unescape? body).bind Bytes.toString?

namespace Node

mutual

/-- No part of the tree is broken. -/
def isWhole : Node → Bool
  | .broken => false
  | .array items => areWhole items
  | .object members => membersWhole members
  | .null | .bool _ | .number _ | .string _ => true

def areWhole : List Node → Bool
  | [] => true
  | item :: rest => item.isWhole && areWhole rest

def membersWhole : List (Option Bytes × Node) → Bool
  | [] => true
  | (_, value) :: rest => value.isWhole && membersWhole rest

end

mutual

/--
The value of a tree, for which `depth - 1` more levels of arrays and objects may be entered.  Of
members with one name the last is kept.
-/
def toJson? (depth : Nat) : Node → Option Json
  | .broken => none
  | .null => some .null
  | .bool b => some (.bool b)
  | .number n => n.toNumber?.map .number
  | .string body => (text? body).map .string
  | .array items => if 1 < depth then (toItems? (depth - 1) items).map .array else none
  | .object members =>
    if 1 < depth then (toMembers? (depth - 1) members).map .ofMembers else none

def toItems? (depth : Nat) : List Node → Option (List Json)
  | [] => some []
  | item :: rest =>
    match item.toJson? depth, toItems? depth rest with
    | some value, some values => some (value :: values)
    | _, _ => none

def toMembers? (depth : Nat) : List (Option Bytes × Node) → Option (List (String × Json))
  | [] => some []
  | (name, value) :: rest =>
    match name.bind text?, value.toJson? depth, toMembers? depth rest with
    | some key, some value, some values => some ((key, value) :: values)
    | _, _, _ => none

end

end Node

end HardwareSigner.Json
