import HardwareSigner.Text.Invisible
import HardwareSigner.Text.Numeral
/-! Texts and characters as they are quoted inside messages. -/

namespace HardwareSigner.Text

/-- One character of a quoted text; `quote` is the character that ends the text. -/
def escape (quote c : Char) : List Char :=
  if c = quote ∨ c = '\\' then ['\\', c]
  else if c = '\n' then ['\\', 'n']
  else if c = '\r' then ['\\', 'r']
  else if c = '\t' then ['\\', 't']
  else if c.toNat = 0 then ['\\', '0']
  else if isInvisible c then ['\\', 'u', '\x7b'] ++ hexPlain c.toNat ++ ['\x7d']
  else [c]

def quoted (cs : List Char) : String :=
  String.ofList ('"' :: cs.flatMap (escape '"') ++ ['"'])

def quotedChar (c : Char) : String :=
  String.ofList ('\'' :: escape '\'' c ++ ['\''])

end HardwareSigner.Text
