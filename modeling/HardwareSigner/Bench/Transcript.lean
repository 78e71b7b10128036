/-! Consoles that keep what is printed; a copy of a console shares its lines. -/

namespace HardwareSigner

structure Transcript where
  lines : List String
  deriving DecidableEq

namespace Transcript

def blank : Transcript := ⟨[]⟩

def print (line : String) (t : Transcript) : Transcript :=
  ⟨t.lines ++ [line]⟩

end Transcript

/-- Several consoles, each of which stands for one of the transcripts. -/
structure Consoles where
  transcripts : List Transcript
  consoles : List Nat
  deriving DecidableEq

namespace Consoles

def start : Consoles := ⟨[.blank], [0]⟩

/-- Changes the transcript of a console, and so what all its copies show. -/
def update (c : Consoles) (console : Nat) (f : Transcript → Transcript) : Consoles :=
  match c.consoles[console]? with
  | none => c
  | some i => { c with transcripts := c.transcripts.modify i f }

def print (c : Consoles) (console : Nat) (line : String) : Consoles :=
  c.update console (·.print line)

def clear (c : Consoles) (console : Nat) : Consoles :=
  c.update console fun _ => .blank

/-- One more console with the lines of another. -/
def copy (c : Consoles) (console : Nat) : Consoles :=
  match c.consoles[console]? with
  | none => c
  | some i => { c with consoles := c.consoles ++ [i] }

/-- One more console with lines of its own. -/
def add (c : Consoles) : Consoles :=
  ⟨c.transcripts ++ [.blank], c.consoles ++ [c.transcripts.length]⟩

/-- What every console shows. -/
def shown (c : Consoles) : List (List String) :=
  c.consoles.map fun i => (c.transcripts[i]?.getD .blank).lines

end Consoles

end HardwareSigner
