/-!
Compatibility forms: characters that stand for plain small letters or for blanks.  The table holds
every character whose full compatibility decomposition is made of small Latin letters only, and
every one whose decomposition holds a blank; any other character decomposes into a text that
neither splits a word nor is one of plain letters.
-/

namespace HardwareSigner.Text

/-- Runs of consecutive characters that each stand for one letter. -/
def letterRuns : List (Nat × String) :=
  [(0xAA, "a"), (0xBA, "o"), (0x17F, "s"), (0x2B0, "h"), (0x2B2, "jr"), (0x2B7, "wy"),
   (0x2E1, "lsx"), (0x1D43, "a"), (0x1D47, "bde"), (0x1D4D, "g"), (0x1D4F, "km"), (0x1D52, "o"),
   (0x1D56, "ptu"), (0x1D5B, "v"), (0x1D62, "iruv"), (0x1D9C, "c"), (0x1DA0, "f"), (0x1DBB, "z"),
   (0x2071, "i"), (0x207F, "n"), (0x2090, "aeox"), (0x2095, "hklmnpstwyz"), (0x210A, "g"),
   (0x210E, "h"), (0x2113, "l"), (0x212F, "e"), (0x2134, "o"), (0x2139, "i"), (0x2146, "deij"),
   (0x2170, "i"), (0x2174, "v"), (0x2179, "x"), (0x217C, "lcdm"),
   (0x24D0, "abcdefghijklmnopqrstuvwxyz"), (0x2C7C, "j"), (0xFF41, "abcdefghijklmnopqrstuvwxyz"),
   (0x107A5, "q"), (0x1D41A, "abcdefghijklmnopqrstuvwxyz"), (0x1D44E, "abcdefg"),
   (0x1D456, "ijklmnopqrstuvwxyz"), (0x1D482, "abcdefghijklmnopqrstuvwxyz"), (0x1D4B6, "abcd"),
   (0x1D4BB, "f"), (0x1D4BD, "hijklmn"), (0x1D4C5, "pqrstuvwxyz"),
   (0x1D4EA, "abcdefghijklmnopqrstuvwxyz"), (0x1D51E, "abcdefghijklmnopqrstuvwxyz"),
   (0x1D552, "abcdefghijklmnopqrstuvwxyz"), (0x1D586, "abcdefghijklmnopqrstuvwxyz"),
   (0x1D5BA, "abcdefghijklmnopqrstuvwxyz"), (0x1D5EE, "abcdefghijklmnopqrstuvwxyz"),
   (0x1D622, "abcdefghijklmnopqrstuvwxyz"), (0x1D656, "abcdefghijklmnopqrstuvwxyz"),
   (0x1D68A, "abcdefghijklmnopqrstuvwxyz")]

/-- Characters that stand for several letters. -/
def ligatures : List (Nat × String) :=
  [(0x133, "ij"), (0x1C9, "lj"), (0x1CC, "nj"), (0x1F3, "dz"), (0x2171, "ii"), (0x2172, "iii"),
   (0x2173, "iv"), (0x2175, "vi"), (0x2176, "vii"), (0x2177, "viii"), (0x2178, "ix"),
   (0x217A, "xi"), (0x217B, "xii"), (0x32CD, "erg"), (0x3372, "da"), (0x3374, "bar"),
   (0x3376, "pc"), (0x3377, "dm"), (0x3388, "cal"), (0x3389, "kcal"), (0x338E, "mg"),
   (0x338F, "kg"), (0x3396, "ml"), (0x3397, "dl"), (0x3398, "kl"), (0x3399, "fm"), (0x339A, "nm"),
   (0x339C, "mm"), (0x339D, "cm"), (0x339E, "km"), (0x33AD, "rad"), (0x33B0, "ps"), (0x33B1, "ns"),
   (0x33B3, "ms"), (0x33C4, "cc"), (0x33C5, "cd"), (0x33CA, "ha"), (0x33CC, "in"), (0x33CF, "kt"),
   (0x33D0, "lm"), (0x33D1, "ln"), (0x33D2, "log"), (0x33D3, "lx"), (0x33D4, "mb"), (0x33D5, "mil"),
   (0x33D6, "mol"), (0x33DB, "sr"), (0x33FF, "gal"), (0xFB00, "ff"), (0xFB01, "fi"), (0xFB02, "fl"),
   (0xFB03, "ffi"), (0xFB04, "ffl"), (0xFB05, "st"), (0xFB06, "st")]

def spaces : List Nat :=
  [0xA0, 0x2000, 0x2001, 0x2002, 0x2003, 0x2004, 0x2005, 0x2006, 0x2007, 0x2008, 0x2009, 0x200A,
   0x202F, 0x205F, 0x3000]

/-- Marks that are written on a space of their own. -/
def spacedMarks : List (Nat × String) :=
  [(0xA8, "\u0308"), (0xAF, "\u0304"), (0xB4, "\u0301"), (0xB8, "\u0327"), (0x2D8, "\u0306"),
   (0x2D9, "\u0307"), (0x2DA, "\u030a"), (0x2DB, "\u0328"), (0x2DC, "\u0303"), (0x2DD, "\u030b"),
   (0x37A, "\u0345"), (0x384, "\u0301"), (0x385, "\u0308\u0301"), (0x1FBD, "\u0313"),
   (0x1FBF, "\u0313"), (0x1FC0, "\u0342"), (0x1FC1, "\u0308\u0342"), (0x1FCD, "\u0313\u0300"),
   (0x1FCE, "\u0313\u0301"), (0x1FCF, "\u0313\u0342"), (0x1FDD, "\u0314\u0300"),
   (0x1FDE, "\u0314\u0301"), (0x1FDF, "\u0314\u0342"), (0x1FED, "\u0308\u0300"),
   (0x1FEE, "\u0308\u0301"), (0x1FFD, "\u0301"), (0x1FFE, "\u0314"), (0x2017, "\u0333"),
   (0x203E, "\u0305"), (0x309B, "\u3099"), (0x309C, "\u309a"), (0xFC5E, "\u064c\u0651"),
   (0xFC5F, "\u064d\u0651"), (0xFC60, "\u064e\u0651"), (0xFC61, "\u064f\u0651"),
   (0xFC62, "\u0650\u0651"), (0xFC63, "\u0651\u0670"), (0xFE49, "\u0305"), (0xFE4A, "\u0305"),
   (0xFE4B, "\u0305"), (0xFE4C, "\u0305"), (0xFE70, "\u064b"), (0xFE72, "\u064c"),
   (0xFE74, "\u064d"), (0xFE76, "\u064e"), (0xFE78, "\u064f"), (0xFE7A, "\u0650"),
   (0xFE7C, "\u0651"), (0xFE7E, "\u0652"), (0xFFE3, "\u0304")]

/-- Characters that stand for several words. -/
def phrases : List (Nat × String) :=
  [
   (0xFDFA,
    "\u0635\u0644\u0649 \u0627\u0644\u0644\u0647 " ++
      "\u0639\u0644\u064a\u0647 \u0648\u0633\u0644\u0645"),
   (0xFDFB, "\u062c\u0644 \u062c\u0644\u0627\u0644\u0647")]

def letterIn (n : Nat) (run : Nat × String) : Option (List Char) :=
  if run.1 ≤ n then (run.2.toList[n - run.1]?).map ([·]) else none

/-- The plain characters that `c` stands for. -/
def decompose (c : Char) : List Char :=
  let n := c.toNat
  if n < 0x80 then [c]
  else if spaces.contains n then [' ']
  else
    ((letterRuns.findSome? (letterIn n)).orElse fun _ =>
      ((ligatures.lookup n).map String.toList).orElse fun _ =>
        ((spacedMarks.lookup n).map fun marks => ' ' :: marks.toList).orElse fun _ =>
          (phrases.lookup n).map String.toList).getD [c]

/-- The text with every character replaced by what it stands for. -/
def plain (cs : List Char) : List Char :=
  cs.flatMap decompose

end HardwareSigner.Text
