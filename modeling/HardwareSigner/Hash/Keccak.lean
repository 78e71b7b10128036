import HardwareSigner.Bytes
/-! Keccak-256 with the padding that Ethereum kept from the first submission. -/

namespace HardwareSigner.Keccak

/-- Five lanes. -/
structure Row where
  a : UInt64
  b : UInt64
  c : UInt64
  d : UInt64
  e : UInt64

namespace Row

def zero : Row := ⟨0, 0, 0, 0, 0⟩

@[inline] def zipWith (f : UInt64 → UInt64 → UInt64) (r s : Row) : Row :=
  ⟨f r.a s.a, f r.b s.b, f r.c s.c, f r.d s.d, f r.e s.e⟩

def add (r s : Row) : Row :=
  zipWith (· ^^^ ·) r s

def toList (r : Row) : List UInt64 :=
  [r.a, r.b, r.c, r.d, r.e]

/-- The next five lanes of a list, and those that follow. -/
def split : List UInt64 → Row × List UInt64
  | a :: b :: c :: d :: e :: rest => (⟨a, b, c, d, e⟩, rest)
  | _ => (zero, [])

end Row

/-- Five rows. -/
structure State where
  p : Row
  q : Row
  r : Row
  s : Row
  t : Row

namespace State

def zero : State := ⟨.zero, .zero, .zero, .zero, .zero⟩

def add (x y : State) : State :=
  ⟨x.p.add y.p, x.q.add y.q, x.r.add y.r, x.s.add y.s, x.t.add y.t⟩

def toList (x : State) : List UInt64 :=
  x.p.toList ++ x.q.toList ++ x.r.toList ++ x.s.toList ++ x.t.toList

/-- The rows of twenty-five lanes. -/
def ofList (lanes : List UInt64) : State :=
  let (p, lanes) := Row.split lanes
  let (q, lanes) := Row.split lanes
  let (r, lanes) := Row.split lanes
  let (s, lanes) := Row.split lanes
  ⟨p, q, r, s, (Row.split lanes).1⟩

end State

def rotate (x : UInt64) (n : UInt64) : UInt64 :=
  (x <<< n) ||| (x >>> (64 - n))

/-- Each lane is mixed with the parity of two neighbouring columns. -/
def theta (x : State) : State :=
  let parity := x.p.add (x.q.add (x.r.add (x.s.add x.t)))
  let mask : Row :=
    ⟨parity.e ^^^ rotate parity.b 1, parity.a ^^^ rotate parity.c 1,
     parity.b ^^^ rotate parity.d 1, parity.c ^^^ rotate parity.e 1,
     parity.d ^^^ rotate parity.a 1⟩
  ⟨x.p.add mask, x.q.add mask, x.r.add mask, x.s.add mask, x.t.add mask⟩

def rho (x : State) : State :=
  ⟨x.p.zipWith rotate ⟨0, 1, 62, 28, 27⟩, x.q.zipWith rotate ⟨36, 44, 6, 55, 20⟩,
   x.r.zipWith rotate ⟨3, 10, 43, 25, 39⟩, x.s.zipWith rotate ⟨41, 45, 15, 21, 8⟩,
   x.t.zipWith rotate ⟨18, 2, 61, 56, 14⟩⟩

/-- The lanes change places: a new row has one lane of each old row. -/
def pi (x : State) : State :=
  ⟨⟨x.p.a, x.q.b, x.r.c, x.s.d, x.t.e⟩, ⟨x.p.d, x.q.e, x.r.a, x.s.b, x.t.c⟩,
   ⟨x.p.b, x.q.c, x.r.d, x.s.e, x.t.a⟩, ⟨x.p.e, x.q.a, x.r.b, x.s.c, x.t.d⟩,
   ⟨x.p.c, x.q.d, x.r.e, x.s.a, x.t.b⟩⟩

/-- Each lane is mixed with the two lanes after it. -/
def chiRow (r : Row) : Row :=
  ⟨r.a ^^^ (~~~r.b &&& r.c), r.b ^^^ (~~~r.c &&& r.d), r.c ^^^ (~~~r.d &&& r.e),
   r.d ^^^ (~~~r.e &&& r.a), r.e ^^^ (~~~r.a &&& r.b)⟩

def chi (x : State) : State :=
  ⟨chiRow x.p, chiRow x.q, chiRow x.r, chiRow x.s, chiRow x.t⟩

def iota (constant : UInt64) (x : State) : State :=
  { x with p.a := x.p.a ^^^ constant }

def roundConstants : List UInt64 :=
  [0x0000000000000001, 0x0000000000008082, 0x800000000000808A, 0x8000000080008000,
   0x000000000000808B, 0x0000000080000001, 0x8000000080008081, 0x8000000000008009,
   0x000000000000008A, 0x0000000000000088, 0x0000000080008009, 0x000000008000000A,
   0x000000008000808B, 0x800000000000008B, 0x8000000000008089, 0x8000000000008003,
   0x8000000000008002, 0x8000000000000080, 0x000000000000800A, 0x800000008000000A,
   0x8000000080008081, 0x8000000000008080, 0x0000000080000001, 0x8000000080008008]

def round (x : State) (constant : UInt64) : State :=
  iota constant (chi (pi (rho (theta x))))

def permute (x : State) : State :=
  roundConstants.foldl round x

/-- Bytes absorbed between two permutations. -/
def rate : Nat := 136

/-- The message, a one bit, zero bits, and a one bit that ends the last block. -/
def pad (message : Bytes) : Bytes :=
  let free := rate - message.length % rate
  if free = 1 then message ++ [0x81]
  else message ++ [0x01] ++ List.replicate (free - 2) 0 ++ [0x80]

/-- Eight bytes, lowest first. -/
def laneOf (bs : Bytes) : UInt64 :=
  bs.foldr (fun b n => n * 256 + b.toUInt64) 0

def laneBytes (x : UInt64) : Bytes :=
  (List.range 8).map fun i => (x >>> (8 * UInt64.ofNat i)).toUInt8

/-- Mixes a block into the first lanes. -/
def absorb (x : State) (block : Bytes) : State :=
  permute (x.add (.ofList ((blocks 8 block).map laneOf ++ List.replicate 8 0)))

/-- The bytes of the state after the whole message. -/
def squeeze (message : Bytes) : Bytes :=
  ((blocks rate (pad message)).foldl absorb .zero).toList.flatMap laneBytes

/-- The hash: the first thirty-two bytes of the final state. -/
def hash (message : Bytes) : Word :=
  .padRight (squeeze message)

end HardwareSigner.Keccak
