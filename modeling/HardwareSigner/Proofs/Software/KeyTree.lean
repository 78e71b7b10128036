import HardwareSigner.Proofs.PathText
import HardwareSigner.Proofs.Secp256k1.Base
import HardwareSigner.Software.Wallet
/-!
The tree of keys that a seed stands for, in plain numbers and with public keys as elements of the
group.  A wallet in software has the keys of this tree, and fails where the tree has no node.
-/

namespace HardwareSigner

theorem Sha2.length_sha512 (message : Bytes) : (Sha2.sha512 message).length = 64 := by
  unfold sha512 digest State.toBytes
  simp only [List.flatMap_cons, List.flatMap_nil, List.length_append, List.length_nil,
    Suite.toBytes, Bytes.length_ofNat]

theorem Hmac.length_sha512 (key message : Bytes) : (mac .sha512 key message).length = 64 :=
  Sha2.length_sha512 _

theorem Word.bytes_padRight {bs : Bytes} (size : bs.length = 32) : (padRight bs).bytes = bs :=
  List.take_left' size

namespace KeyTree
open Secp256k1

structure Node where
  key : Nat
  chainCode : Bytes

/-- The first half of a digest, which is added to the parent's key. -/
def tweak (digest : Bytes) : Nat :=
  Bytes.toNat (digest.take 32)

/-- What a digest makes of a parent's key. -/
def Node.ofDigest (digest : Bytes) (parent : Nat) : Option Node :=
  if tweak digest < order ∧ (tweak digest + parent) % order ≠ 0 then
    some ⟨(tweak digest + parent) % order, digest.drop 32⟩
  else none

/-- Why a digest makes no node. -/
def Spoils (digest : Bytes) (parent : Nat) : DerivationFault → Prop
  | .tweakOutOfRange => order ≤ tweak digest
  | .zeroKey => tweak digest < order ∧ (tweak digest + parent) % order = 0
  | _ => False

def rootDigest (seed : Bytes) : Bytes :=
  Hmac.mac .sha512 (Bytes.ofString "Bitcoin seed") seed

/-- The abscissa of a point behind a mark for the parity of its ordinate. -/
def shortForm : curve.Point → Bytes
  | .zero => [0x00]
  | .some x y _ => (if y.val % 2 = 0 then 0x02 else 0x03) :: Bytes.ofNat 32 x.val

/-- Both coordinates of a point behind another mark. -/
def longForm : curve.Point → Bytes
  | .zero => [0x00]
  | .some x y _ => 0x04 :: (Bytes.ofNat 32 x.val ++ Bytes.ofNat 32 y.val)

noncomputable section

/-- What a child's digest is taken of: the key itself from the index `2 ^ 31` on, and the public
key below. -/
def childMessage (key : Nat) (index : UInt32) : Bytes :=
  if 2 ^ 31 ≤ index.toNat then 0x00 :: (Bytes.ofNat 32 key ++ Bytes.ofNat 4 index.toNat)
  else shortForm (key • base) ++ Bytes.ofNat 4 index.toNat

def Node.digest (node : Node) (index : UInt32) : Bytes :=
  Hmac.mac .sha512 node.chainCode (childMessage node.key index)

def ckdPriv (node : Node) (index : UInt32) : Option Node :=
  Node.ofDigest (node.digest index) node.key

/-- The node that a seed has at a list of indices. -/
def node? (seed : Bytes) (indices : List UInt32) : Option Node :=
  (Node.ofDigest (rootDigest seed) 0).bind fun root => indices.foldlM ckdPriv root

/-- On the way from a node there is one that has no child at the next index. -/
def Stops (start : Node) (indices : List UInt32) (fault : DerivationFault) : Prop :=
  ∃ front index rest last, indices = front ++ index :: rest ∧
    front.foldlM ckdPriv start = some last ∧ Spoils (last.digest index) last.key fault

end

theorem node?_append (seed : Bytes) (front rest : List UInt32) :
    node? seed (front ++ rest) = (node? seed front).bind fun node => rest.foldlM ckdPriv node := by
  simp only [node?, List.foldlM_append, Option.bind_assoc]
  rfl

theorem exists_stops_iff {seed : Bytes} {indices : List UInt32} {fault : DerivationFault} :
    (∃ root, Node.ofDigest (rootDigest seed) 0 = some root ∧ Stops root indices fault) ↔
      ∃ front index rest last, indices = front ++ index :: rest ∧ node? seed front = some last ∧
        Spoils (last.digest index) last.key fault := by
  constructor
  · rintro ⟨root, grown, front, index, rest, last, split, reached, spoils⟩
    refine ⟨front, index, rest, last, split, ?_, spoils⟩
    rw [node?, grown]
    exact reached
  · rintro ⟨front, index, rest, last, split, reached, spoils⟩
    obtain ⟨root, grown, below⟩ := Option.bind_eq_some_iff.mp reached
    exact ⟨root, grown, front, index, rest, last, split, below, spoils⟩

theorem length_shortForm (key : SecretKey) : (shortForm (key.scalar • base)).length = 33 := by
  obtain ⟨x, y, on, point, -⟩ := exists_nsmul_base key.pos key.lt
  rw [point, shortForm, List.length_cons, Bytes.length_ofNat]

theorem shortForm_nsmul (key : SecretKey) :
    shortForm (key.scalar • base) = key.publicKey.compressed := by
  obtain ⟨x, y, on, point, -⟩ := exists_nsmul_base key.pos key.lt
  rw [PublicKey.compressed, publicKey_point, point]
  rfl

theorem longForm_nsmul (key : SecretKey) :
    longForm (key.scalar • base) = key.publicKey.uncompressed := by
  obtain ⟨x, y, on, point, -⟩ := exists_nsmul_base key.pos key.lt
  rw [PublicKey.uncompressed, publicKey_point, point]
  rfl

theorem length_childMessage (key : SecretKey) (index : UInt32) :
    (childMessage key.scalar index).length = 37 := by
  unfold childMessage
  split
  · rw [List.length_cons, List.length_append, Bytes.length_ofNat, Bytes.length_ofNat]
  · rw [List.length_append, length_shortForm, Bytes.length_ofNat]

theorem not_stops_nil (start : Node) (fault : DerivationFault) : ¬ Stops start [] fault := by
  rintro ⟨front, index, rest, last, split, -⟩
  exact List.append_ne_nil_of_right_ne_nil front (List.cons_ne_nil index rest) split.symm

theorem stops_cons {start : Node} {first : UInt32} {indices : List UInt32}
    {fault : DerivationFault} :
    Stops start (first :: indices) fault ↔ Spoils (start.digest first) start.key fault ∨
      ∃ next, ckdPriv start first = some next ∧ Stops next indices fault := by
  constructor
  · rintro ⟨front, index, rest, last, split, reached, spoils⟩
    cases front with
    | nil =>
        cases split
        cases reached
        exact .inl spoils
    | cons step front =>
        cases split
        rw [List.foldlM_cons] at reached
        obtain ⟨next, stepped, reached⟩ := Option.bind_eq_some_iff.mp reached
        exact .inr ⟨next, stepped, front, index, rest, last, rfl, reached, spoils⟩
  · rintro (spoils | ⟨next, stepped, front, index, rest, last, rfl, reached, spoils⟩)
    · exact ⟨[], first, indices, start, rfl, rfl, spoils⟩
    · refine ⟨first :: front, index, rest, last, rfl, ?_, spoils⟩
      rw [List.foldlM_cons, stepped]
      exact reached

end KeyTree

namespace ExtendedKey
open Secp256k1 KeyTree

def plain (node : ExtendedKey) : Node :=
  ⟨node.key.scalar, node.chainCode.bytes⟩

theorem ofDigest_cases (digest : Bytes) (parent : Nat) :
    (order ≤ tweak digest ∧ ofDigest digest parent = .error .tweakOutOfRange) ∨
    (tweak digest < order ∧ (tweak digest + parent) % order = 0 ∧
      ofDigest digest parent = .error .zeroKey) ∨
    (tweak digest < order ∧ ∃ key : SecretKey, key.scalar = (tweak digest + parent) % order ∧
      ofDigest digest parent = .ok ⟨key, .padRight (digest.drop 32)⟩) := by
  unfold ofDigest tweak
  -- As a variable, so that no step tries to compute a hash.
  generalize Bytes.toNat (digest.take 32) = t
  dsimp only
  by_cases fits : order ≤ t
  · exact .inl ⟨fits, if_pos fits⟩
  rw [if_neg fits]
  have low : t < order := Nat.not_le.mp fits
  by_cases zero : (t + parent) % order = 0
  · have absent : SecretKey.ofNat? ((t + parent) % order) = none :=
      dif_neg fun inside => inside.1.ne' zero
    rw [absent]
    exact .inr (.inl ⟨low, zero, rfl⟩)
  · have inside := And.intro (Nat.pos_of_ne_zero zero) (Nat.mod_lt (t + parent) order_pos)
    rw [SecretKey.ofNat?, dif_pos inside]
    exact .inr (.inr ⟨low, ⟨_, inside.1, inside.2⟩, rfl, rfl⟩)

theorem ofDigest_plain {digest : Bytes} (size : digest.length = 64) (parent : Nat) :
    (ofDigest digest parent).toOption.map plain = Node.ofDigest digest parent := by
  have half : (digest.drop 32).length = 32 := by
    rw [List.length_drop, size]
  rcases ofDigest_cases digest parent with
    ⟨large, failed⟩ | ⟨-, zero, failed⟩ | ⟨fits, key, eq, made⟩
  · rw [failed, Node.ofDigest, if_neg fun fits => Nat.not_lt.mpr large fits.1]
    rfl
  · rw [failed, Node.ofDigest, if_neg fun fits => fits.2 zero]
    rfl
  · rw [made, Node.ofDigest, if_pos ⟨fits, eq ▸ key.pos.ne'⟩, ← eq]
    exact congrArg (fun code => some (Node.mk key.scalar code)) (Word.bytes_padRight half)

theorem ofDigest_error_iff {digest : Bytes} {parent : Nat} {fault : DerivationFault} :
    ofDigest digest parent = .error fault ↔ Spoils digest parent fault := by
  rcases ofDigest_cases digest parent with
    ⟨large, failed⟩ | ⟨fits, zero, failed⟩ | ⟨fits, key, eq, made⟩
  · rw [failed]
    cases fault with
    | tweakOutOfRange => exact iff_of_true rfl large
    | zeroKey => exact iff_of_false nofun fun spoils => Nat.not_lt.mpr large spoils.1
    | _ => exact iff_of_false nofun nofun
  · rw [failed]
    cases fault with
    | tweakOutOfRange => exact iff_of_false nofun (Nat.not_le.mpr fits)
    | zeroKey => exact iff_of_true rfl ⟨fits, zero⟩
    | _ => exact iff_of_false nofun nofun
  · rw [made]
    cases fault with
    | tweakOutOfRange => exact iff_of_false nofun (Nat.not_le.mpr fits)
    | zeroKey => exact iff_of_false nofun fun spoils => key.pos.ne' (eq.trans spoils.2)
    | _ => exact iff_of_false nofun nofun

theorem childMessage_eq (node : ExtendedKey) (index : UInt32) :
    childMessage node.key.scalar index = node.childData index := by
  rw [childMessage, childData]
  by_cases hardened : 2 ^ 31 ≤ index.toNat
  · rw [if_pos hardened, if_pos (Path.isHardened_iff.mpr hardened)]
    rfl
  · rw [if_neg hardened, if_neg (mt Path.isHardened_iff.mp hardened), shortForm_nsmul]

theorem digest_plain (node : ExtendedKey) (index : UInt32) :
    node.plain.digest index = Hmac.mac .sha512 node.chainCode.bytes (node.childData index) := by
  rw [← childMessage_eq]
  rfl

theorem child_plain (node : ExtendedKey) (index : UInt32) :
    (node.child index).toOption.map plain = ckdPriv node.plain index := by
  rw [child, ofDigest_plain (Hmac.length_sha512 _ _), ckdPriv, digest_plain]
  rfl

theorem child_error_iff {node : ExtendedKey} {index : UInt32} {fault : DerivationFault} :
    node.child index = .error fault ↔
      Spoils (node.plain.digest index) node.plain.key fault := by
  rw [child, ofDigest_error_iff, digest_plain]
  rfl

/-- Going down a path is the fold over it. -/
theorem descend_plain (node : ExtendedKey) (indices : List UInt32) :
    (node.descend indices).toOption.map plain = indices.foldlM ckdPriv node.plain := by
  induction indices generalizing node with
  | nil => rfl
  | cons index rest ih =>
      rw [List.foldlM_cons, ← child_plain, descend]
      cases node.child index with
      | error fault => rfl
      | ok next => exact ih next

theorem exists_plain {node : ExtendedKey} {indices : List UInt32} {last : Node}
    (reached : indices.foldlM ckdPriv node.plain = some last) :
    ∃ next, node.descend indices = .ok next ∧ next.plain = last := by
  rw [← descend_plain] at reached
  cases descended : node.descend indices with
  | error fault =>
      rw [descended] at reached
      cases reached
  | ok next =>
      rw [descended] at reached
      exact ⟨next, rfl, Option.some.inj reached⟩

theorem descend_error_iff {node : ExtendedKey} {indices : List UInt32} {fault : DerivationFault} :
    node.descend indices = .error fault ↔ Stops node.plain indices fault := by
  induction indices generalizing node with
  | nil => exact iff_of_false nofun (not_stops_nil _ _)
  | cons first indices ih =>
      rw [stops_cons, ← child_error_iff, ← child_plain, descend]
      cases node.child first with
      | error other =>
          refine ⟨.inl, ?_⟩
          rintro (failed | ⟨_, ⟨⟩, _⟩)
          exact failed
      | ok next =>
          refine ih.trans ⟨fun stops => .inr ⟨_, rfl, stops⟩, ?_⟩
          rintro (failed | ⟨_, ⟨⟩, stops⟩)
          · cases failed
          · exact stops

theorem descend_append (node : ExtendedKey) (front rest : List UInt32) :
    node.descend (front ++ rest) = (node.descend front).bind (·.descend rest) := by
  induction front generalizing node with
  | nil => rfl
  | cons index front ih =>
      rw [List.cons_append, descend, descend]
      cases node.child index with
      | error fault => rfl
      | ok next => exact ih next

theorem derive_append (node : ExtendedKey) (front rest : List UInt32) :
    node.derive ⟨front ++ rest⟩ = (node.descend front).bind (·.derive ⟨rest⟩) := by
  rw [derive, descend_append]
  cases node.descend front <;> rfl

theorem master_plain (seed : Bytes) :
    (master seed).toOption.map plain = Node.ofDigest (rootDigest seed) 0 :=
  ofDigest_plain (Hmac.length_sha512 _ _) 0

theorem master_error_iff {seed : Bytes} {fault : DerivationFault} :
    master seed = .error fault ↔ Spoils (rootDigest seed) 0 fault :=
  ofDigest_error_iff

theorem derive_plain (node : ExtendedKey) (path : Path) :
    (node.derive path).toOption.map SecretKey.scalar =
      (path.indices.foldlM ckdPriv node.plain).map Node.key := by
  rw [derive, ← descend_plain]
  cases node.descend path.indices <;> rfl

/-- A seed's tree is the one below the root that is grown from the seed. -/
theorem node?_of_master {seed : Bytes} {root : ExtendedKey} (grown : master seed = .ok root)
    (indices : List UInt32) : node? seed indices = indices.foldlM ckdPriv root.plain := by
  rw [node?, ← master_plain, grown]
  rfl

/-- The public key at a path is that of the node there. -/
theorem uncompressed_derive {seed : Bytes} {root : ExtendedKey} (grown : master seed = .ok root)
    (path : Path) :
    (root.derive path).toOption.map (fun key => key.publicKey.uncompressed) =
      (node? seed path.indices).map fun node => longForm (node.key • base) := by
  have keys := congrArg (Option.map fun n => longForm (n • base)) (root.derive_plain path)
  rw [← node?_of_master grown, Option.map_map, Option.map_map] at keys
  simp only [Function.comp_def, longForm_nsmul] at keys
  exact keys

theorem derive_error_iff {node : ExtendedKey} {path : Path} {fault : DerivationFault} :
    node.derive path = .error fault ↔ Stops node.plain path.indices fault := by
  rw [← descend_error_iff, derive]
  cases node.descend path.indices with
  | error other => simp only [Except.map, Except.error.injEq]
  | ok next => exact iff_of_false nofun nofun

end ExtendedKey

namespace SoftwareWallet
open KeyTree

/-- The key of a wallet at a path is that of the node below the wallet's root. -/
theorem keyAt_plain (w : SoftwareWallet) (path : Path) :
    (w.keyAt path).toOption.map SecretKey.scalar =
      (path.indices.foldlM ckdPriv w.master.plain).map Node.key := by
  rw [← w.master.derive_plain, keyAt]
  cases w.master.derive path <;> rfl

/-- The key that a wallet grown from a seed has at a path. -/
def keyOf (seed : Bytes) (path : Path) : Except Error SecretKey :=
  (ofSeed seed).bind fun w => w.keyAt path

theorem keyOf_eq (seed : Bytes) (path : Path) :
    keyOf seed path = ((ExtendedKey.master seed).bind fun root => root.derive path).mapError
      fun fault => .keyDerivation (.known fault) := by
  unfold keyOf ofSeed
  cases ExtendedKey.master seed with
  | error fault => rfl
  | ok root =>
      simp only [Except.map, Except.mapError, Except.bind, keyAt]
      cases root.derive path <;> rfl

theorem keyOf_plain (seed : Bytes) (path : Path) :
    (keyOf seed path).toOption.map SecretKey.scalar = (node? seed path.indices).map Node.key := by
  unfold keyOf ofSeed
  cases grown : ExtendedKey.master seed with
  | error fault =>
      rw [node?, ← ExtendedKey.master_plain, grown]
      rfl
  | ok root =>
      rw [ExtendedKey.node?_of_master grown]
      exact keyAt_plain _ path

/-- Of all failures only those of a digest are met. -/
theorem keyOf_error_iff {seed : Bytes} {path : Path} {e : Error} :
    keyOf seed path = .error e ↔ ∃ fault, e = .keyDerivation (.known fault) ∧
      (Spoils (rootDigest seed) 0 fault ∨
        ∃ root, Node.ofDigest (rootDigest seed) 0 = some root ∧ Stops root path.indices fault) := by
  rw [keyOf_eq, ← ExtendedKey.master_plain]
  simp only [← ExtendedKey.master_error_iff]
  cases ExtendedKey.master seed with
  | error other =>
      constructor
      · rintro ⟨⟩
        exact ⟨other, rfl, .inl rfl⟩
      · rintro ⟨fault, rfl, same | ⟨_, ⟨⟩, _⟩⟩
        cases same
        rfl
  | ok root =>
      simp only [Except.bind]
      constructor
      · intro failed
        cases derived : root.derive path with
        | error fault =>
            rw [derived] at failed
            cases failed
            exact ⟨fault, rfl, .inr ⟨_, rfl, ExtendedKey.derive_error_iff.mp derived⟩⟩
        | ok key =>
            rw [derived] at failed
            cases failed
      · rintro ⟨fault, rfl, failed | ⟨_, ⟨⟩, stops⟩⟩
        · cases failed
        rw [ExtendedKey.derive_error_iff.mpr stops]
        rfl

/-- A node of the tree of a seed is that of a wallet's tree. -/
theorem exists_node {seed : Bytes} {indices : List UInt32} {last : Node}
    (reached : node? seed indices = some last) : ∃ node : ExtendedKey, node.plain = last := by
  obtain ⟨root, grown, below⟩ := Option.bind_eq_some_iff.mp reached
  rw [← ExtendedKey.master_plain] at grown
  obtain ⟨node, -, rfl⟩ := Option.map_eq_some_iff.mp grown
  obtain ⟨next, -, same⟩ := ExtendedKey.exists_plain below
  exact ⟨next, same⟩

/-- A seed and a path stand for the key that the tree of the seed has there, and for none just
where a digest on the way spoils the next key.  All keys on the way are in range and are hashed at
their full width.  A path can be gone in two parts. -/
theorem keys_of_seeds_and_paths (seed : Bytes) :
    (∀ path, (keyOf seed path).toOption.map SecretKey.scalar =
      (node? seed path.indices).map Node.key) ∧
    (∀ front rest last, node? seed (front ++ rest) = some last →
      ∃ node, node? seed front = some node ∧ 0 < node.key ∧ node.key < Secp256k1.order ∧
        node.chainCode.length = 32 ∧ ∀ index, (childMessage node.key index).length = 37) ∧
    (∀ path e, keyOf seed path = .error e ↔ ∃ fault, e = .keyDerivation (.known fault) ∧
      (Spoils (rootDigest seed) 0 fault ∨
        ∃ front index rest last, path.indices = front ++ index :: rest ∧
          node? seed front = some last ∧ Spoils (last.digest index) last.key fault)) ∧
    ∀ (node : ExtendedKey) front rest,
      node.descend (front ++ rest) = (node.descend front).bind (·.descend rest) ∧
      node.derive ⟨front ++ rest⟩ = (node.descend front).bind (·.derive ⟨rest⟩) := by
  refine ⟨keyOf_plain seed, ?_, ?_, fun node front rest =>
    ⟨node.descend_append front rest, node.derive_append front rest⟩⟩
  · intro front rest last reached
    rw [node?_append] at reached
    obtain ⟨node, there, -⟩ := Option.bind_eq_some_iff.mp reached
    obtain ⟨own, rfl⟩ := exists_node there
    exact ⟨own.plain, there, own.key.pos, own.key.lt, own.chainCode.size,
      length_childMessage own.key⟩
  · intro path e
    simp only [keyOf_error_iff, exists_stops_iff]

/-- The seed of thirty-two sevens has a key at `m/44'/0`. -/
theorem exists_node_sevens :
    ∃ node, node? (List.replicate 32 7) [44 ||| Path.hardened, 0] = some node := by
  have found : (keyOf (List.replicate 32 7) ⟨[44 ||| Path.hardened, 0]⟩).toOption.isSome := by
    decide +kernel
  obtain ⟨key, found⟩ := Option.isSome_iff_exists.mp found
  have same := keyOf_plain (List.replicate 32 7) ⟨[44 ||| Path.hardened, 0]⟩
  rw [found] at same
  obtain ⟨node, there, -⟩ := Option.map_eq_some_iff.mp same.symm
  exact ⟨node, there⟩

/-- The key of thirty-two sevens at `m/44'/0` is in range, and hashed at its full width. -/
theorem keys_of_seeds_and_paths_sevens :
    let seed : Bytes := List.replicate 32 7
    let path : Path := ⟨[44 ||| Path.hardened, 0]⟩
    ∃ node, node? seed path.indices = some node ∧ 0 < node.key ∧ node.key < Secp256k1.order ∧
      node.chainCode.length = 32 ∧ ∀ index, (childMessage node.key index).length = 37 := by
  intro seed path
  obtain ⟨-, ranges, -⟩ := keys_of_seeds_and_paths seed
  obtain ⟨last, there⟩ := exists_node_sevens
  exact ranges path.indices [] last there

end SoftwareWallet

end HardwareSigner
