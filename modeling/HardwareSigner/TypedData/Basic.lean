import HardwareSigner.Error
/-! Typed data: a domain, struct definitions, the struct to be signed and its message. -/

namespace HardwareSigner

/-- A member of a struct definition. -/
structure TypedData.Field where
  name : String
  type : String
  deriving DecidableEq

/-- What keeps signatures for one application apart from those for another. -/
structure TypedData.Domain where
  name : Option String
  version : Option String
  chainId : Option UInt64
  verifyingContract : Option String
  salt : Option String
  deriving DecidableEq

structure TypedData where
  domain : TypedData.Domain
  types : Table (List TypedData.Field)
  primaryType : String
  message : Json
  deriving DecidableEq

namespace TypedData

/-- The reserved name of the struct that the domain is an instance of. -/
def domainType : String := "EIP712Domain"

namespace Domain

def empty : Domain := ⟨none, none, none, none, none⟩

/-- The definition of the domain struct: the components that are set, in the standard order. -/
def typeFields (d : Domain) : List Field :=
  [d.name.map fun _ => Field.mk "name" "string",
   d.version.map fun _ => Field.mk "version" "string",
   d.chainId.map fun _ => Field.mk "chainId" "uint256",
   d.verifyingContract.map fun _ => Field.mk "verifyingContract" "address",
   d.salt.map fun _ => Field.mk "salt" "bytes32"].filterMap id

/-- The components that are set, in the order in which they are declared. -/
def members (d : Domain) : List (String × Json) :=
  [d.name.map fun s => ("name", Json.string s),
   d.version.map fun s => ("version", Json.string s),
   d.chainId.map fun n => ("chainId", Json.ofNat n.toNat n.toNat_lt),
   d.verifyingContract.map fun s => ("verifyingContract", Json.string s),
   d.salt.map fun s => ("salt", Json.string s)].filterMap id

/-- The domain as an instance of its struct. -/
def toJson (d : Domain) : Json :=
  .ofMembers d.members

end Domain

end TypedData

end HardwareSigner
