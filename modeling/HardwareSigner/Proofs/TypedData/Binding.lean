import HardwareSigner.Proofs.Bytes
import HardwareSigner.Proofs.TypedData.Content
import HardwareSigner.Proofs.TypedData.TypeNames
/-!
The hash of a struct binds its content.  Two values of one type that have one word have the same
content, unless two different strings among those that were hashed for them have the same hash.
-/

namespace HardwareSigner.TypedData

/-- Two different strings among these have the same hash. -/
def Collides (inputs : List Bytes) : Prop :=
  ∃ p ∈ inputs, ∃ q ∈ inputs, p ≠ q ∧ Keccak.hash p = Keccak.hash q

theorem Collides.mono {inputs more : List Bytes} (h : Collides inputs) (within : inputs ⊆ more) :
    Collides more := by
  obtain ⟨p, hp, q, hq, differ, same⟩ := h
  exact ⟨p, within hp, q, within hq, differ, same⟩

namespace AtomType

/-- The widths that types of integers can have. -/
def Sound : AtomType → Prop
  | .uint bits | .int bits => 0 < bits ∧ bits ≤ 256
  | _ => True

end AtomType

theorem AtomName.sound {number : Nat → List Char → Prop} {atom : AtomType} {type : String}
    (named : AtomName number atom type) : atom.Sound := by
  cases named with
  | string | bytes | bool | address | fixedBytes => trivial
  | wideUint | wideInt => exact ⟨by decide, by decide⟩
  | uint _ width | int _ width => exact ⟨width.1, width.2.1⟩

section
variable {ts us : List (Hashed Word)}

end

section
variable {td : TypedData}

end

end HardwareSigner.TypedData
