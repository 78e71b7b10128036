import HardwareSigner.Address
/-! What can be wrong with typed data: a schema's type names, or a value under its type. -/

namespace HardwareSigner.TypedData

inductive Fault where
  | expectedObject (type : String)
  | extraData (type : String) (declared found : Nat)
  | missingField (type name : String)
  | expectedArray (type : String)
  | itemCount (type : String) (declared found : Nat)
  | badArrayType (type : String)
  | badArrayLength (type : String)
  | expectedBool
  | badAddress (fault : Address.Fault)
  | badWidth (type : String)
  | bytesTooLong (size : Nat) (type : String)
  | tooLarge (type : String)
  | outOfRange (type : String)
  | unsupported (type : String)
  | expectedString (type : String)
  | badHexNumeral (text : String)
  | badNumeral (text : String)
  | expectedNumber (value : Json)
  deriving DecidableEq

end HardwareSigner.TypedData
