import ObjectBridge.Heap.Buckets

set_option autoImplicit false

/-!
# Errors of the bridge (SPEC §7, §13.1)

What a call on the host side may report.  A foreign exception becomes an error of the host only when
it is trapped; a class without a wrapper is no error of this kind but a fault of the host program.
-/

namespace ObjectBridge

/-- A value or object of the wrong kind. -/
inductive ConversionError where
  /-- a null handle where an object is needed -/
  | nullHandle
  /-- a null value where an object of the named class is needed -/
  | null (required : String)
  /-- an object that does not descend from the required class -/
  | classMismatch (found required : String)
  /-- a host value of another kind than the one asked for -/
  | typeMismatch (expected actual : String)
  deriving DecidableEq, Repr

/-- The text of a conversion error. -/
def ConversionError.message : ConversionError → String
  | nullHandle => "cannot wrap a null handle"
  | null required => s!"{required} required, but value was null"
  | classMismatch found required => s!"invalid type: expected {required}, found {found}"
  | typeMismatch expected actual => s!"type mismatch: expected {expected}, got {actual}"

/-- An integer that does not fit the target type. -/
structure RangeError where
  value : Int
  target : String
  deriving DecidableEq, Repr

/-- The text of a range error. -/
def RangeError.message (e : RangeError) : String :=
  s!"integer overflow: {e.value} doesn't fit in {e.target}"

/-- A foreign exception that was trapped: a claim on its object, and its message at that time. -/
structure TrappedError where
  message : String
  err : ObjId
  deriving DecidableEq, Repr

/-- Any error that a bridge call reports. -/
inductive BridgeError where
  | conversion (e : ConversionError)
  | range (e : RangeError)
  | trapped (e : TrappedError)
  deriving DecidableEq, Repr

/-- The text of an error, which is the text of its cause. -/
def BridgeError.message : BridgeError → String
  | conversion e => e.message
  | range e => e.message
  | trapped e => e.message

/-- The claims that an error carries. -/
def BridgeError.claims : BridgeError → List ObjId
  | trapped e => [e.err]
  | conversion _ | range _ => []

end ObjectBridge
