import ObjectBridge.Session.Show

set_option autoImplicit false

/-!
# Steps on objects and claims (SPEC §4.1, §11.1, §12.1)
-/

namespace ObjectBridge

/-- A new object of a built-in class. -/
inductive Construction where
  | str (text : String)
  | errObj (message : String)
  | blob (bytes : List UInt8)
  | byteBuf (bytes : List UInt8)
  | integer (n : Int64)
  | float (bits : UInt64)
  | boolean (b : Bool)
  | vector (capacity : Nat)
  | hash (capacity : Nat)

/-- Make the object. -/
def Construction.run : Construction → Run ObjId
  | str text => StringObj.new text
  | errObj message => ErrObj.new message
  | blob bytes => BlobObj.new bytes
  | byteBuf bytes => ByteBufObj.new bytes
  | integer n => IntegerObj.new n
  | float bits => FloatObj.new bits
  | boolean b => truth b
  | vector capacity => VectorObj.new capacity
  | hash capacity => HashObj.withCapacity capacity

/-- A step on objects.  Where a variable may be missing, its absence is a null handle. -/
inductive ObjectAction where
  | new (c : Construction)
  | make (cls : String) (payload : Payload)
  | clone (on : String)
  | share (on : Option String)
  | retain (on : String)
  | cloneMany (on : String) (n : Nat)
  | release (on : String)
  | drop (on : String)
  | forget (on : String)
  | rewrap (on : Option String)
  | rewrapNullable (on : Option String)
  | refcount (on : String)
  | classOf (on : String)
  | isA (on cls : String)
  | same (a b : String)
  | hasLayout (on : String) (layout : Layout)
  | certify (on : String) (layout : Layout) (cls : String)
  | debug (on : String)
  | debugAddress (on : String)

/-- Answer with a claim. -/
def answerClaim (o : ObjId) : Step Outcome := do answerWith (← brief o) (.object o)

/-- Answer with a claim, or with null. -/
def answerOptionalClaim : Option ObjId → Step Outcome
  | some o => answerClaim o
  | none => answer .null

/-- Do an object action. -/
def ObjectAction.run : ObjectAction → Step Outcome
  | new c => do answerClaim (← adopt (← c.run))
  | make cls payload => do
    let c ← classNamed cls
    answerClaim (← adopt (← makeObj c payload))
  | clone on => do answerClaim (← claimObject on false)
  | share on => do
    match on with
    | some name => answerClaim (← claimObject name false)
    | none => throw (.ofConversion .nullHandle)
  | retain on => do answerClaim (← claimObject on false)
  | cloneMany on n => do
    let o ← objectAt on
    let claims := List.replicate n o
    claims.forM fun (o : ObjId) => (ObjectBridge.retain o : Run Unit)
    answerWith .null (.bundle claims)
  | release on => do
    let left ← ObjectBridge.release (← takeObject on)
    answer (.count left.toNat)
  | drop on => do
    let x ← slot on
    removeSlot on
    releaseAll x.claims
    answer .null
  | forget on => do
    let o ← takeObject on
    modify fun s => { s with bare := o :: s.bare }
    answer (.flag true)
  | rewrap on => do
    match on with
    | some name => answerClaim (← takeObject name)
    | none => throw (.ofConversion .nullHandle)
  | rewrapNullable on => do
    match on with
    | some name => answerClaim (← takeObject name)
    | none => answer .null
  | refcount on => do answer (.count (← ObjectBridge.refcount (← objectAt on)).toNat)
  | classOf on => do answer (.text (← ObjectBridge.classOf (← objectAt on)).name)
  | isA on cls => do
    let o ← objectAt on
    let c ← classNamed cls
    answer (.flag (← ObjectBridge.isA o c))
  | same a b => do
    let x ← objectAt a
    let y ← objectAt b
    answer (.fields [("same", .flag (x == y)), ("ptr_eq", .flag (x == y))])
  | hasLayout on layout => do
    answer (.flag ((← readObj (← objectAt on)).payload.layout == layout))
  | certify on layout cls => do
    let c ← classNamed cls
    let o ← objectAt on
    (ObjectBridge.certify o c fun p => if p.layout = layout then some () else none : Run Unit)
    answer (.flag true)
  | debug on => do
    let c ← ObjectBridge.classOf (← objectAt on)
    answer (.text (objectTree c.name).compact)
  | debugAddress on => do
    let _ ← objectAt on
    answer (.text ("ObjPtr(" ++ address ++ ")"))

end ObjectBridge
