import ObjectBridge.Session.Expr
import ObjectBridge.Session.ObjectAction

set_option autoImplicit false

/-!
# Calls on wrappers and on bare objects (SPEC §11.3, §12.2)

A method is called on a wrapper: one that the variable holds, or one made for the call from the
object it holds.  A primitive is called on the bare object, whatever its class.
-/

namespace ObjectBridge

open Text (hexBytes hexWord64)

/-- A method of a wrapper. -/
inductive Method where
  | classes
  | text
  | blobBytes
  | appendBytes (bytes : List UInt8)
  | bufferBytes
  | bufferSize
  | integer
  | float
  | boolean
  | push (v : ValueExpr)
  | storeAt (tick : Nat) (v : ValueExpr)
  | fetchAt (tick : Nat)
  | getAt (tick : Nat)
  | vectorSize
  | storeKey (key : String) (v : ValueExpr)
  | fetchKey (key : String)
  | getKey (key : String)
  | containsKey (key : String)
  | removeKey (key : String)
  | hashSize
  | message
  | appendMessage (text : String)

/-- The value that a method takes. -/
def Method.argument? : Method → Option ValueExpr
  | push v => some v
  | storeAt _ v => some v
  | storeKey _ v => some v
  | _ => none

/-- A size and whether it is zero. -/
def sizeReport (n : Nat) : Report := .list [.count n, .flag (n == 0)]

/-- What a method answers: a report, a claim on an object that was asked for, or the claims on all
objects that were asked for with a report of them. -/
inductive Found where
  | report (r : Report)
  | claim (o : Option ObjId)
  | bundle (r : Report) (claims : List ObjId)

/-- Report a value and drop it. -/
def reportValue (v : Value) : Step Report := do
  let r := v.report (← get)
  v.drop
  return r

/-- Call a method of the wrapper `w` on the object `o`; `v` is the value that it takes. -/
def Method.call (w : Wrapper) (o : ObjId) (v : Value) : Method → Step Found
  | classes => do
    let required ← w.foreignClass
    return .report (.texts [(← classOf o).name, required.name])
  | text => do return .report (.text (← StringObj.text o))
  | blobBytes => do return .report (.text (hexBytes (← BlobObj.bytes o)))
  | appendBytes bytes => do
    (ByteBufObj.append o bytes : Run Unit)
    return .report (.count (← ByteBufObj.size o))
  | bufferBytes => do return .report (.text (hexBytes (← ByteBufObj.bytes o)))
  | bufferSize => do return .report (sizeReport (← ByteBufObj.size o))
  | integer => do return .report (.text (toString (← IntegerObj.value o).toInt))
  | float => do return .report (.text (hexWord64 (← FloatObj.bits o)))
  | boolean => do return .report (.flag (← BooleanObj.value o))
  | push _ => do
    orFail .ofConversion (VectorObj.pushValue o v)
    return .report (.count (← VectorObj.size o))
  | storeAt tick _ => do
    orFail .ofConversion (VectorObj.storeValue o tick v)
    return .report (.count (← VectorObj.size o))
  | fetchAt tick => do return .claim (← VectorObj.fetch o tick)
  | getAt tick => do return .report (← reportValue (← VectorObj.getValue o tick))
  | vectorSize => do return .report (sizeReport (← VectorObj.size o))
  | storeKey key _ => do
    orFail .ofConversion (HashObj.storeValue o key v)
    return .report (.count (← HashObj.size o))
  | fetchKey key => do return .claim (← HashObj.fetch o key)
  | getKey key => do return .report (← reportValue (← HashObj.getValue o key))
  | containsKey key => do return .report (.flag (← HashObj.contains o key))
  | removeKey key => do return .report (← reportValue (← HashObj.removeValue o key))
  | hashSize => do return .report (sizeReport (← HashObj.size o))
  | message => do return .report (.text (← ErrObj.message o))
  | appendMessage more => do
    (ErrObj.append o more : Run Unit)
    return .report (.text (← ErrObj.message o))

/-- The claim of the wrapper that a call goes through: none if the variable holds another wrapper.
-/
def wrapperClaim (w : Wrapper) (on : String) : Step (Option ObjId) := do
  match ← slot on with
  | .object o => return some (← orFail .ofConversion (do w.wrap (← share o))).obj
  | x =>
    match x.host? with
    | some h => if h.wrapper = w then return some (← share h.obj) else return none
    | none => throw .notObject

/-- The outcome of a call from what it found. -/
def Found.answer : Found → Step Outcome
  | report r => ObjectBridge.answer r
  | claim o => answerOptionalClaim o
  | bundle r claims => answerWith r (.bundle claims)

/-- Call a method on a variable.  The value that it takes is evaluated first, and the wrapper is
given up before an object that was asked for is reported. -/
def callMethod (on : String) (w : Wrapper) (m : Method) : Step Outcome := do
  let v ← (m.argument?.getD .null).eval
  let found ← withClaims v.claims do
    match ← wrapperClaim w on with
    | none => return Found.report (.text "downcast failed")
    | some o => withClaims [o] (m.call w o v)
  found.answer

/-- A function on bare objects.  An element is the variable of an object, or null. -/
inductive Primitive where
  | stringText
  | stringSize
  | stringEquals (other : String)
  | stringChecksum
  | blobBytes
  | blobSize
  | bufferBytes
  | bufferAppend (bytes : List UInt8)
  | bufferSize
  | bufferIsEmpty
  | integer
  | float
  | boolean
  | vectorPush (elem : Option String)
  | vectorStore (tick : Nat) (elem : Option String)
  | vectorFetch (tick : Nat)
  | vectorSize
  | vectorElements
  | hashStore (key : String) (elem : Option String)
  | hashFetch (key : String)
  | hashContains (key : String)
  | hashDelete (key : String)
  | hashSize
  | hashEntries
  | errMessage
  | errAppend (text : String)

/-- The claim that is handed over with an element. -/
def elementClaim (move : Bool) : Option String → Step (Option ObjId)
  | some name => return some (← claimObject name move)
  | none => return none

/-- A key text with reports of its key object and value object. -/
def entryReport (e : HashEntry) : Run (String × Report) := do
  let key ← StringObj.text e.key
  let k ← brief e.key
  let v ← optionalBrief e.value
  return (key, .list [.text key, k, v])

/-- Call a primitive on the object `o`; elements are moved out of their variables if `move`. -/
def Primitive.call (o : ObjId) (move : Bool) : Primitive → Step Found
  | stringText => do return .report (.text (← StringObj.text o))
  | stringSize => do return .report (.count (← StringObj.size o))
  | stringEquals other => do return .report (.flag (← StringObj.equals o other))
  | stringChecksum => do return .report (.text (toString (← StringObj.checksum o).toNat))
  | blobBytes => do return .report (.text (hexBytes (← BlobObj.bytes o)))
  | blobSize => do return .report (.count (← BlobObj.size o))
  | bufferBytes => do return .report (.text (hexBytes (← ByteBufObj.bytes o)))
  | bufferAppend bytes => do
    (ByteBufObj.append o bytes : Run Unit)
    return .report .null
  | bufferSize => do return .report (.count (← ByteBufObj.size o))
  | bufferIsEmpty => do return .report (.flag ((← ByteBufObj.size o) == 0))
  | integer => do return .report (.text (toString (← IntegerObj.value o).toInt))
  | float => do return .report (.text (hexWord64 (← FloatObj.bits o)))
  | boolean => do return .report (.flag (← BooleanObj.value o))
  | vectorPush elem => do
    let e ← elementClaim move elem
    (VectorObj.push o e : Run Unit)
    return .report .null
  | vectorStore tick elem => do
    let e ← elementClaim move elem
    (VectorObj.store o tick e : Run Unit)
    return .report .null
  | vectorFetch tick => do return .claim (← VectorObj.fetch o tick)
  | vectorSize => do return .report (.count (← VectorObj.size o))
  | vectorElements => do
    let elems ← VectorObj.elements o
    let claims := elems.filterMap id
    let reports ← onUnwind (releaseAll claims) do
      elems.mapM fun e => (optionalBrief e : Run Report)
    return .bundle (.list reports) claims
  | hashStore key elem => do
    let e ← elementClaim move elem
    (HashObj.store o key e : Run Unit)
    return .report .null
  | hashFetch key => do return .claim (← HashObj.fetch o key)
  | hashContains key => do return .report (.flag (← HashObj.contains o key))
  | hashDelete key => do return .claim (← HashObj.delete o key)
  | hashSize => do return .report (.count (← HashObj.size o))
  | hashEntries => do
    let entries ← HashObj.entries o
    let claims := entries.flatMap HashEntry.claims
    let rows ← onUnwind (releaseAll claims) do
      entries.mapM fun e => (entryReport e : Run (String × Report))
    return .bundle (.list ((sortByKey rows).map Prod.snd)) claims
  | errMessage => do return .report (.text (← ErrObj.message o))
  | errAppend text => do
    (ErrObj.append o text : Run Unit)
    return .report .null

/-- Call a primitive on a variable. -/
def callPrimitive (on : String) (move : Bool) (p : Primitive) : Step Outcome := do
  let o ← objectAt on
  (← p.call o move).answer

end ObjectBridge
