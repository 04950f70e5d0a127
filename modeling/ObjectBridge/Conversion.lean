import ObjectBridge.Builtin.Hash
import ObjectBridge.Builtin.Vector
import ObjectBridge.Value.Share

set_option autoImplicit false

/-!
# Conversion between host values and foreign objects (SPEC §4.3, §12.3)

`hostToForeign` builds the foreign form of a value: a fixed built-in class for every native kind,
and a new claim on the same object for an object.  `foreignToHost` copies objects of the by-copy
built-ins and of their subclasses, and wraps every other object.

The depth of the second is bounded by the number of identities on the heap, which no chain of
containers without a cycle exceeds; on a cycle it ends in `endless`.

Left out: the instrumentation of SPEC §13.3, which has no effect on answers.
-/

namespace ObjectBridge

/-- Check the class of an object that the caller holds. -/
def checkClass (o : ObjId) (required : Class) : Run (Except ConversionError Unit) := do
  let c ← classOf o
  if c.isSubclassOf required then return .ok ()
  else return .error (.classMismatch c.name required.name)

/-- Check the class of an object that was built for the caller, and give it up if it is the wrong
one. -/
def deliver (o : ObjId) (required : Class) : Run (Except ConversionError (Option ObjId)) := do
  match ← checkClass o required with
  | .ok () => return .ok (some o)
  | .error e =>
    releaseAll [o]
    return .error e

mutual

/-- The foreign form of a value, as an object of the required class (the base class if none is
given).  Null gives no object if it is allowed and an error otherwise.  The answer is a new claim.
-/
def hostToForeign : Value → Option Class → Bool → Run (Except ConversionError (Option ObjId))
  | .null, required, nullable => do
    start
    if nullable then return .ok none else return .error (.null (required.getD .obj).name)
  | .object h, required, _ => do
    start
    match ← checkClass h.obj (required.getD .obj) with
    | .ok () => return .ok (some (← share h.obj))
    | .error e => return .error e
  | .bool b, required, _ => do
    start
    deliver (← adopt (← truth b)) (required.getD .obj)
  | .int n, required, _ => do
    start
    deliver (← adopt (← IntegerObj.new n)) (required.getD .obj)
  | .float bits, required, _ => do
    start
    deliver (← adopt (← FloatObj.new bits)) (required.getD .obj)
  | .text s, required, _ => do
    start
    deliver (← adopt (← StringObj.new s)) (required.getD .obj)
  | .bytes b, required, _ => do
    start
    deliver (← adopt (← BlobObj.new b)) (required.getD .obj)
  | .seq items, required, _ => do
    start
    let vec ← adopt (← VectorObj.new items.length)
    match ← onUnwind (releaseAll [vec]) (fillVector vec items) with
    | .ok () => deliver vec (required.getD .obj)
    | .error e =>
      releaseAll [vec]
      return .error e
  | .map entries, required, _ => do
    start
    let hash ← adopt (← HashObj.new)
    match ← onUnwind (releaseAll [hash]) (fillHash hash entries) with
    | .ok () => deliver hash (required.getD .obj)
    | .error e =>
      releaseAll [hash]
      return .error e

/-- Append the foreign forms of some values to a vector. -/
def fillVector (vec : ObjId) : List Value → Run (Except ConversionError Unit)
  | [] => pure (.ok ())
  | v :: rest => do
    match ← hostToForeign v none true with
    | .ok elem =>
      VectorObj.push vec elem
      fillVector vec rest
    | .error e => return .error e

/-- Store the foreign forms of some values in a hash. -/
def fillHash (hash : ObjId) : List (String × Value) → Run (Except ConversionError Unit)
  | [] => pure (.ok ())
  | (k, v) :: rest => do
    match ← hostToForeign v none true with
    | .ok value =>
      HashObj.store hash k value
      fillHash hash rest
    | .error e => return .error e

end

/-- Convert the members of a list in turn; if one of them unwinds, the values so far are dropped. -/
def convertAll {α : Type} (f : α → Run Value) : List α → Run (List Value)
  | [] => pure []
  | x :: rest => do
    let v ← f x
    let vs ← onUnwind v.drop (convertAll f rest)
    return v :: vs

/-- Convert the entries of a map in turn, a later one replacing an earlier one with the same key;
`done` is what there is so far.  The value that is replaced is dropped, and so are all values so far
if a conversion unwinds. -/
def convertEntries {α : Type} (f : α → Run (String × Value)) :
    List α → List (String × Value) → Run (List (String × Value))
  | [], done => pure done
  | x :: rest, done => do
    let (key, v) ← onUnwind (releaseAll (Value.claimsOfEntries done)) (f x)
    releaseAll (((Assoc.find? key done).map Value.claims).getD [])
    convertEntries f rest (Assoc.insert key v done)

/-- `foreignToHost` through at most `depth` levels of containers. -/
def toHostWithin : Nat → Option ObjId → Run Value
  | _, none => pure .null
  | 0, some _ => throw .endless
  | depth + 1, some o => do
    let c ← classOf o
    if c.isSubclassOf .string then return .text (← StringObj.text o)
    else if c.isSubclassOf .blob then return .bytes (← BlobObj.bytes o)
    else if c.isSubclassOf .byteBuf then return .bytes (← ByteBufObj.bytes o)
    else if c.isSubclassOf .vector then
      let elems ← VectorObj.elements o
      withClaims (elems.filterMap id) do
        return .seq (← convertAll (toHostWithin depth) elems)
    else if c.isSubclassOf .hash then
      let entries ← HashObj.entries o
      withClaims (entries.flatMap HashEntry.claims) do
        let convert (e : HashEntry) : Run (String × Value) := do
          let key ← StringObj.text e.key
          return (key, ← toHostWithin depth e.value)
        return .map (← convertEntries convert entries [])
    else if c.isSubclassOf .float then return .float (← FloatObj.bits o)
    else if c.isSubclassOf .boolean then return .bool (← BooleanObj.value o)
    else if c.isSubclassOf .integer then return .int (← IntegerObj.value o)
    else return .object (← dispatch (← share o))

/-- The host form of an object, or of a null handle.  Borrows a claim on the object. -/
def foreignToHost (o : Option ObjId) : Run Value := do
  toHostWithin (← get).heap.slots.length o

/-! ## Containers with host values as elements -/

namespace VectorObj

/-- Append the foreign form of a value. -/
def pushValue (vec : ObjId) (v : Value) : Run (Except ConversionError Unit) := do
  match ← hostToForeign v none true with
  | .ok elem => return .ok (← push vec elem)
  | .error e => return .error e

/-- Put the foreign form of a value at `tick`. -/
def storeValue (vec : ObjId) (tick : Nat) (v : Value) : Run (Except ConversionError Unit) := do
  match ← hostToForeign v none true with
  | .ok elem => return .ok (← store vec tick elem)
  | .error e => return .error e

/-- The host form of the element at `tick`. -/
def getValue (vec : ObjId) (tick : Nat) : Run Value := do
  let elem ← fetch vec tick
  withClaims elem.toList (foreignToHost elem)

end VectorObj

namespace HashObj

/-- Bind a key to the foreign form of a value. -/
def storeValue (hash : ObjId) (key : String) (v : Value) : Run (Except ConversionError Unit) := do
  match ← hostToForeign v none true with
  | .ok value => return .ok (← store hash key value)
  | .error e => return .error e

/-- The host form of the value of a key. -/
def getValue (hash : ObjId) (key : String) : Run Value := do
  let value ← fetch hash key
  withClaims value.toList (foreignToHost value)

/-- Unbind a key; the answer is the host form of its value. -/
def removeValue (hash : ObjId) (key : String) : Run Value := do
  let value ← delete hash key
  withClaims value.toList (foreignToHost value)

end HashObj

end ObjectBridge
