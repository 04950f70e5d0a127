import ObjectBridge.Class.Basic
import ObjectBridge.Heap.Buckets

set_option autoImplicit false

/-!
# The heap of foreign objects (SPEC §3, §11.1)

An object has a class, a count of the claims on it and a payload.  The heap gives every object an
identity of its own; an identity whose object has been destroyed stays unused.

Left out: addresses, and the atomicity of counts.  A count is a word of 32 bits, as specified.
-/

namespace ObjectBridge

/-- What an object carries. -/
inductive Payload where
  | unit
  | byte
  | word
  | block
  | tracked (label : String)
  | zombie
  | string (text : String)
  | blob (bytes : List UInt8)
  | byteBuf (bytes : List UInt8)
  | integer (value : Int64)
  | float (bits : UInt64)
  | boolean (value : Bool)
  | vector (elems : List (Option ObjId))
  | hash (buckets : Buckets)
  | err (message : String)
  deriving DecidableEq, Repr, Inhabited

namespace Payload

/-- The layout of a payload. -/
def layout : Payload → Layout
  | unit => .unit
  | byte => .byte
  | word => .word
  | block => .block
  | tracked _ => .tracked
  | zombie => .zombie
  | string _ => .string
  | blob _ => .blob
  | byteBuf _ => .byteBuf
  | integer _ => .integer
  | float _ => .float
  | boolean _ => .boolean
  | vector _ => .vector
  | hash _ => .hash
  | err _ => .err

/-- The text of a string. -/
def string? : Payload → Option String
  | string text => some text
  | _ => none

/-- The bytes of a blob. -/
def blob? : Payload → Option (List UInt8)
  | blob bytes => some bytes
  | _ => none

/-- The bytes of a byte buffer. -/
def byteBuf? : Payload → Option (List UInt8)
  | byteBuf bytes => some bytes
  | _ => none

/-- The number of an integer. -/
def integer? : Payload → Option Int64
  | integer value => some value
  | _ => none

/-- The bits of a float. -/
def float? : Payload → Option UInt64
  | float bits => some bits
  | _ => none

/-- The truth value of a boolean. -/
def boolean? : Payload → Option Bool
  | boolean value => some value
  | _ => none

/-- The elements of a vector. -/
def vector? : Payload → Option (List (Option ObjId))
  | vector elems => some elems
  | _ => none

/-- The buckets of a hash. -/
def hash? : Payload → Option Buckets
  | hash buckets => some buckets
  | _ => none

/-- The message of an error. -/
def err? : Payload → Option String
  | err message => some message
  | _ => none

/-- The claims that an object with this payload holds, in the order in which it gives them back. -/
def claims : Payload → List ObjId
  | vector elems => elems.filterMap id
  | hash buckets => buckets.claims
  | _ => []

end Payload

/-- A foreign object. -/
structure Obj where
  cls : Class
  /-- Claims on the object, modulo 2 ^ 32.  Without meaning for an immortal class. -/
  count : UInt32
  payload : Payload
  deriving DecidableEq, Repr, Inhabited

/-- The count as it is reported: always 1 for an immortal class. -/
def Obj.refcount (o : Obj) : UInt32 := if o.cls.isImmortal then 1 else o.count

/-- Objects by identity. -/
structure Heap where
  slots : List (Option Obj)
  deriving DecidableEq, Repr, Inhabited

namespace Heap

/-- The heap without objects. -/
def empty : Heap := ⟨[]⟩

/-- The live object with identity `o`. -/
def get? (h : Heap) (o : ObjId) : Option Obj := (h.slots[o.index]?).join

/-- Replace the object at a used identity. -/
def set (h : Heap) (o : ObjId) (x : Obj) : Heap := ⟨h.slots.set o.index (some x)⟩

/-- Take an object off the heap. -/
def erase (h : Heap) (o : ObjId) : Heap := ⟨h.slots.set o.index none⟩

/-- The identity of the next object. -/
def next (h : Heap) : ObjId := ⟨h.slots.length⟩

/-- Put a new object on the heap, under the identity `h.next`. -/
def add (h : Heap) (x : Obj) : Heap := ⟨h.slots ++ [some x]⟩

/-- One claim more on `o`, modulo 2 ^ 32.  Claims on objects of immortal classes are not counted. -/
def retain (h : Heap) (o : ObjId) : Heap :=
  match h.get? o with
  | some x => if x.cls.isImmortal then h else h.set o { x with count := x.count + 1 }
  | none => h

/-- Whether `o` is a live string object with the given text. -/
def hasText (h : Heap) (text : String) (o : ObjId) : Bool :=
  (h.get? o).bind (fun x => x.payload.string?) == some text

/-- Replace the payload of a live object. -/
def setPayload (h : Heap) (o : ObjId) (p : Payload) : Heap :=
  match h.get? o with
  | some x => h.set o { x with payload := p }
  | none => h

end Heap

end ObjectBridge
