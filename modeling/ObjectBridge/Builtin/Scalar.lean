import ObjectBridge.Bridge.Startup

set_option autoImplicit false

/-!
# Built-in objects without claims (SPEC §11.3)

Texts, byte strings, byte buffers, integers, floats and truth values.  Constructors answer a new
claim; the other functions borrow one, and raise if the object is of another class or layout.
-/

namespace ObjectBridge

namespace StringObj

/-- A new string object. -/
def new (text : String) : Run ObjId := makeObj .string (.string text)

/-- The text of a string object. -/
def text (o : ObjId) : Run String := certify o .string Payload.string?

/-- Length in bytes of the UTF-8 form. -/
def size (o : ObjId) : Run Nat := do return (← text o).utf8ByteSize

/-- Whether a string object has the given text. -/
def equals (o : ObjId) (other : String) : Run Bool := do return (← text o) == other

/-- The checksum by which a hash would group this text as a key. -/
def checksum (o : ObjId) : Run UInt64 := do
  let t ← text o
  return (← get).keySum t

end StringObj

namespace BlobObj

/-- A new blob. -/
def new (bytes : List UInt8) : Run ObjId := makeObj .blob (.blob bytes)

/-- The bytes of a blob. -/
def bytes (o : ObjId) : Run (List UInt8) := certify o .blob Payload.blob?

/-- Number of bytes. -/
def size (o : ObjId) : Run Nat := do return (← bytes o).length

end BlobObj

namespace ByteBufObj

/-- A new byte buffer. -/
def new (bytes : List UInt8) : Run ObjId := makeObj .byteBuf (.byteBuf bytes)

/-- The bytes of a byte buffer. -/
def bytes (o : ObjId) : Run (List UInt8) := certify o .byteBuf Payload.byteBuf?

/-- Number of bytes. -/
def size (o : ObjId) : Run Nat := do return (← bytes o).length

/-- Append bytes. -/
def append (o : ObjId) (more : List UInt8) : Run Unit := do
  setPayload o (.byteBuf ((← bytes o) ++ more))

end ByteBufObj

namespace IntegerObj

/-- A new integer object. -/
def new (value : Int64) : Run ObjId := makeObj .integer (.integer value)

/-- The number of an integer object. -/
def value (o : ObjId) : Run Int64 := certify o .integer Payload.integer?

end IntegerObj

namespace FloatObj

/-- A new float object. -/
def new (bits : UInt64) : Run ObjId := makeObj .float (.float bits)

/-- The bits of a float object. -/
def bits (o : ObjId) : Run UInt64 := certify o .float Payload.float?

end FloatObj

namespace BooleanObj

/-- The truth value of a boolean object. -/
def value (o : ObjId) : Run Bool := certify o .boolean Payload.boolean?

end BooleanObj

end ObjectBridge
