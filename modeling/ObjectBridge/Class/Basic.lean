import ObjectBridge.Layout

set_option autoImplicit false

/-!
# Classes (SPEC §3, §11.2, §11.3)

A class is a descriptor together with its line of ancestors.  Two classes are the same exactly if
their descriptors have the same identity; names play no part in it.  The ten built-in classes come
first, with identities 0 to 9.

Left out: the address of a descriptor.  An identity is a number, given out in the order in which
classes are made.
-/

namespace ObjectBridge

/-- Behaviour flags of a class.  Bits other than the two named ones are kept and mean nothing. -/
structure ClassFlags where
  bits : UInt8
  deriving DecidableEq, Repr, Inhabited

namespace ClassFlags

/-- No flags. -/
def none : ClassFlags := ⟨0⟩

/-- The flag of classes whose objects live for ever. -/
def immortal : ClassFlags := ⟨1⟩

/-- The flag of classes without subclasses. -/
def final : ClassFlags := ⟨2⟩

/-- Instances are never destroyed, and claims on them are not counted. -/
def isImmortal (f : ClassFlags) : Bool := f.bits &&& 1 != 0

/-- The class cannot be subclassed. -/
def isFinal (f : ClassFlags) : Bool := f.bits &&& 2 != 0

end ClassFlags

/-- Identity of a class descriptor. -/
structure ClassId where
  index : Nat
  deriving DecidableEq, Repr, Inhabited

/-- What a class says about itself, its ancestors apart. -/
structure Descriptor where
  id : ClassId
  name : String
  flags : ClassFlags
  /-- bytes of one object, header included -/
  size : Nat
  deriving DecidableEq, Repr, Inhabited

/-- A class: a descriptor, below its parent class unless it is a root. -/
inductive Class where
  | root (descriptor : Descriptor)
  | child (descriptor : Descriptor) (parent : Class)
  deriving DecidableEq, Repr, Inhabited

namespace Class

/-- What the class says about itself. -/
def descriptor : Class → Descriptor
  | root d => d
  | child d _ => d

/-- The class right above, if there is one. -/
def parent? : Class → Option Class
  | root _ => none
  | child _ p => some p

/-- The identity of the class. -/
def id (c : Class) : ClassId := c.descriptor.id

/-- The name under which the class was defined. -/
def name (c : Class) : String := c.descriptor.name

/-- The behaviour flags of the class. -/
def flags (c : Class) : ClassFlags := c.descriptor.flags

/-- Bytes of one object of the class, header included. -/
def size (c : Class) : Nat := c.descriptor.size

/-- Objects of the class are never destroyed, and claims on them are not counted. -/
def isImmortal (c : Class) : Bool := c.flags.isImmortal

/-- The class cannot be subclassed. -/
def isFinal (c : Class) : Bool := c.flags.isFinal

/-- Whether the class is `other` or descends from it. -/
def isSubclassOf (c other : Class) : Bool :=
  match c with
  | root d => d.id == other.id
  | child d p => d.id == other.id || p.isSubclassOf other

/-- The class itself, its parent, and so on up to the root. -/
def ancestors : Class → List Class
  | root d => [root d]
  | child d p => child d p :: p.ancestors

/-! ## Built-in classes -/

/-- The universal base class. -/
def obj : Class := root ⟨⟨0⟩, "Clownfish::Obj", .none, Layout.unit.size⟩

/-- Immutable texts. -/
def string : Class := child ⟨⟨1⟩, "Clownfish::String", .none, Layout.string.size⟩ obj

/-- Immutable byte strings. -/
def blob : Class := child ⟨⟨2⟩, "Clownfish::Blob", .none, Layout.blob.size⟩ obj

/-- Byte strings that grow at the end. -/
def byteBuf : Class := child ⟨⟨3⟩, "Clownfish::ByteBuf", .none, Layout.byteBuf.size⟩ obj

/-- Signed integers of 64 bits. -/
def integer : Class := child ⟨⟨4⟩, "Clownfish::Integer", .final, Layout.integer.size⟩ obj

/-- Floating-point numbers of 64 bits. -/
def float : Class := child ⟨⟨5⟩, "Clownfish::Float", .final, Layout.float.size⟩ obj

/-- The two truth values, which are immortal. -/
def boolean : Class := child ⟨⟨6⟩, "Clownfish::Boolean", ⟨3⟩, Layout.boolean.size⟩ obj

/-- Growable lists of objects and nulls. -/
def vector : Class := child ⟨⟨7⟩, "Clownfish::Vector", .none, Layout.vector.size⟩ obj

/-- Maps from texts to objects and nulls. -/
def hash : Class := child ⟨⟨8⟩, "Clownfish::Hash", .none, Layout.hash.size⟩ obj

/-- Exceptions. -/
def err : Class := child ⟨⟨9⟩, "Clownfish::Err", .none, Layout.err.size⟩ obj

/-- Every built-in class, base first. -/
def builtins : List Class :=
  [obj, string, blob, byteBuf, integer, float, boolean, vector, hash, err]

end Class

end ObjectBridge
