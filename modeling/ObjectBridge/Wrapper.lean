import ObjectBridge.Class.Basic
import ObjectBridge.Heap.Buckets

set_option autoImplicit false

/-!
# Host wrappers (SPEC §3, §12.2)

The host sees a foreign object through a wrapper, which holds one claim on it.  Every built-in class
has a wrapper of its own, and an application adds wrappers for classes that it defines.

Left out: what a wrapper of an application can do besides holding its object.
-/

namespace ObjectBridge

/-- A wrapper that an application adds, with the class that it stands for.  The class is defined
below the base class the first time it is needed. -/
structure Extension where
  name : String
  className : String
  layout : Layout
  deriving DecidableEq, Repr, Inhabited

/-- The kinds of wrapper. -/
inductive Wrapper where
  | object
  | str
  | blob
  | byteBuf
  | integer
  | float
  | boolean
  | vector
  | hash
  | errObj
  | extension (e : Extension)
  deriving DecidableEq, Repr, Inhabited

namespace Wrapper

/-- The name of a kind of wrapper. -/
def name : Wrapper → String
  | object => "Object"
  | str => "Str"
  | blob => "Blob"
  | byteBuf => "ByteBuf"
  | integer => "Integer"
  | float => "Float"
  | boolean => "Boolean"
  | vector => "Vector"
  | hash => "Hash"
  | errObj => "ErrObj"
  | extension e => e.name

/-- The class that a built-in wrapper stands for. -/
def builtinClass? : Wrapper → Option Class
  | object => some .obj
  | str => some .string
  | blob => some .blob
  | byteBuf => some .byteBuf
  | integer => some .integer
  | float => some .float
  | boolean => some .boolean
  | vector => some .vector
  | hash => some .hash
  | errObj => some .err
  | extension _ => none

/-- Every built-in class with its wrapper, base first. -/
def builtins : List (Class × Wrapper) :=
  [(.obj, object), (.string, str), (.blob, blob), (.byteBuf, byteBuf), (.integer, integer),
    (.float, float), (.boolean, boolean), (.vector, vector), (.hash, hash), (.err, errObj)]

end Wrapper

/-- A wrapper around one foreign object, on which it holds a claim. -/
structure HostRef where
  wrapper : Wrapper
  obj : ObjId
  deriving DecidableEq, Repr, Inhabited

end ObjectBridge
