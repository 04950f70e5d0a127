import ObjectBridge.Assoc
import ObjectBridge.Wrapper

set_option autoImplicit false

/-!
# Host values (SPEC §9, §12.3)

The closed set of shapes that a value has on the host side.  Maps are lists of pairs with distinct
keys; their order has no meaning.  Equality is by content: floats bit for bit, maps by key, objects
by identity whatever their wrappers.
-/

namespace ObjectBridge

/-- A host value. -/
inductive Value where
  | null
  | bool (b : Bool)
  | int (n : Int64)
  /-- a double, by its bits -/
  | float (bits : UInt64)
  | text (s : String)
  | bytes (b : List UInt8)
  | seq (items : List Value)
  | map (entries : List (String × Value))
  | object (h : HostRef)
  deriving Repr, Inhabited

namespace Value

/-- The name of the value's kind. -/
def kind : Value → String
  | null => "null"
  | bool _ => "bool"
  | int _ => "int"
  | float _ => "float"
  | text _ => "text"
  | bytes _ => "bytes"
  | seq _ => "seq"
  | map _ => "map"
  | object _ => "object"

/-- Whether the value is null. -/
def isNull : Value → Bool
  | null => true
  | _ => false

/-- The truth value, if it is one. -/
def bool? : Value → Option Bool
  | bool b => some b
  | _ => none

/-- The integer, if it is one. -/
def int? : Value → Option Int64
  | int n => some n
  | _ => none

/-- The bits of the float, if it is one. -/
def float? : Value → Option UInt64
  | float bits => some bits
  | _ => none

/-- The text, if it is one. -/
def text? : Value → Option String
  | text s => some s
  | _ => none

/-- The bytes, if it is a byte string. -/
def bytes? : Value → Option (List UInt8)
  | bytes b => some b
  | _ => none

/-- The elements, if it is a sequence. -/
def seq? : Value → Option (List Value)
  | seq items => some items
  | _ => none

/-- The entries, if it is a map. -/
def map? : Value → Option (List (String × Value))
  | map entries => some entries
  | _ => none

/-- The wrapped object, if it is one. -/
def object? : Value → Option HostRef
  | object h => some h
  | _ => none

mutual

/-- Equality of content. -/
def same : Value → Value → Bool
  | null, null => true
  | bool a, bool b => a == b
  | int a, int b => a == b
  | float a, float b => a == b
  | text a, text b => a == b
  | bytes a, bytes b => a == b
  | seq a, seq b => sameItems a b
  | map a, map b => a.length == b.length && sameEntries a b
  | object a, object b => a.obj == b.obj
  | _, _ => false

/-- Equality element by element. -/
def sameItems : List Value → List Value → Bool
  | [], [] => true
  | a :: as, b :: bs => same a b && sameItems as bs
  | _, _ => false

/-- Whether every entry of the first map has an equal one in the second. -/
def sameEntries : List (String × Value) → List (String × Value) → Bool
  | [], _ => true
  | (k, v) :: rest, other =>
    (match Assoc.find? k other with
      | some w => same v w
      | none => false) && sameEntries rest other

end

mutual

/-- The claims that a value holds: one for every object in it. -/
def claims : Value → List ObjId
  | seq items => claimsOfItems items
  | map entries => claimsOfEntries entries
  | object h => [h.obj]
  | _ => []

/-- The claims of some values. -/
def claimsOfItems : List Value → List ObjId
  | [] => []
  | v :: rest => claims v ++ claimsOfItems rest

/-- The claims of some entries. -/
def claimsOfEntries : List (String × Value) → List ObjId
  | [] => []
  | (_, v) :: rest => claims v ++ claimsOfEntries rest

end

end Value

end ObjectBridge
