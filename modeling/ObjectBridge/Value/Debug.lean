import ObjectBridge.Number.Decimal
import ObjectBridge.Text.DebugTree
import ObjectBridge.Text.Quoted
import ObjectBridge.Value.Basic

set_option autoImplicit false

/-!
# Diagnostic texts of values

Scalars stand on one line also in the layout over lines.  A float shows its shortest decimal and its
bits.

The specification does not say how a value is shown; this is what diagnostic texts do.
-/

namespace ObjectBridge

open Text (DebugTree quote hexWord64)

/-- Doubles are written with a plain decimal point from `1e-4` on and below `1e16`. -/
def floatStyle : Number.DecimalStyle := ⟨-4, 16⟩

/-- Objects are shown by class and without their addresses. -/
def objectTree (className : String) : DebugTree :=
  .fields "ObjRef" [("class", .leaf (quote className)), ("addr", .leaf "0xADDR")]

/-- A wrapper around an object of the named class. -/
def HostRef.debugTree (h : HostRef) (className : ObjId → String) : DebugTree :=
  .tuple h.wrapper.name [objectTree (className h.obj)]

namespace Value

mutual

/-- What the diagnostic text of a value shows, given the class names of objects. -/
def debugTree (className : ObjId → String) : Value → DebugTree
  | null => .leaf "Null"
  | bool b => .leaf s!"Bool({b})"
  | int n => .leaf s!"Int({n.toInt})"
  | float bits =>
    .leaf ("Float(" ++ Number.renderDouble floatStyle bits ++ " / 0x" ++ hexWord64 bits ++ ")")
  | text s => .leaf ("Text(" ++ quote s ++ ")")
  | bytes b =>
    .leaf ("Bytes([" ++ String.intercalate ", " (b.map fun x => toString x.toNat) ++ "])")
  | seq items => .tuple "Seq" [.list (itemTrees className items)]
  | map entries => .tuple "Map" [.map (entryTrees className entries)]
  | object h => .tuple "Object" [h.debugTree className]

/-- The debug forms of some values. -/
def itemTrees (className : ObjId → String) : List Value → List DebugTree
  | [] => []
  | v :: rest => debugTree className v :: itemTrees className rest

/-- The debug forms of some entries. -/
def entryTrees (className : ObjId → String) : List (String × Value) → List (String × DebugTree)
  | [] => []
  | (k, v) :: rest => (quote k, debugTree className v) :: entryTrees className rest

end

end Value

end ObjectBridge
