import ObjectBridge.Class.Debug
import ObjectBridge.Session.State
import ObjectBridge.Text.Hex
import ObjectBridge.Typed.Basic
import ObjectBridge.Value.Debug

set_option autoImplicit false

/-!
# What reports say

Reports of classes, objects, values, data and errors.
-/

namespace ObjectBridge

open Text (DebugTree quote hexBytes hexWord32 hexWord64 hexNumber)

/-! ## Classes -/

/-- Everything that a class says about itself. -/
def Class.report (c : Class) : Report :=
  .fields
    [("name", .text c.name), ("parent", .option (fun p => .text p.name) c.parent?),
      ("flags", .count c.flags.bits.toNat), ("size", .count c.size),
      ("ancestors", .texts (c.ancestors.map Class.name)), ("debug", .text c.debugTree.compact),
      ("display", .text c.name)]

/-! ## Objects -/

/-- The class and the count of an object. -/
def brief (o : ObjId) : Run Report := do
  let x ← readObj o
  return .fields [("class", .text x.cls.name), ("refcount", .count x.refcount.toNat)]

/-- The class and count of an object, or null. -/
def optionalBrief : Option ObjId → Run Report
  | some o => brief o
  | none => return .null

/-- The variable through which an object is known. -/
def Session.nameReport (s : Session) (o : ObjId) : Report := .option .text (s.nameOf? o)

/-- A wrapped object: its class, its wrapper and the first variable that holds it. -/
def HostRef.report (s : Session) (h : HostRef) : Report :=
  .fields [("object", .text (s.className h.obj)), ("wrapper", .text h.wrapper.name),
    ("is", s.nameReport h.obj)]

/-! ## Values -/

namespace Value

mutual

/-- The value itself; maps in key order. -/
def report (s : Session) : Value → Report
  | null => .null
  | bool b => .flag b
  | int n => .fields [("int", .text (toString n.toInt))]
  | float bits => .fields [("float", .text (hexWord64 bits))]
  | text t => .text t
  | bytes b => .fields [("bytes", .text (hexBytes b))]
  | seq items => .list (reportItems s items)
  | map entries =>
    .fields [("map", .list ((sortByKey (reportEntries s entries)).map fun e => .pair e.1 e.2))]
  | object h => h.report s

/-- The reports of some values. -/
def reportItems (s : Session) : List Value → List Report
  | [] => []
  | v :: rest => report s v :: reportItems s rest

/-- The reports of some entries. -/
def reportEntries (s : Session) : List (String × Value) → List (String × Report)
  | [] => []
  | (k, v) :: rest => (k, report s v) :: reportEntries s rest

end

/-- Byte length of text and bytes, number of members of a sequence or map. -/
def length? : Value → Option Nat
  | text t => some t.utf8ByteSize
  | bytes b => some b.length
  | seq items => some items.length
  | map entries => some entries.length
  | _ => none

/-- Which views of the value exist. -/
def views (v : Value) : List String :=
  [("bool", v.bool?.isSome), ("int", v.int?.isSome), ("float", v.float?.isSome),
    ("str", v.text?.isSome), ("bytes", v.bytes?.isSome), ("seq", v.seq?.isSome),
    ("map", v.map?.isSome), ("object", v.object?.isSome)].filterMap fun p =>
    if p.2 then some p.1 else none

mutual

/-- Whether some map in the value has two or more entries, whose order has no meaning. -/
def hasUnordered : Value → Bool
  | seq items => itemsUnordered items
  | map entries => entries.length ≥ 2 || entriesUnordered entries
  | _ => false

/-- Whether one of some values is unordered. -/
def itemsUnordered : List Value → Bool
  | [] => false
  | v :: rest => hasUnordered v || itemsUnordered rest

/-- Whether one of some entries is unordered. -/
def entriesUnordered : List (String × Value) → Bool
  | [] => false
  | (_, v) :: rest => hasUnordered v || entriesUnordered rest

end

/-- Everything that can be asked of a value, together with a copy of it. -/
def describe (v : Value) : Step Report := do
  let copy ← v.clone
  let s ← get
  let tree := v.debugTree s.className
  let shown (text : String) : Report := if v.hasUnordered then .null else .text text
  let r : Report := .fields
    [("type", .text v.kind), ("is_null", .flag v.isNull), ("as", .texts v.views),
      ("len", .option .count v.length?), ("debug", shown tree.compact),
      ("pretty", shown tree.pretty), ("clone_eq", .flag (copy.same v)), ("value", copy.report s)]
  copy.drop
  return r

end Value

/-! ## Data -/

/-- Data of a type.  Counts include the claims of the data itself. -/
def Ty.report (s : Session) : (t : Ty) → t.Carrier → Report
  | .int _, n => .text (toString n.1)
  | .float32, (w : UInt32) => .text (hexWord32 w)
  | .float64, (w : UInt64) => .text (hexWord64 w)
  | .bool, (b : Bool) => .flag b
  | .text, (t : String) => .text t
  | .bytes, (b : List UInt8) => .text (hexBytes b)
  | .value, (v : Value) => v.report s
  | .claim, (o : ObjId) =>
    .fields
      [("class", .text (s.className o)),
        ("refcount", .option (fun x => .count x.refcount.toNat) (s.bridge.heap.get? o)),
        ("is", s.nameReport o)]
  | .host, (h : HostRef) => h.report s
  | .option t, (x : Option t.Carrier) =>
    match x with
    | none => .text "none"
    | some y => .fields [("some", t.report s y)]
  | .list t, (xs : List t.Carrier) => .list (xs.map (t.report s))
  | .dict t, (es : List (String × t.Carrier)) =>
    .list ((sortByKey es).map fun e => .pair e.1 (t.report s e.2))
  | .sortedDict t, (es : List (String × t.Carrier)) =>
    .list ((sortByKey es).map fun e => .pair e.1 (t.report s e.2))

/-! ## Errors -/

/-- The name of the kind of a conversion error. -/
def ConversionError.kind : ConversionError → String
  | nullHandle => "NullHandle"
  | null _ => "Null"
  | classMismatch _ _ => "ClassMismatch"
  | typeMismatch _ _ => "TypeMismatch"

/-- The debug form of a conversion error. -/
def ConversionError.debugTree : ConversionError → DebugTree
  | nullHandle => .leaf "NullHandle"
  | null required => .fields "Null" [("required", .leaf (quote required))]
  | classMismatch found required =>
    .fields "ClassMismatch" [("found", .leaf (quote found)), ("required", .leaf (quote required))]
  | typeMismatch expected actual =>
    .fields "TypeMismatch" [("expected", .leaf (quote expected)), ("actual", .leaf (quote actual))]

/-- The name of the kind of a class error. -/
def ClassError.kind : ClassError → String
  | finalParent _ _ => "FinalParent"
  | conflict _ => "Conflict"
  | aliasTaken _ _ => "AliasTaken"

/-- The debug form of an error. -/
def BridgeError.debugTree (className : ObjId → String) : BridgeError → DebugTree
  | conversion e => .tuple "Conversion" [e.debugTree]
  | range e =>
    .tuple "Range"
      [.fields "RangeError" [("value", .leaf (quote (toString e.value))),
        ("target", .leaf (quote e.target))]]
  | trapped t =>
    .tuple "Trapped"
      [.fields "TrappedError"
        [("message", .leaf (quote t.message)),
          ("err", HostRef.debugTree ⟨.errObj, t.err⟩ className)]]

namespace Failure

/-- The name of the kind of a failure. -/
def kind : Failure → String
  | noVar => "NoVar"
  | noClass => "NoClass"
  | notObject => "NotObject"
  | notHost => "NotHost"
  | notValue => "NotValue"
  | notError => "NotError"
  | notTrapped => "NotTrapped"
  | bridge (.conversion e) => "Conversion." ++ e.kind
  | bridge (.range _) => "Range"
  | bridge (.trapped _) => "Trapped"
  | cls e => "Class." ++ e.kind

/-- The message of an error that the bridge or the class table reported. -/
def message? : Failure → Option String
  | bridge e => some e.message
  | cls e => some e.message
  | _ => none

/-- A failure as the answer of a step. -/
def report (f : Failure) : Report :=
  match f.message? with
  | some m => .errorWith f.kind m
  | none => .error f.kind

/-- The debug form of a failure. -/
def debugTree (className : ObjId → String) : Failure → DebugTree
  | bridge e => e.debugTree className
  | cls e => e.debugTree
  | f => .leaf f.kind

/-- Whether two errors are equal, for errors of one family other than trapped ones. -/
def same? : Failure → Failure → Option Bool
  | bridge (.conversion a), bridge (.conversion b) => some (a == b)
  | bridge (.range a), bridge (.range b) => some (a == b)
  | cls a, cls b => some (a == b)
  | _, _ => none

end Failure

end ObjectBridge
