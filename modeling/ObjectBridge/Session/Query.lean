import ObjectBridge.Session.Expr
import ObjectBridge.Session.Show
import ObjectBridge.Typed.Decode

set_option autoImplicit false

/-!
# Single questions (SPEC §6)

Questions that are answered by one call on a bridge that has just been started: conversions in both
directions, what a value is, equality of values, and what there is from the start.
-/

namespace ObjectBridge

/-- A question. -/
inductive Query where
  | builtins
  | layouts
  | hostToForeign (value : ValueExpr) (cls : Option String) (nullable : Bool)
  | toForeign (t : Ty) (data : t.Literal) (cls : Option String) (nullable : Bool)
  | intoValue (t : Ty) (data : t.Literal)
  | fromValue (t : Ty) (value : ValueExpr)
  | fromForeign (t : Ty) (value : ValueExpr)
  /-- `intoValue` that tells the kind of the value too -/
  | valueFrom (t : Ty) (data : t.Literal)
  | describe (value : ValueExpr)
  | valueEq (a b : ValueExpr)
  | string (text other : String)

/-- What can be said of an object that was made from a value: its class and count, its host form,
and the claims that remain after giving back the only one. -/
def describeForeign : Option ObjId → Step Report
  | none => return .null
  | some o => do
    let v ← foreignToHost (some o)
    let r ← brief o
    let shown := v.report (← get)
    v.drop
    let left ← release o
    return r.extend [("value", shown), ("left", .count left.toNat)]

/-- Report data and give back its claims. -/
def reportData (t : Ty) (x : t.Carrier) : Step Report := do
  let r := t.report (← get) x
  t.drop x
  return r

namespace Query

/-- Answer a question. -/
def answer : Query → Step Report
  | builtins => return .ok (.list (Class.builtins.map Class.report))
  | layouts => return .ok (.fields (Layout.named.map fun p => (p.1, .count p.2.size)))
  | hostToForeign value cls nullable => do
    let v ← value.eval
    let c ← optionalClass cls
    let o ← orFail .ofConversion (ObjectBridge.hostToForeign v c nullable)
    return .ok (← describeForeign o)
  | toForeign t data cls nullable => do
    let c ← optionalClass cls
    let x ← t.eval data
    let o ← orFail .bridge (t.toForeign x c nullable)
    return .ok (← describeForeign o)
  | intoValue t data => do
    let v ← orFail .ofRange (t.encode (← t.eval data))
    return .ok (v.report (← get))
  | fromValue t value => do
    let x ← orFail .bridge (t.decode (← value.eval))
    return .ok (← reportData t x)
  | fromForeign t value => do
    let o ← orFail .ofConversion (ObjectBridge.hostToForeign (← value.eval) none true)
    let x ← orFail .bridge (t.fromForeign o)
    return .ok (← reportData t x)
  | valueFrom t data => do
    let v ← orFail .ofRange (t.encode (← t.eval data))
    return (Report.ok (v.report (← get))).extend [("type", .text v.kind)]
  | describe value => do return .ok (← (← value.eval).describe)
  | valueEq a b => do
    let x ← a.eval
    let y ← b.eval
    return (Report.ok (.flag (x.same y))).extend [("flipped", .flag (y.same x)),
      ("ne", .flag (!x.same y))]
  | string text other => do
    let o ← StringObj.new text
    let size ← StringObj.size o
    let sum ← StringObj.checksum o
    let equal ← StringObj.equals o other
    let kept ← StringObj.text o
    let left ← release o
    return .ok (.fields
      [("size", .count size), ("hash_sum", .text (toString sum.toNat)), ("equals", .flag equal),
        ("text", .text kept), ("left", .count left.toNat)])

end Query

/-- The answer of a call that unwound. -/
def Unwind.report : Unwind → Report
  | .fault message => .errorWith "Panic" message
  | .raised .application _ => .error "HostRaise"
  | .raised .bridge _ => .error "Trapped"
  | .dangling _ => .error "Dangling"
  | .endless => .error "Endless"

/-- The answer to a question that is asked first of all. -/
def Query.run (q : Query) : Report :=
  match ((ExceptT.run q.answer).run (Session.new (Bridge.ready .usual))).1 with
  | .ok (.ok r) => r
  | .ok (.error f) => f.report
  | .error u => u.report

end ObjectBridge
