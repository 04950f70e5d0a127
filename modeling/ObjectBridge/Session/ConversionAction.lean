import ObjectBridge.Session.ObjectAction
import ObjectBridge.Session.Query

set_option autoImplicit false

/-!
# Steps on values and data (SPEC §4.3, §12.3)
-/

namespace ObjectBridge

/-- How an object becomes a value. -/
inductive Via where
  /-- by its class -/
  | dispatch
  /-- as the given wrapper -/
  | wrapper (w : Wrapper)

/-- A step on values and data. -/
inductive ConversionAction where
  | hostToForeign (value : ValueExpr) (cls : Option String) (nullable : Bool)
  | valueToForeign (on : String) (cls : Option String) (nullable : Bool)
  | toForeign (t : Ty) (data : t.Literal) (cls : Option String) (nullable : Bool)
  | toHost (on : Option String)
  | fromForeign (on : Option String) (t : Ty)
  | evaluate (value : ValueExpr)
  | valueOf (on : String) (move : Bool) (via : Via)
  | cloneValue (on : String)
  | sameValue (a b : String)
  | describeValue (on : String)
  | fromValue (on : String) (t : Ty)
  | intoValue (t : Ty) (data : t.Literal)

/-- The object of a variable, or a null handle. -/
def optionalObject : Option String → Step (Option ObjId)
  | some name => return some (← objectAt name)
  | none => return none

/-- Answer with a value. -/
def answerValue (v : Value) : Step Outcome := do answerWith (v.report (← get)) (.value v)

/-- Do a conversion action. -/
def ConversionAction.run : ConversionAction → Step Outcome
  | hostToForeign value cls nullable => do
    let v ← value.eval
    let o ← withClaims v.claims do
      let c ← optionalClass cls
      orFail .ofConversion (ObjectBridge.hostToForeign v c nullable)
    answerOptionalClaim o
  | valueToForeign on cls nullable => do
    let v ← valueAt on
    let c ← optionalClass cls
    answerOptionalClaim (← orFail .ofConversion (ObjectBridge.hostToForeign v c nullable))
  | toForeign t data cls nullable => do
    let c ← optionalClass cls
    let x ← t.eval data
    answerOptionalClaim (← orFail .bridge (t.toForeign x c nullable))
  | toHost on => do answerValue (← foreignToHost (← optionalObject on))
  | fromForeign on t => do
    let x ← orFail .bridge (t.fromForeign (← optionalObject on))
    answer (← reportData t x)
  | evaluate value => do answerValue (← value.eval)
  | valueOf on move via => do
    let o ← claimObject on move
    match via with
    | .dispatch => answerValue (← Value.ofObject o)
    | .wrapper w => answerValue (.object (← orFail .ofConversion (w.wrap o)))
  | cloneValue on => do
    let v ← valueAt on
    let copy ← v.clone
    answerWith (.flag (copy.same v)) (.value copy)
  | sameValue a b => do
    let x ← slot a
    let y ← slot b
    match x, y with
    | .value v, .value w => answer (.flag (v.same w))
    | _, _ => throw .notValue
  | describeValue on => do answer (← (← valueAt on).describe)
  | fromValue on t => do
    let x ← orFail .bridge (t.decode (← valueAt on))
    answer (← reportData t x)
  | intoValue t data => do answerValue (← orFail .ofRange (t.encode (← t.eval data)))

end ObjectBridge
