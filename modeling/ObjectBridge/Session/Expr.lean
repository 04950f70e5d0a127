import ObjectBridge.Session.State
import ObjectBridge.Typed.Basic

set_option autoImplicit false

/-!
# Expressions (SPEC §6, §12.3)

Values and data as a script writes them: literals in which variables stand for objects, wrappers and
values.
-/

namespace ObjectBridge

/-- A value as a script writes it. -/
inductive ValueExpr where
  | null
  | bool (b : Bool)
  | int (n : Int64)
  | float (bits : UInt64)
  | text (s : String)
  | bytes (b : List UInt8)
  | seq (items : List ValueExpr)
  | map (entries : List (String × ValueExpr))
  | var (name : String)
  deriving Repr, Inhabited

/-- A value with claims of its own for a variable: its object wrapped anew, or a copy of its value.
-/
def valueOfVar (name : String) : Step Value := do
  match ← slot name with
  | .object o => return ← Value.ofObject (← share o)
  | .host h => return .object (← h.share)
  | .value v => return ← v.clone
  | _ => throw .noVar

mutual

/-- The value of an expression. -/
def ValueExpr.eval : ValueExpr → Step Value
  | .null => return .null
  | .bool b => return .bool b
  | .int n => return .int n
  | .float bits => return .float bits
  | .text s => return .text s
  | .bytes b => return .bytes b
  | .seq items => return .seq (← evalItems items)
  | .map entries => return .map (← evalEntries entries [])
  | .var name => valueOfVar name

/-- The values of a list of expressions; those before a failing one are dropped. -/
def evalItems : List ValueExpr → Step (List Value)
  | [] => return []
  | e :: rest => do
    let v ← e.eval
    let vs ← onUnwind v.drop (evalItems rest)
    return v :: vs

/-- Evaluate entries in turn, a later one replacing an earlier one with the same key. -/
def evalEntries : List (String × ValueExpr) → List (String × Value) → Step (List (String × Value))
  | [], done => return done
  | (k, e) :: rest, done => do
    let v ← onUnwind (releaseAll (Value.claimsOfEntries done)) e.eval
    releaseAll (((Assoc.find? k done).map Value.claims).getD [])
    evalEntries rest (Assoc.insert k v done)

end

/-- Data of a type as a script writes it. -/
abbrev Ty.Literal : Ty → Type := Ty.Data ValueExpr String String

/-- Evaluate the members of a list in turn; a failure drops what was evaluated before. -/
def evalAll {α β : Type} (eval : α → Step β) (claims : β → List ObjId) : List α → Step (List β)
  | [] => return []
  | x :: rest => do
    let y ← eval x
    let ys ← onUnwind (releaseAll (claims y)) (evalAll eval claims rest)
    return y :: ys

/-- Evaluate entries in turn, a later one replacing an earlier one with the same key.  A failure
drops what was evaluated before. -/
def evalDict {α β : Type} (eval : α → Step β) (claims : β → List ObjId) :
    List (String × α) → List (String × β) → Step (List (String × β))
  | [], done => return done
  | (k, x) :: rest, done => do
    let y ← onUnwind (releaseAll (done.flatMap fun e => claims e.2)) (eval x)
    releaseAll (((Assoc.find? k done).map claims).getD [])
    evalDict eval claims rest (Assoc.insert k y done)

/-- The data of a literal, with claims of its own. -/
def Ty.eval : (t : Ty) → t.Literal → Step t.Carrier
  | .int _, n => return n
  | .float32, (w : UInt32) => return (w : UInt32)
  | .float64, (w : UInt64) => return (w : UInt64)
  | .bool, (b : Bool) => return (b : Bool)
  | .text, (s : String) => return (s : String)
  | .bytes, (b : List UInt8) => return (b : List UInt8)
  | .value, (e : ValueExpr) => e.eval
  | .claim, (name : String) => do return ← share (← heldAt name)
  | .host, (name : String) => do return ← dispatch (← share (← heldAt name))
  | .option t, (x : Option t.Literal) => do
    match x with
    | none => return (none : Option t.Carrier)
    | some y => return (some (← t.eval y) : Option t.Carrier)
  | .list t, (xs : List t.Literal) => evalAll t.eval t.claims xs
  | .dict t, (es : List (String × t.Literal)) => evalDict t.eval t.claims es []
  | .sortedDict t, (es : List (String × t.Literal)) => do
    return sortByKey (← evalDict t.eval t.claims es [])

end ObjectBridge
