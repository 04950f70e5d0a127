import ObjectBridge.Session.Show

set_option autoImplicit false

/-!
# Steps on classes (SPEC §11.2)
-/

namespace ObjectBridge

/-- A step on the table of classes. -/
inductive ClassAction where
  | define (name parent : String) (layout : Layout) (flags : ClassFlags)
  | addAlias (cls name : String)
  | fetch (name : String)
  | isSubclass (cls other : String)
  | compare (a b : String)
  | countNames

/-- Do a class action. -/
def ClassAction.run : ClassAction → Step Outcome
  | define name parent layout flags => do
    let p ← classNamed parent
    let c ← orFail .cls (defineClass name p flags layout)
    answer c.report
  | addAlias cls name => do
    let c ← classNamed cls
    orFail .cls (aliasClass c name)
    answer .null
  | fetch name => do
    answer (.option Class.report ((← get).bridge.classes.fetch name))
  | isSubclass cls other => do
    let c ← classNamed cls
    let d ← classNamed other
    answer (.flag (c.isSubclassOf d))
  | compare a b => do
    let c ← classNamed a
    let d ← classNamed b
    answer (.fields [("eq", .flag (c.id == d.id)), ("id_eq", .flag (c.id == d.id))])
  | countNames => do answer (.count (← get).bridge.classes.size)

end ObjectBridge
