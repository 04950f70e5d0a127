import ObjectBridge.Bridge.Trap
import ObjectBridge.Class.Debug

set_option autoImplicit false

/-!
# From objects to wrappers (SPEC §4.1, §4.2, §12.1, §12.2)

`dispatch` wraps an object by the wrapper registered for exactly its class; an ancestor's wrapper
does not do.  A class without a wrapper is a fault of the host program.
-/

namespace ObjectBridge

/-- Take over a claim on the host side. -/
def adopt (o : ObjId) : Run ObjId := do
  start
  return o

/-- A new claim on the host side. -/
def share (o : ObjId) : Run ObjId := do
  retain o
  adopt o

/-- The wrapper registered for exactly the class `c`. -/
def wrapperFor? (c : Class) : Run (Option Wrapper) := do
  return ((← get).wrappers.get? c.id).map Prod.snd

/-- Every class that has a wrapper. -/
def registeredClasses : Run (List Class) := do
  return (← get).wrappers.snapshot.entries.map fun e => e.2.1

/-- The fault of an object whose class has no wrapper. -/
def lookupMessage (c : Class) : String := s!"no wrap function registered for class {c.name}"

/-- Wrap an object.  Consumes a claim, which the wrapper then holds. -/
def dispatch (o : ObjId) : Run HostRef := do
  start
  let c ← classOf o
  match ← wrapperFor? c with
  | some w => return ⟨w, o⟩
  | none =>
    log .error (lookupMessage c)
    releaseAll [o]
    fault (lookupMessage c)

/-- A second wrapper, with a claim of its own, around the same object. -/
def HostRef.share (h : HostRef) : Run HostRef := do dispatch (← ObjectBridge.share h.obj)

/-- The fault of an extension whose class cannot be defined. -/
def definitionMessage (e : ClassError) : String :=
  "called `Result::unwrap()` on an `Err` value: " ++ e.debugTree.compact

/-- The class that a wrapper stands for.  The class of an extension is defined on demand. -/
def Wrapper.foreignClass (w : Wrapper) : Run Class := do
  match w with
  | .extension e =>
    match ← defineClass e.className .obj .none e.layout with
    | .ok c => return c
    | .error e => fault (definitionMessage e)
  | w => return w.builtinClass?.getD .obj

/-- Wrap an object as `w`, which needs an object of its class or of a descendant.  Consumes a claim.
-/
def Wrapper.wrap (w : Wrapper) (o : ObjId) : Run (Except ConversionError HostRef) := do
  let required ← onUnwind (releaseAll [o]) w.foreignClass
  if ← isA o required then return .ok ⟨w, o⟩
  else
    let found ← classOf o
    releaseAll [o]
    return .error (.classMismatch found.name required.name)

/-- Raise an error object that the host holds.  Consumes its claim. -/
def throwErr {α : Type} (err : ObjId) : Run α := do
  start
  ErrObj.throwObj err

end ObjectBridge
