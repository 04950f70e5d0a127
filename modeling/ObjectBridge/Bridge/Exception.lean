import ObjectBridge.Bridge.State
import ObjectBridge.Error

set_option autoImplicit false

/-!
# Raising foreign exceptions (SPEC §11.4, §13.2)

An exception is an object of the error class.  Raising it hands a claim on it to the hooks, which
carry it to the innermost trap; without hooks a raise is a fault of the host program.  The checks
that every use of an object starts with raise when they fail.
-/

namespace ObjectBridge

variable {α : Type}

/-- The fault of raising or trapping before hooks are installed. -/
def missingHooks (action detail : String) : Run α := do
  log .error s!"clownfish {action} before hooks were installed: {detail}"
  fault s!"clownfish {action} before host hooks were installed: {detail}"

/-- Raise the exception object `err`, whose message is `message`.  Consumes a claim on it. -/
def raiseWith (err : ObjId) (message : String) : Run α := do
  match (← get).hooks with
  | none =>
    let _ ← sweepClaims [err]
    missingHooks "raise" message
  | some via =>
    log .trace s!"raising clownfish exception: {message}"
    if via = .application then note (.raised message)
    throw (.raised via err)

/-- Raise a new exception. -/
def raise (message : String) : Run α := do
  let err ← allocate .err (.err message)
  raiseWith err message

/-- Give back the claims of a list in turn.  Raises if one of them does not exist. -/
def releaseAll (claims : List ObjId) : Run Unit := do
  match ← sweepClaims claims with
  | none => pure ()
  | some (.overdrawn _ c) => raise (overdrawnMessage c)
  | some (.dangling o) => throw (.dangling o)

/-- Give back one claim on `o`, destroying it if that was the last one; the answer is how many
remain. -/
def release (o : ObjId) : Run UInt32 := do
  let left := (← get).heap.remaining o
  releaseAll [o]
  return left

/-- A new object of class `c`, with one claim.  Raises if the class has objects of another size; the
payload is then destroyed. -/
def makeObj (c : Class) (p : Payload) : Run ObjId := do
  if c.size = p.layout.size then allocate c p
  else
    let message := s!"Class {c.name} expects objects of {c.size} bytes, got {p.layout.size}"
    tryFinally (raise message) do
      match p with
      | .tracked label => note (.finalized label)
      | _ => pure ()

/-- What `view` shows of the payload of `o`, which has to be an object of class `c` whose layout has
that view. -/
def certify (o : ObjId) (c : Class) (view : Payload → Option α) : Run α := do
  let x ← readObj o
  if x.cls.isSubclassOf c then
    match view x.payload with
    | some a => return a
    | none => raise s!"{x.cls.name} object has an incompatible layout for {c.name}"
  else raise s!"Not a {c.name}: got {x.cls.name}"

/-! ## Error objects -/

namespace ErrObj

/-- A new error object, with one claim. -/
def new (message : String) : Run ObjId := makeObj .err (.err message)

/-- The message of an error object. -/
def message (o : ObjId) : Run String := certify o .err Payload.err?

/-- Append to the message of an error object. -/
def append (o : ObjId) (more : String) : Run Unit := do
  setPayload o (.err ((← message o) ++ more))

/-- Raise an existing error object.  Consumes a claim on it; if it is no error object, the claim is
lost and the exception is about that. -/
def throwObj (o : ObjId) : Run α := do raiseWith o (← losing [o] (message o))

end ErrObj

/-- Report a condition that is not fatal. -/
def warn (message : String) : Run Unit := log .warn message

end ObjectBridge
