import ObjectBridge.Bridge.Startup

set_option autoImplicit false

/-!
# Trapping foreign exceptions (SPEC §4.4, §12.1, §12.4)

A trap runs a routine once.  A foreign exception that leaves the routine ends at the innermost trap
and hands it the claim on the exception object; a fault passes every trap.  The functions here work
in any monad in which bridge calls can be made, so that a routine may have state of its own.

A claim that is lent to a routine is given back on every way out of it.
-/

namespace ObjectBridge

variable {m : Type → Type} {α : Type} [Monad m] [MonadLiftT Run m]

/-- Run a routine under the bridge's trap. -/
def catchForeign [MonadExceptOf Unwind m] (routine : m α) : m (Except ObjId α) := do
  (log .trace "entering trap boundary" : Run Unit)
  tryCatchThe Unwind (Except.ok <$> routine) fun
    | .raised .bridge err => do
      (log .trace "trapped clownfish exception" : Run Unit)
      return .error err
    | u => throwThe Unwind u

/-- Run a routine under the trap of the installed hooks.  The answer is a claim on the exception
that it raised. -/
def trap [MonadExceptOf Unwind m] (routine : m Unit) : m (Option ObjId) := do
  match (← (get : Run Bridge)).hooks with
  | none => (missingHooks "trap" "routine not run" : Run (Option ObjId))
  | some .bridge =>
    match ← catchForeign routine with
    | .ok () => return none
    | .error err => return some err
  | some .application =>
    tryCatchThe Unwind (do routine; return none) fun
      | .raised .application err => return some err
      | u => throwThe Unwind u

/-- Run a routine; a foreign exception that it raises becomes an error of the host. -/
def runTrapped [MonadExceptOf Unwind m] (routine : m α) : m (Except TrappedError α) := do
  (start : Run Unit)
  match ← catchForeign routine with
  | .ok a => return .ok a
  | .error err => return .error ⟨← (ErrObj.message err : Run String), err⟩

/-- Run `body` and do `cleanup` only if it does not return. -/
def onUnwind [MonadFinally m] (cleanup : Run Unit) (body : m α) : m α := do
  let (a, _) ← tryFinally' body fun
    | some _ => pure ()
    | none => liftM cleanup
  return a

/-- Run `body` and then give back a claim, whether `body` returns or not. -/
def withClaims [MonadFinally m] (claims : List ObjId) (body : m α) : m α :=
  tryFinally body (liftM (releaseAll claims))

end ObjectBridge
