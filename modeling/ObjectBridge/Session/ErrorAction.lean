import ObjectBridge.Session.ObjectAction

set_option autoImplicit false

/-!
# Steps on errors, exceptions and hooks (SPEC §4.4, §11.4, §12.4)
-/

namespace ObjectBridge

/-- A step on errors and exceptions. -/
inductive ErrorAction where
  | throwText (message : String)
  | throwRaw (message : String)
  | rethrow (on : String)
  | throwErr (on : String) (move : Bool)
  | throwObject (on : String) (move : Bool)
  | fault (message : String)
  | describe (on : String)
  | compare (a b : String)
  | trappedInfo (on : String)
  | trappedErr (on : String)
  | trappedInto (on : String)
  | warn (message : String)
  | start
  | installHooks

/-- Do an error action. -/
def ErrorAction.run : ErrorAction → Step Outcome
  | throwText message => (throwForeign message : Run Outcome)
  | throwRaw message => (raise message : Run Outcome)
  | rethrow on => do
    let e ← errorAt on
    match e.message? with
    | some message => (throwForeign message : Run Outcome)
    | none => throw e
  | throwErr on move => do
    let h ← orFail .ofConversion (Wrapper.errObj.wrap (← claimObject on move))
    (ObjectBridge.throwErr h.obj : Run Outcome)
  | throwObject on move => do
    let o ← claimObject on move
    (ErrObj.throwObj o : Run Outcome)
  | fault message => (ObjectBridge.fault message : Run Outcome)
  | describe on => do
    let e ← errorAt on
    match e.message? with
    | some message =>
      let tree := e.debugTree (← get).className
      answer (.fields
        [("kind", .text e.kind), ("display", .text message), ("debug", .text tree.compact),
          ("pretty", .text tree.pretty)])
    | none => answer (.text e.kind)
  | compare a b => do
    let x ← errorAt a
    let y ← errorAt b
    match x.same? y with
    | some equal => answer (.flag equal)
    | none => answer (.text "incomparable")
  | trappedInfo on => do
    let t ← trappedAt on
    let now ← ErrObj.message t.err
    let r ← brief t.err
    answer (r.extend [("message", .text t.message), ("display", .text t.message),
      ("err_message", .text now)])
  | trappedErr on => do
    let t ← trappedAt on
    answerClaim (← share t.err)
  | trappedInto on => do
    let t ← trappedAt on
    removeSlot on
    answerClaim t.err
  | warn message => do
    (ObjectBridge.warn message : Run Unit)
    answer .null
  | start => do
    (ObjectBridge.start : Run Unit)
    answer (.flag (← hooksInstalled))
  | installHooks => do answer (.flag (← ObjectBridge.installHooks .application))

end ObjectBridge
