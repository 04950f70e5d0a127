import ObjectBridge.Session.ErrorAction
import ObjectBridge.Session.Query
import ObjectBridge.Session.MethodAction

set_option autoImplicit false

/-!
# Start-up scripts (SPEC §11.4, §12.5)

Scripts on a bridge on which nothing has run yet.  Their steps use bare objects, so that only the
steps that ask for it start the bridge, and no trap guards the top level.
-/

namespace ObjectBridge.StartupScript

/-- A step that is not a trap. -/
inductive Action where
  | hooksInstalled
  /-- install the hooks of the application -/
  | installHooks
  | bootstrap
  | start
  | countNames
  | registered
  | new (c : Construction) (name : String)
  | refcount (on : String)
  | release (on : String)
  | primitive (on : String) (p : Primitive)
  /-- make an object of a size that no built-in class has -/
  | makeBlock (cls : String)
  | append (on text : String)
  | throwText (message : String)
  | throwObject (on : String)
  | fault (message : String)
  | warn (message : String)

/-- An instruction: a step, or a routine under the trap of the hooks or of the bridge. -/
inductive Instruction where
  | act (a : Action)
  | trap (byHooks : Bool) (routine : List Instruction)

/-- Do an action. -/
def Action.run : Action → Step Report
  | hooksInstalled => do return .flag (← ObjectBridge.hooksInstalled)
  | installHooks => do return .flag (← ObjectBridge.installHooks .application)
  | bootstrap => do
    (ObjectBridge.bootstrap : Run Unit)
    return .null
  | start => do
    (ObjectBridge.start : Run Unit)
    return .null
  | countNames => do return .count (← get).bridge.classes.size
  | registered => do
    let names := (← registeredClasses).map Class.name
    return .texts (names.mergeSort fun a b => decide (a ≤ b))
  | new c name => do
    let o ← c.run
    let r ← brief o
    bind name (.object o)
    return r
  | refcount on => do return .count (← ObjectBridge.refcount (← objectAt on)).toNat
  | release on => do return .count (← ObjectBridge.release (← takeObject on)).toNat
  | primitive on p => do
    match ← p.call (← objectAt on) false with
    | .report r => return r
    | .claim _ => return .null
    | .bundle r claims => do
      (releaseAll claims : Run Unit)
      return r
  | makeBlock cls => do
    let o ← makeObj (← classNamed cls) .block
    brief o
  | append on text => do
    let o ← objectAt on
    (ErrObj.append o text : Run Unit)
    return .text (← ErrObj.message o)
  | throwText message => (raise message : Run Report)
  | throwObject on => do
    let o ← objectAt on
    (retain o : Run Unit)
    (ErrObj.throwObj o : Run Report)
  | fault message => (ObjectBridge.fault message : Run Report)
  | warn message => do
    (ObjectBridge.warn message : Run Unit)
    return .null

/-- Run a routine under the trap of the hooks or of the bridge, and report the exception that it
raised. -/
def trapRoutine (byHooks : Bool) (routine : Step Unit) : Step Report := do
  if byHooks then
    match ← ObjectBridge.trap routine with
    | none => return .null
    | some err =>
      let message ← ErrObj.message err
      let left ← ObjectBridge.release err
      return .fields [("message", .text message), ("left", .count left.toNat)]
  else
    match ← runTrapped routine with
    | .ok () => return .null
    | .error t =>
      releaseAll [t.err]
      return .text t.message

mutual

/-- Run an instruction. -/
def Instruction.run : Instruction → Step Report
  | .act a => a.run
  | .trap byHooks routine => do
    let (caught, inner) ← withAnswers (trapRoutine byHooks (runRoutine routine))
    return .fields [("inner", .list inner), ("caught", caught)]

/-- Run the steps of a routine, and note the answer of each step that finishes. -/
def runRoutine : List Instruction → Step Unit
  | [] => pure ()
  | i :: rest => do
    noteAnswer (← i.run)
    runRoutine rest

end

/-- The journal since the last answer, as fields of an answer. -/
def takeJournal : StateM Session (List (String × Report)) := do
  let s ← get
  set { s with bridge := { s.bridge with journal := #[] } }
  let entries := s.bridge.journal.toList
  let raised := entries.filterMap fun
    | .raised message => some message
    | _ => none
  let lines := entries.filterMap fun
    | .log level text =>
      if level.rank ≤ Level.debug.rank then some (level.label ++ " " ++ text) else none
    | _ => none
  return (if lines.isEmpty then [] else [("log", .texts lines)]) ++
    (if raised.isEmpty then [] else [("raised", .texts raised)])

/-- The answer of a top-level instruction. -/
def Instruction.answer (i : Instruction) : StateM Session Report := do
  let result ← ExceptT.run (ExceptT.run i.run)
  let r : Report :=
    match result with
    | .ok (.ok r) => .ok r
    | .ok (.error f) => f.report
    | .error u => u.report
  modify fun s => { s with finished := [] }
  return r.extend (← takeJournal)

/-- The answers of a script that runs first of all. -/
def run (script : List Instruction) : Report :=
  let (answers, _) := (script.mapM Instruction.answer).run (Session.new (Bridge.fresh .usual))
  .fields [("steps", .list answers)]

end ObjectBridge.StartupScript
