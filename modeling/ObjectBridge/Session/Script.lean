import ObjectBridge.Session.ClassAction
import ObjectBridge.Session.ConversionAction
import ObjectBridge.Session.ErrorAction
import ObjectBridge.Session.MethodAction
import ObjectBridge.Session.WrapperAction

set_option autoImplicit false

/-!
# Scripts (SPEC §4.4, §6, §12.1)

A script is a list of instructions on one session.  Every top-level instruction runs under a trap
and answers with what it reports, what was finalised and, if asked for, what was logged.  Routines
of traps and of loans are scripts of their own, whose steps are not guarded: a raised exception ends
the routine, a fault ends the whole top-level instruction.
-/

namespace ObjectBridge

/-- A step that runs no routine. -/
inductive Action where
  | onClass (a : ClassAction)
  | onObject (a : ObjectAction)
  | onValue (a : ConversionAction)
  | onWrapper (a : WrapperAction)
  | onError (a : ErrorAction)
  | method (on : String) (w : Wrapper) (m : Method)
  | primitive (on : String) (move : Bool) (p : Primitive)

/-- Do an action. -/
def Action.run : Action → Step Outcome
  | onClass a => a.run
  | onObject a => a.run
  | onValue a => a.run
  | onWrapper a => a.run
  | onError a => a.run
  | method on w m => callMethod on w m
  | primitive on move p => callPrimitive on move p

/-- How the use of a lent claim ends, once its routine has run. -/
inductive Loan where
  | look
  | raise (message : String)
  | fault (message : String)
  | fail

/-- End the use of the lent object. -/
def Loan.finish (o : ObjId) : Loan → Step Outcome
  | look => do answer (← brief o)
  | raise message => (throwForeign message : Run Outcome)
  | fault message => (ObjectBridge.fault message : Run Outcome)
  | fail => throw (.ofConversion .nullHandle)

/-- An instruction: a step, a trap or a loan, the variable for its result and the variable for its
error. -/
inductive Instruction where
  | act (a : Action) (result error : Option String)
  /-- a routine under the trap of the hooks, or under the bridge's -/
  | trap (byHooks : Bool) (routine : List Instruction) (result error : Option String)
  /-- a routine that runs while a claim on an object is lent, and what is done with it at the end -/
  | lend (on : String) (move : Bool) (routine : List Instruction) (loan : Loan)
    (result error : Option String)

/-- The variable for the error of an instruction. -/
def Instruction.errorName : Instruction → Option String
  | act _ _ e => e
  | trap _ _ _ e => e
  | lend _ _ _ _ _ e => e

/-- Bind a variable to something, or give back its claims if there is no variable for it. -/
def keep (name : Option String) (x : Slot) : Walk Unit := do
  match name with
  | some n => bind n x
  | none => callBridge (releaseAll x.claims)

/-- Which log lines answers show. -/
abbrev LogFilter := Option Level

/-- The journal since the last answer, as fields of an answer. -/
def takeJournal (filter : LogFilter) : StateM Session (List (String × Report)) := do
  let s ← get
  set { s with bridge := { s.bridge with journal := #[] } }
  let entries := s.bridge.journal.toList
  let finalized := entries.filterMap fun
    | .finalized text => some text
    | _ => none
  let lines := entries.filterMap fun
    | .log level text =>
      match filter with
      | some shown => if level.rank ≤ shown.rank then some (level.label ++ " " ++ text) else none
      | none => none
    | _ => none
  return (if finalized.isEmpty then [] else [("destroyed", .texts finalized)]) ++
    (if lines.isEmpty then [] else [("log", .texts lines)])

/-- Keep what a step left, or the error it failed with, and give its answer. -/
def settle (result error : Option String) : Except Failure Outcome → Walk Report
  | .ok outcome => do
    match outcome.result with
    | some x => keep result x
    | none => pure ()
    return .ok outcome.report
  | .error f => do
    keep error (.error f)
    return f.report

/-- Run a routine under the trap of the hooks or of the bridge.  Gives the message of the exception
that it raised, and what the trap leaves: the exception object, or an error. -/
def trapRoutine (byHooks : Bool) (routine : Walk Unit) : Walk (Option (String × Slot)) := do
  if byHooks then
    match ← ObjectBridge.trap routine with
    | none => return none
    | some err => return some (← ErrObj.message err, .object err)
  else
    match ← runTrapped routine with
    | .ok () => return none
    | .error t => return some (t.message, .error (.bridge (.trapped t)))

/-- Claim the object of a variable for a routine and for what is done at its end.  The claim is
given back on every way out. -/
def lendRoutine (on : String) (move : Bool) (routine : Walk Unit) (loan : Loan) : Step Outcome := do
  let o ← claimObject on move
  withClaims [o] do
    routine
    loan.finish o

mutual

/-- Run an instruction that is not guarded. -/
def Instruction.run (filter : LogFilter) : Instruction → Walk Report
  | .act a result error => do
    let outcome ← ExceptT.run a.run
    settle result error outcome
  | .trap byHooks routine result error => do
    let (caught, inner) ← withAnswers (trapRoutine byHooks (runRoutine filter routine))
    let report : Report :=
      .fields [("inner", .list inner), ("trapped", .option (fun c => .text c.1) caught)]
    settle result error (.ok ⟨report, caught.map Prod.snd⟩)
  | .lend on move routine loan result error => do
    let (outcome, inner) ← withAnswers
        (ExceptT.run (lendRoutine on move (runRoutine filter routine) loan))
    let report ← settle result error outcome
    return report.extend (if inner.isEmpty then [] else [("inner", .list inner)])

/-- Run the steps of a routine, and note the answer of each step that finishes. -/
def runRoutine (filter : LogFilter) : List Instruction → Walk Unit
  | [] => pure ()
  | i :: rest => do
    let r ← i.run filter
    noteAnswer (r.extend (← takeJournal filter))
    runRoutine filter rest

end

/-- Run a top-level instruction under a trap. -/
def Instruction.guarded (filter : LogFilter) (i : Instruction) : Walk Report := do
  match ← runTrapped (i.run filter) with
  | .ok r => return r
  | .error t => settle none i.errorName (.error (.bridge (.trapped t)))

/-- The answer of a top-level instruction. -/
def Instruction.answer (filter : LogFilter) (i : Instruction) : StateM Session Report := do
  let result ← ExceptT.run (i.guarded filter)
  let r :=
    match result with
    | .ok r => r
    | .error u => u.report
  modify fun s => { s with finished := [] }
  return r.extend (← takeJournal filter)

/-- The counts of the objects that variables hold directly. -/
def Session.live (s : Session) : List (String × Report) :=
  s.slots.filterMap fun (name, x) =>
    let count (o : ObjId) : Option (String × Report) :=
      (s.bridge.heap.get? o).map fun x => (name, .count x.refcount.toNat)
    match x with
    | .object o => count o
    | .host h => count h.obj
    | _ => none

/-- Drop every variable, in the order of names. -/
def dropAll : Walk Unit := do
  let s ← get
  set { s with slots := [] }
  callBridge (s.slots.forM fun e => releaseAll e.2.claims)

/-- The answers of a script on a bridge that has just been started, and what is left at its end. -/
def runScript (filter : LogFilter) (script : List Instruction) : Report :=
  let (answers, s) :=
    (script.mapM (Instruction.answer filter)).run (Session.new (Bridge.ready .usual))
  let (_, s') := dropAll.run s
  let finalized := s'.bridge.journal.toList.filterMap fun
    | .finalized text => some text
    | _ => none
  .fields
    [("steps", .list answers),
      ("end", .fields [("live", .fields s.live), ("destroyed", .texts finalized)])]

end ObjectBridge
