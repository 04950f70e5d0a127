import ObjectBridge.Conversion
import ObjectBridge.Session.Report

set_option autoImplicit false

/-!
# Sessions (SPEC §6)

A session gives names to objects, wrappers, values and errors, so that one call can use what an
earlier call answered. A variable owns the claims of what it holds.  A step of a session either
answers, fails with a reported error, or unwinds like the bridge calls it makes; what it did up to
there stays done.
-/

namespace ObjectBridge

/-- Why a step failed without unwinding. -/
inductive Failure where
  /-- no such variable -/
  | noVar
  /-- no such class -/
  | noClass
  /-- a variable of the wrong kind -/
  | notObject
  | notHost
  | notValue
  | notError
  | notTrapped
  | bridge (e : BridgeError)
  | cls (e : ClassError)
  deriving DecidableEq, Repr

/-- The claims that a failure carries. -/
def Failure.claims : Failure → List ObjId
  | bridge e => e.claims
  | _ => []

/-- What a variable holds. -/
inductive Slot where
  /-- a claim on an object -/
  | object (o : ObjId)
  | host (h : HostRef)
  | value (v : Value)
  | error (e : Failure)
  /-- several claims -/
  | bundle (claims : List ObjId)
  deriving Repr

/-- The claims that a variable owns. -/
def Slot.claims : Slot → List ObjId
  | object o => [o]
  | host h => [h.obj]
  | value v => v.claims
  | error e => e.claims
  | bundle claims => claims

/-- The object that a variable stands for. -/
def Slot.object? : Slot → Option ObjId
  | object o => some o
  | host h => some h.obj
  | value (.object h) => some h.obj
  | _ => none

/-- The wrapper that a variable stands for. -/
def Slot.host? : Slot → Option HostRef
  | host h => some h
  | value (.object h) => some h
  | _ => none

/-- A bridge, the variables in the order of their names, and the answers of the finished steps of
the current routine, the latest first. -/
structure Session where
  bridge : Bridge
  slots : List (String × Slot)
  finished : List Report
  /-- claims that were let go of as bare handles, and that no step of the session gives back -/
  bare : List ObjId

/-- Bind a name in a list that is sorted by name. -/
def bindSorted {α : Type} (name : String) (x : α) : List (String × α) → List (String × α)
  | [] => [(name, x)]
  | e :: rest =>
    if name = e.1 then (name, x) :: rest
    else if name < e.1 then (name, x) :: e :: rest
    else e :: bindSorted name x rest

namespace Session

/-- The session that starts with the given bridge. -/
def new (b : Bridge) : Session := ⟨b, [], [], []⟩

/-- The first variable, in the order of names, that is an object or a wrapper around the object `o`.
-/
def nameOf? (s : Session) (o : ObjId) : Option String :=
  s.slots.findSome? fun (name, slot) =>
    match slot with
    | .object o' => if o' = o then some name else none
    | .host h => if h.obj = o then some name else none
    | _ => none

/-- The name of the class of an object. -/
def className (s : Session) (o : ObjId) : String :=
  ((s.bridge.heap.get? o).map fun x => x.cls.name).getD ""

end Session

/-- A session call that may unwind. -/
abbrev Walk := ExceptT Unwind (StateM Session)

/-- A session call that may fail or unwind. -/
abbrev Step := ExceptT Failure Walk

variable {α : Type}

/-- Make a bridge call. -/
def callBridge (r : Run α) : Walk α := ExceptT.mk fun s =>
  let (result, b) := r.run s.bridge
  (result, { s with bridge := b })

/-- A bridge call is made on the bridge of the session. -/
instance : MonadLiftT Run Walk := ⟨callBridge⟩

/-- A bridge call inside a step never fails the step; it returns or unwinds. -/
instance : MonadLiftT Run Step := ⟨fun r => ExceptT.lift (callBridge r)⟩

/-! ## Variables -/

/-- What the variable holds. -/
def slot (name : String) : Step Slot := do
  match Assoc.find? name (← get).slots with
  | some x => return x
  | none => throw .noVar

/-- Forget a variable, without giving back its claims. -/
def removeSlot (name : String) : Step Unit :=
  modify fun s => { s with slots := Assoc.erase name s.slots }

/-- Bind a variable and give back the claims of what it held. -/
def bind (name : String) (x : Slot) : Walk Unit := do
  let old := Assoc.find? name (← get).slots
  modify fun s => { s with slots := bindSorted name x s.slots }
  match old with
  | some y => callBridge (releaseAll y.claims)
  | none => pure ()

/-- The object of a variable, borrowed. -/
def objectAt (name : String) : Step ObjId := do
  match (← slot name).object? with
  | some o => return o
  | none => throw .notObject

/-- The object of a variable, whose claim moves to the caller. -/
def takeObject (name : String) : Step ObjId := do
  let o ← objectAt name
  removeSlot name
  return o

/-- A claim on the object of a variable: its own if it is moved, a new one otherwise. -/
def claimObject (name : String) (move : Bool) : Step ObjId := do
  if move then takeObject name else return ← share (← objectAt name)

/-- The object of a variable that is an object or a wrapper itself, borrowed. -/
def heldAt (name : String) : Step ObjId := do
  match ← slot name with
  | .object o => return o
  | .host h => return h.obj
  | _ => throw .noVar

/-- The wrapped object in a variable. -/
def hostAt (name : String) : Step HostRef := do
  match (← slot name).host? with
  | some h => return h
  | none => throw .notHost

/-- The value in a variable. -/
def valueAt (name : String) : Step Value := do
  match ← slot name with
  | .value v => return v
  | _ => throw .notValue

/-- The error in a variable. -/
def errorAt (name : String) : Step Failure := do
  match ← slot name with
  | .error e => return e
  | _ => throw .notError

/-- The trapped exception in a variable. -/
def trappedAt (name : String) : Step TrappedError := do
  match ← errorAt name with
  | .bridge (.trapped t) => return t
  | _ => throw .notTrapped

/-- The class bound to a name. -/
def classNamed (name : String) : Step Class := do
  match (← get).bridge.classes.fetch name with
  | some c => return c
  | none => throw .noClass

/-- The class bound to a name, if one is given. -/
def optionalClass : Option String → Step (Option Class)
  | none => return none
  | some name => return some (← classNamed name)

/-- The answer of a bridge call that may report an error. -/
def orFail {ε : Type} (toFailure : ε → Failure) (r : Run (Except ε α)) : Step α := do
  match ← r with
  | .ok a => return a
  | .error e => throw (toFailure e)

/-- A conversion error as a failure. -/
def Failure.ofConversion (e : ConversionError) : Failure := .bridge (.conversion e)

/-- A range error as a failure. -/
def Failure.ofRange (e : RangeError) : Failure := .bridge (.range e)

/-- Run a routine whose steps note their answers.  Gives what the routine gives and the answers of
the steps that finished; the answers noted outside of it are as before, whether it returns or not.
-/
def withAnswers {m : Type → Type} [Monad m] [MonadStateOf Session m] [MonadFinally m]
    (routine : m α) :
    m (α × List Report) := do
  let outer := (← get).finished
  modify fun s => { s with finished := [] }
  tryFinally' routine fun _ => do
    let inner := (← get).finished.reverse
    modify fun s => { s with finished := outer }
    return inner

/-- Note the answer of a step that finished. -/
def noteAnswer {m : Type → Type} [MonadStateOf Session m] (r : Report) : m Unit :=
  modify fun s => { s with finished := r :: s.finished }

/-- What a step answers, and what it leaves for the variable that the step names. -/
structure Outcome where
  report : Report
  result : Option Slot

/-- An answer that leaves nothing. -/
def answer (r : Report) : Step Outcome := return ⟨r, none⟩

/-- An answer that leaves something. -/
def answerWith (r : Report) (x : Slot) : Step Outcome := return ⟨r, some x⟩

end ObjectBridge
