import ObjectBridge.Class.Table
import ObjectBridge.Heap.Sweep
import ObjectBridge.Text.XXH64
import ObjectBridge.Wrapper

set_option autoImplicit false

/-!
# The state of the bridge (SPEC §2, §3)

One value holds everything that calls can change: the class names, the heap, the wrappers registered
for classes, the exception hooks, and a journal of what was logged and finalised.  A call is a
`Run`: it either returns or unwinds, and what it did to the state stays done in both cases.

The ledger is kept for the theory only: no call reads it, and it says about a whole run what the
counts of the heap do not show.

Left out: threads (SPEC §5).  A state belongs to one caller at a time, so that a call sees no
changes but its own.
-/

namespace ObjectBridge

/-- Severity of a log line, the most severe first. -/
inductive Level where
  | error
  | warn
  | debug
  | trace
  deriving DecidableEq, Repr, Inhabited

namespace Level

/-- The word for a level in front of a log line. -/
def label : Level → String
  | error => "ERROR"
  | warn => "WARN"
  | debug => "DEBUG"
  | trace => "TRACE"

/-- Position of a level, the most severe first. -/
def rank : Level → Nat
  | error => 0
  | warn => 1
  | debug => 2
  | trace => 3

end Level

/-- One line of the journal. -/
inductive Entry where
  | log (level : Level) (text : String)
  /-- an object with a finaliser was destroyed -/
  | finalized (text : String)
  /-- the application's own hooks raised an exception with this message -/
  | raised (message : String)
  deriving DecidableEq, Repr

/-- Who raises and traps foreign exceptions: the bridge, or an application that installed hooks of
its own first. -/
inductive Hooks where
  | bridge
  | application
  deriving DecidableEq, Repr

/-- What happened to claims and objects since nothing had run yet. -/
structure Ledger where
  /-- the highest count that a claim has brought an object to, not cut to 32 bits -/
  peak : Nat
  /-- claims that a call took over and did not give back when it failed -/
  lost : List ObjId
  /-- the objects that were destroyed, in order -/
  destroyed : List ObjId
  deriving DecidableEq, Repr

namespace Ledger

/-- The ledger of a state in which nothing has run yet. -/
def empty : Ledger := ⟨0, [], []⟩

/-- Note that `x` gets one claim more. -/
def noteClaim (l : Ledger) (x : Obj) : Ledger :=
  if x.cls.isImmortal then l else { l with peak := max l.peak (x.count.toNat + 1) }

/-- Note claims that nobody will give back. -/
def noteLost (l : Ledger) (claims : List ObjId) : Ledger := { l with lost := claims ++ l.lost }

/-- Note the objects that a sweep destroyed. -/
def noteDestroyed (l : Ledger) (objects : List ObjId) : Ledger :=
  { l with destroyed := l.destroyed ++ objects }

end Ledger

/-- What the bridge finds when it runs.  No call changes it, and nothing is known of it beyond what
is said here. -/
structure Machine where
  /-- the checksum by which hashes group their keys -/
  keySum : String → UInt64
  /-- whether storage for so many elements of a vector can be had -/
  allocates : Nat → Bool
  /-- the order in which the entries of a hash are met -/
  order : EntryOrder

/-- A machine whose processes have addresses of 47 bits. -/
def Machine.usual : Machine where
  keySum := Text.XXH64.ofText
  allocates size := size * 8 < Nat.pow 2 47
  order := .stored

/-- Everything that calls can change, on a machine. -/
structure Bridge extends Machine where
  classes : ClassTable
  heap : Heap
  wrappers : SnapshotRegistry ClassId (Class × Wrapper)
  hooks : Option Hooks
  /-- whether the bridge has been started -/
  started : Bool
  /-- the objects for false and true, once they exist -/
  truths : Option (ObjId × ObjId)
  journal : Array Entry
  ledger : Ledger

/-- The state in which nothing has run yet. -/
def Bridge.fresh (machine : Machine) : Bridge where
  toMachine := machine
  classes := .initial
  heap := .empty
  wrappers := .empty
  hooks := none
  started := false
  truths := none
  journal := #[]
  ledger := .empty

/-- Why a call did not return. -/
inductive Unwind where
  /-- a foreign exception on its way to a trap, carrying a claim on its object -/
  | raised (via : Hooks) (err : ObjId)
  /-- a fault of the host program, which no trap holds up -/
  | fault (message : String)
  /-- an object was used on which no claim was left -/
  | dangling (o : ObjId)
  /-- an object that contains itself was converted -/
  | endless
  deriving DecidableEq, Repr

/-- A call on the bridge. -/
abbrev Run := ExceptT Unwind (StateM Bridge)

variable {α : Type}

/-- Append an entry to the journal. -/
def note (e : Entry) : Run Unit := modify fun b => { b with journal := b.journal.push e }

/-- Append a log line to the journal. -/
def log (level : Level) (text : String) : Run Unit := note (.log level text)

/-- End in a fault of the host program. -/
def fault (message : String) : Run α := throw (.fault message)

/-- The live object `o`. -/
def readObj (o : ObjId) : Run Obj := do
  match (← get).heap.get? o with
  | some x => pure x
  | none => throw (.dangling o)

/-- The class of `o`. -/
def classOf (o : ObjId) : Run Class := do return (← readObj o).cls

/-- Whether the class of `o` is `c` or descends from it. -/
def isA (o : ObjId) (c : Class) : Run Bool := do return (← classOf o).isSubclassOf c

/-- The claims on `o`, as they are reported. -/
def refcount (o : ObjId) : Run UInt32 := do return (← readObj o).refcount

/-- Put an object with one claim on the heap. -/
def allocate (c : Class) (p : Payload) : Run ObjId := do
  let b ← get
  set { b with heap := b.heap.add ⟨c, 1, p⟩ }
  return b.heap.next

/-- Replace the payload of `o`. -/
def setPayload (o : ObjId) (p : Payload) : Run Unit :=
  modify fun b => { b with heap := b.heap.setPayload o p }

/-- One claim more on `o`. -/
def retain (o : ObjId) : Run Unit := do
  let x ← readObj o
  modify fun b => { b with heap := b.heap.retain o, ledger := b.ledger.noteClaim x }

/-- Objects are shown without their addresses. -/
def address : String := "0xADDR"

/-- The message of giving back a claim that does not exist. -/
def overdrawnMessage (c : Class) : String :=
  s!"Illegal refcount of 0 for {c.name} object at {address}"

/-- What the journal says about a destroyed object.  A zombie gives back one claim more while it is
destroyed, under a trap of its own. -/
def finalEntries (x : Obj) : List Entry :=
  match x.payload with
  | .tracked label => [.finalized label]
  | .zombie =>
    let message := overdrawnMessage x.cls
    [.log .trace "entering trap boundary", .log .trace ("raising clownfish exception: " ++ message),
      .log .trace "trapped clownfish exception", .finalized ("zombie " ++ message)]
  | _ => []

/-- Give back the claims of a list in turn, and say what stopped it. -/
def sweepClaims (claims : List ObjId) : Run (Option Stop) := do
  let b ← get
  let s := b.heap.sweep claims
  let entries := s.destroyed.flatMap fun d => finalEntries d.2
  set { b with
    heap := s.heap
    journal := b.journal ++ entries.toArray
    ledger := b.ledger.noteDestroyed (s.destroyed.map Prod.fst) }
  return s.stop

/-- Make a call that has taken over some claims.  They are lost if it does not return. -/
def losing (claims : List ObjId) (r : Run α) : Run α :=
  tryCatch r fun u => do
    modify fun b => { b with ledger := b.ledger.noteLost claims }
    throw u

end ObjectBridge
