import ObjectBridge.Session.ObjectAction

set_option autoImplicit false

/-!
# Steps on wrappers (SPEC §4.2, §12.2)
-/

namespace ObjectBridge

/-- The wrapper that scripts add for a class of their own. -/
def widget : Extension := ⟨"Widget", "Drv::Widget", .word⟩

/-- A step on wrappers. -/
inductive WrapperAction where
  | register (cls : String) (w : Wrapper)
  | registerAll (entries : List (String × Wrapper))
  | lookup (cls : String)
  | registered
  /-- register the wrapper that scripts add for the class it stands for -/
  | registerWidget
  | dispatch (on : String) (move : Bool)
  | share (on : String)
  | debug (on : String)
  | unwrap (on : String)
  | downcast (on : String) (w : Wrapper)

/-- Answer with a wrapper. -/
def answerHost (h : HostRef) : Step Outcome := do answerWith (h.report (← get)) (.host h)

/-- Do a wrapper action. -/
def WrapperAction.run : WrapperAction → Step Outcome
  | register cls w => do
    let c ← classNamed cls
    answer (.flag (← registerWrapper c w))
  | registerAll entries => do
    let classes ← entries.mapM fun e => do return (← classNamed e.1, e.2)
    answer (.count (← registerWrappers classes))
  | lookup cls => do
    let c ← classNamed cls
    answer (.flag (← wrapperFor? c).isSome)
  | registered => do
    let names := (← registeredClasses).map Class.name
    answer (.texts (names.mergeSort fun a b => decide (a ≤ b)))
  | registerWidget => do
    let c ← (Wrapper.extension widget).foreignClass
    answer (.flag (← registerWrapper c (.extension widget)))
  | dispatch on move => do
    let o ← claimObject on move
    answerHost (← ObjectBridge.dispatch o)
  | share on => do answerHost (← (← hostAt on).share)
  | debug on => do
    let h ← hostAt on
    answer (.text (h.debugTree (← get).className).compact)
  | unwrap on => do answerClaim (← takeObject on)
  | downcast on w => do
    let h ← hostAt on
    modify fun s => { s with slots := bindSorted on (.host h) s.slots }
    let hit := h.wrapper == w
    let n ← refcount h.obj
    answer (.fields [("ref", .flag hit), ("box", .flag hit), ("refcount", .count n.toNat)])

end ObjectBridge
