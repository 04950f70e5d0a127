import ObjectBridge.Bridge.Exception

set_option autoImplicit false

/-!
# Starting the bridge (SPEC §6, §12.5)

Starting installs the bridge's hooks unless others are installed already, brings up the built-in
classes and registers their wrappers.  It happens once; later starts do nothing.
-/

namespace ObjectBridge

/-- Install hooks unless some are installed, and say whether they were installed. -/
def installHooks (hooks : Hooks) : Run Bool := do
  if (← get).hooks.isSome then return false
  modify fun b => { b with hooks := some hooks }
  log .debug "installed clownfish raise/trap hooks"
  return true

/-- Whether anyone has installed hooks. -/
def hooksInstalled : Run Bool := do return (← get).hooks.isSome

/-- The object for a truth value.  Both are made when the first is asked for. -/
def truth (value : Bool) : Run ObjId := do
  match (← get).truths with
  | some (no, yes) => return if value then yes else no
  | none =>
    let no ← makeObj .boolean (.boolean false)
    let yes ← makeObj .boolean (.boolean true)
    modify fun b => { b with truths := some (no, yes) }
    return if value then yes else no

/-- Bring up the built-in classes. -/
def bootstrap : Run Unit := do
  if !(← hooksInstalled) then
    log .warn "clownfish core bootstrapped before host hooks; raising will panic"
  let names := (← get).classes.size
  let _ ← truth false
  log .debug s!"clownfish core bootstrapped with {names} class names"

/-- Register a wrapper for exactly the class `c`, in place of an earlier one, and say whether there
was none. -/
def registerWrapper (c : Class) (w : Wrapper) : Run Bool := do
  let b ← get
  let (old, wrappers) := b.wrappers.insert c.id (c, w)
  set { b with wrappers := wrappers }
  let verb := if old.isNone then "registered" else "replaced"
  log .debug s!"{verb} wrap function for {c.name}"
  return old.isNone

/-- Register several wrappers under one publication; the answer is how many classes had none. -/
def registerWrappers (entries : List (Class × Wrapper)) : Run Nat := do
  let b ← get
  let (added, wrappers) := b.wrappers.insertAll (entries.map fun e => (e.1.id, e))
  set { b with wrappers := wrappers }
  log .debug s!"registered {added} new wrap functions"
  return added

/-- Start the bridge, if that has not been done. -/
def start : Run Unit := do
  if (← get).started then return
  modify fun b => { b with started := true }
  if !(← installHooks .bridge) then warn "clownfish raise/trap hooks were already installed"
  bootstrap
  let _ ← registerWrappers Wrapper.builtins
  log .debug "clownfish bridge initialized"

/-- The state after starting the bridge first of all, with an empty journal. -/
def Bridge.ready (machine : Machine) : Bridge :=
  { (start.run (Bridge.fresh machine)).2 with journal := #[] }

/-- Define a class below `parent`. -/
def defineClass (name : String) (parent : Class) (flags : ClassFlags) (layout : Layout) :
    Run (Except ClassError Class) := do
  let b ← get
  let (result, classes) := b.classes.define name parent flags layout.size
  set { b with classes := classes }
  match result with
  | .error e => return .error e
  | .ok d =>
    if d.isNew then log .debug s!"defining class {name} (parent {parent.name})"
    return .ok d.cls

/-- Bind one more name to a class. -/
def aliasClass (c : Class) (name : String) : Run (Except ClassError Unit) := do
  let b ← get
  let (result, classes) := b.classes.addAlias c name
  set { b with classes := classes }
  return result

/-- Raise a new exception from the host side. -/
def throwForeign {α : Type} (message : String) : Run α := do
  start
  raise message

end ObjectBridge
