import ObjectBridge.Dispatch
import ObjectBridge.Value.Basic

set_option autoImplicit false

/-!
# Copying and dropping values (SPEC §12.1, §12.3)

A copy of a value has claims of its own on the objects in it, and wraps each of them anew by its
class.  Dropping a value gives back its claims.
-/

namespace ObjectBridge.Value

/-- Give back the claims of a value. -/
def drop (v : Value) : Run Unit := releaseAll v.claims

mutual

/-- A copy with claims of its own. -/
def clone : Value → Run Value
  | seq items => do return .seq (← cloneItems items)
  | map entries => do return .map (← cloneEntries entries)
  | object h => do return .object (← h.share)
  | v => pure v

/-- Copies of some values; if one cannot be copied, those before it are dropped. -/
def cloneItems : List Value → Run (List Value)
  | [] => pure []
  | v :: rest => do
    let v' ← clone v
    let rest' ← onUnwind v'.drop (cloneItems rest)
    return v' :: rest'

/-- Copies of some entries; if one cannot be copied, those before it are dropped. -/
def cloneEntries : List (String × Value) → Run (List (String × Value))
  | [] => pure []
  | (k, v) :: rest => do
    let v' ← clone v
    let rest' ← onUnwind v'.drop (cloneEntries rest)
    return (k, v') :: rest'

end

/-- The value of an object.  Consumes a claim, which the value then holds. -/
def ofObject (o : ObjId) : Run Value := do return .object (← dispatch o)

end ObjectBridge.Value
