import ObjectBridge.Typed.Encode

set_option autoImplicit false

/-!
# From values to host data (SPEC §12.3)

Decoding succeeds for a value of the shape that the type asks for whose integers fit; it answers the
error of the first place that does not.  Data that is read out has claims of its own.
-/

namespace ObjectBridge.Ty

/-- The error of a value of another kind than the expected one. -/
def mismatch {α : Type} (expected : String) (v : Value) : Except BridgeError α :=
  .error (.conversion (.typeMismatch expected v.kind))

/-- Read a scalar that is part of the value itself. -/
def decodeScalar {α : Type} (expected : String) (view : Value → Option α) (v : Value) :
    Except BridgeError α :=
  match view v with
  | some a => .ok a
  | none => mismatch expected v

/-- Read an integer of type `t`. -/
def decodeInt (t : IntType) (v : Value) : Except BridgeError { n : Int // t.Fits n } :=
  match v with
  | .int n => if h : t.Fits n.toInt then .ok ⟨n.toInt, h⟩ else .error (.range ⟨n.toInt, t.label⟩)
  | v => mismatch "int" v

/-- Decode the members of a list in turn.  The first failure ends it and drops what was decoded
before. -/
def decodeAll {α β : Type} (decode : α → Run (Except BridgeError β)) (dropItem : β → Run Unit) :
    List α → Run (Except BridgeError (List β))
  | [] => pure (.ok [])
  | v :: rest => do
    match ← decode v with
    | .error e => return .error e
    | .ok x =>
      match ← onUnwind (dropItem x) (decodeAll decode dropItem rest) with
      | .error e =>
        dropItem x
        return .error e
      | .ok xs => return .ok (x :: xs)

/-- Decode the values of a map. -/
def decodeEntries {β : Type} (decode : Value → Run (Except BridgeError β)) (dropItem : β → Run Unit)
    (v : Value) :
    Run (Except BridgeError (List (String × β))) := do
  match v with
  | .map entries => decodeAll (withKey decode) (fun e => dropItem e.2) entries
  | v => return mismatch "map" v

/-- The data of a value.  Borrows the value; the data has claims of its own. -/
def decode : (t : Ty) → Value → Run (Except BridgeError t.Carrier)
  | int t, v => pure (decodeInt t v)
  | float32, v => pure ((decodeScalar "float" Value.float? v).map Number.narrow)
  | float64, v => pure (decodeScalar "float" Value.float? v)
  | bool, v => pure (decodeScalar "bool" Value.bool? v)
  | text, v => pure (decodeScalar "text" Value.text? v)
  | bytes, v => pure (decodeScalar "bytes" Value.bytes? v)
  | value, v => do return .ok (← v.clone)
  | claim, v => do
    match v with
    | .object h => return .ok (← share h.obj)
    | v => return mismatch "object" v
  | host, v => do
    match v with
    | .object h => return .ok (← h.share)
    | v => return mismatch "object" v
  | option t, v => do
    match v with
    | .null => return .ok (none : Option t.Carrier)
    | v =>
      match ← decode t v with
      | .ok x => return .ok (some x : Option t.Carrier)
      | .error e => return .error e
  | list t, v => do
    match v with
    | .seq items => decodeAll (decode t) t.drop items
    | v => return mismatch "seq" v
  | dict t, v => decodeEntries (decode t) t.drop v
  | sortedDict t, v => do
    match ← decodeEntries (decode t) t.drop v with
    | .ok es => return .ok (sortByKey es)
    | .error e => return .error e

/-- The data of the host form of an object or of a null handle. -/
def fromForeign (t : Ty) (o : Option ObjId) : Run (Except BridgeError t.Carrier) := do
  let v ← foreignToHost o
  let result ← onUnwind v.drop (t.decode v)
  v.drop
  return result

end ObjectBridge.Ty
