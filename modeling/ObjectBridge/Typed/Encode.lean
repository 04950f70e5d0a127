import ObjectBridge.Conversion
import ObjectBridge.Number.Binary
import ObjectBridge.Typed.Basic

set_option autoImplicit false

/-!
# From host data to values (SPEC §12.3)

Encoding fails only for an integer that a value cannot hold.  It consumes the claims of the data; a
claim becomes a value by wrapping its object.
-/

namespace ObjectBridge.Ty

/-- Give back the claims of data. -/
def drop (t : Ty) (x : t.Carrier) : Run Unit := releaseAll (t.claims x)

/-- The value of an integer that a value can hold. -/
def widenInt (n : Int) : Value := .int (Int64.ofInt n)

/-- The value of an integer that may be too large or too small for one. -/
def checkInt (n : Int) : Except RangeError Value :=
  if IntType.value.Fits n then .ok (widenInt n) else .error ⟨n, IntType.value.label⟩

/-- The value of an integer.  Types that are narrow enough are not checked. -/
def encodeInt (t : IntType) (n : Int) : Except RangeError Value :=
  if t.widens then .ok (widenInt n) else checkInt n

/-- The check that narrow types go without would let all their numbers pass. -/
theorem encodeInt_eq_checkInt {t : IntType} {n : Int} (hn : t.Fits n) :
    encodeInt t n = checkInt n := by
  unfold encodeInt
  split
  · rename_i ht
    exact (if_pos (IntType.fits_value_of_widens ht hn)).symm
  · rfl

theorem encodeInt_of_fits {t : IntType} {n : Int} (ht : t.Fits n) (hn : IntType.value.Fits n) :
    encodeInt t n = .ok (widenInt n) :=
  (encodeInt_eq_checkInt ht).trans (if_pos hn)

theorem encodeInt_of_not_fits {t : IntType} {n : Int} (ht : t.Fits n)
    (hn : ¬ IntType.value.Fits n) :
    encodeInt t n = .error ⟨n, IntType.value.label⟩ :=
  (encodeInt_eq_checkInt ht).trans (if_neg hn)

/-- Encode the members of a list in turn.  The first failure ends it and drops all the rest. -/
def encodeAll {α β : Type} (encode : α → Run (Except RangeError β)) (dropItem : α → Run Unit)
    (dropResult : β → Run Unit) : List α → Run (Except RangeError (List β))
  | [] => pure (.ok [])
  | x :: rest => do
    match ← onUnwind (rest.forM dropItem) (encode x) with
    | .error e =>
      rest.forM dropItem
      return .error e
    | .ok y =>
      match ← onUnwind (dropResult y) (encodeAll encode dropItem dropResult rest) with
      | .error e =>
        dropResult y
        return .error e
      | .ok ys => return .ok (y :: ys)

/-- Do something with the value of an entry, and keep its key. -/
def withKey {α β ε : Type} (f : α → Run (Except ε β)) (e : String × α) :
    Run (Except ε (String × β)) := do
  match ← f e.2 with
  | .error e => return .error e
  | .ok y => return .ok (e.1, y)

/-- Encode the values of a map, in the order of the list. -/
def encodeEntries {α : Type} (encode : α → Run (Except RangeError Value)) (dropItem : α → Run Unit)
    (entries : List (String × α)) : Run (Except RangeError Value) := do
  match ← encodeAll (withKey encode) (fun e => dropItem e.2) (fun e => e.2.drop) entries with
  | .error e => return .error e
  | .ok es => return .ok (.map es)

/-- The value of data.  Consumes the claims of the data. -/
def encode : (t : Ty) → t.Carrier → Run (Except RangeError Value)
  | int t, n => pure (encodeInt t n.1)
  | float32, (w : UInt32) => pure (.ok (.float (Number.widen w)))
  | float64, (w : UInt64) => pure (.ok (.float w))
  | bool, (b : Bool) => pure (.ok (.bool b))
  | text, (s : String) => pure (.ok (.text s))
  | bytes, (b : List UInt8) => pure (.ok (.bytes b))
  | value, (v : Value) => pure (.ok v)
  | claim, (o : ObjId) => do return .ok (← Value.ofObject o)
  | host, (h : HostRef) => pure (.ok (.object h))
  | option t, (x : Option t.Carrier) =>
    match x with
    | none => pure (.ok .null)
    | some y => encode t y
  | list t, (xs : List t.Carrier) => do
    match ← encodeAll (encode t) t.drop Value.drop xs with
    | .error e => return .error e
    | .ok vs => return .ok (.seq vs)
  | dict t, (es : List (String × t.Carrier)) => encodeEntries (encode t) t.drop es
  | sortedDict t, (es : List (String × t.Carrier)) => encodeEntries (encode t) t.drop es

/-- The foreign form of data.  An integer that is out of range fails before anything is built. -/
def toForeign (t : Ty) (x : t.Carrier) (required : Option Class) (nullable : Bool) :
    Run (Except BridgeError (Option ObjId)) := do
  match ← t.encode x with
  | .error e => return .error (.range e)
  | .ok v =>
    let result ← onUnwind v.drop (hostToForeign v required nullable)
    v.drop
    match result with
    | .ok o => return .ok o
    | .error e => return .error (.conversion e)

end ObjectBridge.Ty
