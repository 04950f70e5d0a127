import ObjectBridge.Value.Basic

set_option autoImplicit false

/-!
# Types of host data (SPEC §12.3)

The data that an application reads out of values or turns into values: integers of a given width,
floats, truth values, texts, byte strings, values and objects, under options, lists and maps with
text keys.  `Ty.Data` is the Lean type of the data of a type; what stands for values, claims and
wrappers is a parameter, because a script writes them as expressions and names.

Left out: borrowed texts and byte strings, which become what owned ones become.
-/

namespace ObjectBridge

/-- Widths of integer types.  A pointer has 64 bits. -/
inductive IntSize where
  | bits8
  | bits16
  | bits32
  | bits64
  | bits128
  | pointer
  deriving DecidableEq, Repr, Inhabited

namespace IntSize

/-- Width in bits. -/
def bits : IntSize → Nat
  | bits8 => 8
  | bits16 => 16
  | bits32 => 32
  | bits64 | pointer => 64
  | bits128 => 128

/-- The width as it stands in the name of a type. -/
def label : IntSize → String
  | bits8 => "8"
  | bits16 => "16"
  | bits32 => "32"
  | bits64 => "64"
  | bits128 => "128"
  | pointer => "size"

end IntSize

/-- An integer type. -/
structure IntType where
  signed : Bool
  size : IntSize
  deriving DecidableEq, Repr, Inhabited

namespace IntType

/-- The name of the type, as errors give it. -/
def label (t : IntType) : String := (if t.signed then "i" else "u") ++ t.size.label

/-- The least number of the type. -/
def low (t : IntType) : Int := if t.signed then -(Nat.pow 2 (t.size.bits - 1) : Nat) else 0

/-- The greatest number of the type. -/
def high (t : IntType) : Int :=
  (Nat.pow 2 (if t.signed then t.size.bits - 1 else t.size.bits) : Nat) - 1

/-- Whether the number belongs to the type. -/
def Fits (t : IntType) (n : Int) : Prop := t.low ≤ n ∧ n ≤ t.high

/-- Fitting is decided by comparing with the two bounds. -/
instance (t : IntType) (n : Int) : Decidable (t.Fits n) := inferInstanceAs (Decidable (_ ∧ _))

/-- The numbers that a value can hold. -/
def value : IntType := ⟨true, .bits64⟩

/-- Whether the type is one of those whose numbers all fit into a value.  A pointer is not taken to
be of any width. -/
def widens : IntType → Bool
  | ⟨_, .bits8⟩ | ⟨_, .bits16⟩ | ⟨_, .bits32⟩ | ⟨true, .bits64⟩ => true
  | _ => false

theorem bounds_of_widens {t : IntType} (ht : t.widens = true) :
    value.low ≤ t.low ∧ t.high ≤ value.high := by
  obtain ⟨signed, size⟩ := t
  cases size with
  | bits8 | bits16 | bits32 => cases signed <;> decide
  | bits64 =>
    cases signed
    · cases ht
    · exact ⟨Int.le_refl _, Int.le_refl _⟩
  | bits128 | pointer => cases signed <;> cases ht

theorem fits_value_of_widens {t : IntType} {n : Int} (ht : t.widens = true) (hn : t.Fits n) :
    value.Fits n :=
  ⟨Int.le_trans (bounds_of_widens ht).1 hn.1, Int.le_trans hn.2 (bounds_of_widens ht).2⟩

end IntType

/-- A type of host data. -/
inductive Ty where
  | int (t : IntType)
  | float32
  | float64
  | bool
  | text
  | bytes
  | value
  /-- a claim on an object -/
  | claim
  /-- a wrapper around an object -/
  | host
  | option (t : Ty)
  | list (t : Ty)
  /-- a map without an order -/
  | dict (t : Ty)
  /-- a map in key order -/
  | sortedDict (t : Ty)
  deriving DecidableEq, Repr, Inhabited

namespace Ty

/-- The data of a type, with `V` for values, `R` for claims and `H` for wrappers. -/
def Data (V R H : Type) : Ty → Type
  | int t => { n : Int // t.Fits n }
  | float32 => UInt32
  | float64 => UInt64
  | bool => Bool
  | text => String
  | bytes => List UInt8
  | value => V
  | claim => R
  | host => H
  | option t => Option (Data V R H t)
  | list t => List (Data V R H t)
  | dict t => List (String × Data V R H t)
  | sortedDict t => List (String × Data V R H t)

/-- The data of a type on the host side. -/
abbrev Carrier : Ty → Type := Data Value ObjId HostRef

/-- The claims that data holds. -/
def claims : (t : Ty) → t.Carrier → List ObjId
  | value, (v : Value) => v.claims
  | claim, (o : ObjId) => [o]
  | host, (h : HostRef) => [h.obj]
  | option t, (x : Option t.Carrier) => x.toList.flatMap t.claims
  | list t, (xs : List t.Carrier) => xs.flatMap t.claims
  | dict t, (es : List (String × t.Carrier)) => es.flatMap fun e => t.claims e.2
  | sortedDict t, (es : List (String × t.Carrier)) => es.flatMap fun e => t.claims e.2
  | int _, _ | float32, _ | float64, _ | bool, _ | text, _ | bytes, _ => []

end Ty

/-- Entries in the order of their keys. -/
def sortByKey {α : Type} (entries : List (String × α)) : List (String × α) :=
  entries.mergeSort fun a b => decide (a.1 ≤ b.1)

end ObjectBridge
