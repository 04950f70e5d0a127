set_option autoImplicit false

/-!
# Binary floating-point words (SPEC §4.3, §11.3)

Numbers are kept as their bits.  A word is taken apart into a sign and a magnitude `m * 2 ^ q`, and
a magnitude is put into a format by rounding to nearest, ties to the even significand.  Widening and
narrowing between the two formats is one after the other.

Left out: arithmetic.  The bridge stores, widens and narrows floats and never computes with them.
-/

namespace ObjectBridge.Number

/-- A binary interchange format: significand bits (the hidden one included) and exponent bits. -/
structure Format where
  precision : Nat
  exponentBits : Nat
  deriving DecidableEq, Repr

/-- Single precision. -/
def binary32 : Format := ⟨24, 8⟩

/-- Double precision. -/
def binary64 : Format := ⟨53, 11⟩

/-- What a word denotes. -/
inductive Decoded where
  /-- not a number, with the fraction bits that are its payload -/
  | nan (negative : Bool) (fraction : Nat)
  | infinity (negative : Bool)
  /-- plus or minus `m * 2 ^ q` -/
  | finite (negative : Bool) (m : Nat) (q : Int)
  deriving DecidableEq, Repr

namespace Format

/-- Number of stored fraction bits. -/
def fractionBits (f : Format) : Nat := f.precision - 1

/-- The exponent field of infinities and NaNs. -/
def topExponent (f : Format) : Nat := Nat.pow 2 f.exponentBits - 1

/-- Weight, as a power of two, of the last place of the smallest magnitudes. -/
def leastExponent (f : Format) : Int :=
  2 - ((Nat.pow 2 (f.exponentBits - 1) : Nat) : Int) - (f.fractionBits : Int)

/-- Take a word apart. -/
def decode (f : Format) (word : Nat) : Decoded :=
  let fraction := word % Nat.pow 2 f.fractionBits
  let exponent := word / Nat.pow 2 f.fractionBits % Nat.pow 2 f.exponentBits
  let negative := word / Nat.pow 2 (f.fractionBits + f.exponentBits) % 2 == 1
  if exponent = f.topExponent then
    if fraction = 0 then .infinity negative else .nan negative fraction
  else if exponent = 0 then .finite negative fraction f.leastExponent
  else .finite negative (Nat.pow 2 f.fractionBits + fraction)
    (f.leastExponent + (exponent : Int) - 1)

/-- The integer nearest to `m / 2 ^ s`, ties to the even one. -/
def roundShift (m s : Nat) : Nat :=
  let quotient := m / Nat.pow 2 s
  let remainder := m % Nat.pow 2 s
  if 2 * remainder < Nat.pow 2 s then quotient
  else if 2 * remainder = Nat.pow 2 s then quotient + quotient % 2
  else quotient + 1

/-- The magnitude bits of `m * 2 ^ q` in the format, infinity where it is too large. -/
def encodeMagnitude (f : Format) (m : Nat) (q : Int) : Nat :=
  if m = 0 then 0
  else
    let length := Nat.log2 m + 1
    let e := max (q + (length : Int) - (f.precision : Int)) f.leastExponent
    let significand := if e ≤ q then m * Nat.pow 2 (q - e).toNat else roundShift m (e - q).toNat
    min ((e - f.leastExponent).toNat * Nat.pow 2 f.fractionBits + significand)
      (f.topExponent * Nat.pow 2 f.fractionBits)

/-- Put a sign before magnitude bits. -/
def signed (f : Format) (negative : Bool) (magnitude : Nat) : Nat :=
  (if negative then Nat.pow 2 (f.fractionBits + f.exponentBits) else 0) + magnitude

/-- The word of format `g` for a word of format `f`: exact where `g` is the wider format, rounded to
nearest otherwise. A NaN keeps the leading bits of its payload and is quiet. -/
def convert (f g : Format) (word : Nat) : Nat :=
  match f.decode word with
  | .infinity negative => g.signed negative (g.topExponent * Nat.pow 2 g.fractionBits)
  | .finite negative m q => g.signed negative (g.encodeMagnitude m q)
  | .nan negative fraction =>
    let payload := fraction * Nat.pow 2 g.fractionBits / Nat.pow 2 f.fractionBits
    g.signed negative (g.topExponent * Nat.pow 2 g.fractionBits +
      (payload ||| Nat.pow 2 (g.fractionBits - 1)))

end Format

/-- The double with the same value as a single. -/
def widen (word : UInt32) : UInt64 := (binary32.convert binary64 word.toNat).toUInt64

/-- The single nearest to a double. -/
def narrow (word : UInt64) : UInt32 := (binary64.convert binary32 word.toNat).toUInt32

end ObjectBridge.Number
