set_option autoImplicit false

/-!
# Hexadecimal text

Bytes and words as lowercase hexadecimal digits, two digits a byte, the most significant first.

Used by reports only, on which the specification is silent.
-/

namespace ObjectBridge.Text

/-- The lowercase hexadecimal digit of a number below sixteen. -/
def hexDigit (n : Nat) : Char :=
  if n < 10 then Char.ofNat (48 + n) else Char.ofNat (87 + n)

/-- Exactly `width` hexadecimal digits of `n`, leading zeros included. -/
def hexDigits : Nat → Nat → List Char
  | 0, _ => []
  | width + 1, n => hexDigits width (n / 16) ++ [hexDigit (n % 16)]

/-- Two digits for every byte. -/
def hexBytes (bytes : List UInt8) : String :=
  String.ofList (bytes.flatMap fun b => hexDigits 2 b.toNat)

/-- Sixteen digits for a 64-bit word. -/
def hexWord64 (w : UInt64) : String := String.ofList (hexDigits 16 w.toNat)

/-- Eight digits for a 32-bit word. -/
def hexWord32 (w : UInt32) : String := String.ofList (hexDigits 8 w.toNat)

/-- The hexadecimal digits of `n` without leading zeros, one digit for zero. -/
def hexNumber (n : Nat) : String := String.ofList (Nat.toDigits 16 n)

end ObjectBridge.Text
