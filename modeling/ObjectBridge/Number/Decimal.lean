import ObjectBridge.Number.Binary

set_option autoImplicit false

/-!
# Shortest decimals

The decimal with the fewest digits that reads back as a given binary number, and its layout as text.
Of the powers of ten the largest is taken for which some multiple lies among the numbers that round
to the given one; of two such neighbours the nearer is taken, and the upper one if both are equally
near.  All arithmetic is exact.

The specification does not say how a float is shown; this is what diagnostic texts do.
-/

namespace ObjectBridge.Number

/-- A decimal `digits * 10 ^ exponent`. -/
structure Decimal where
  digits : Nat
  exponent : Int
  deriving DecidableEq, Repr, Inhabited

/-- The numbers that round to a given one, as multiples of `1 / den`.  The ends belong to it if
`closed`. -/
structure RoundingInterval where
  low : Nat
  value : Nat
  high : Nat
  den : Nat
  closed : Bool
  deriving DecidableEq, Repr

namespace RoundingInterval

/-- The interval of the positive number `m * 2 ^ q`.  Below a power of two the gap to the next
number is half as wide, except at the least exponent. -/
def of (f : Format) (m : Nat) (q : Int) : RoundingInterval :=
  let scale := Nat.pow 2 (q - 2).toNat
  let below := if m = Nat.pow 2 f.fractionBits ∧ q ≠ f.leastExponent then 1 else 2
  { low := (4 * m - below) * scale
    value := 4 * m * scale
    high := (4 * m + 2) * scale
    den := Nat.pow 2 (2 - q).toNat
    closed := m % 2 == 0 }

/-- The multiple of `10 ^ e` in the interval that is nearest to its value, the upper one of two
equally near. -/
def multiple? (i : RoundingInterval) (e : Int) : Option Nat :=
  let unit := i.den * Nat.pow 10 e.toNat
  let scale := Nat.pow 10 (-e).toNat
  let inside (c : Nat) : Bool :=
    if i.closed then i.low * scale ≤ c * unit && c * unit ≤ i.high * scale
    else i.low * scale < c * unit && c * unit < i.high * scale
  let value := i.value * scale
  let c := value / unit
  match inside c, inside (c + 1) with
  | true, true => some (if value - c * unit < (c + 1) * unit - value then c else c + 1)
  | true, false => some c
  | false, true => some (c + 1)
  | false, false => none

/-- The shortest decimal in the interval, trying the powers of ten from `10 ^ top` downwards. -/
def shortest (i : RoundingInterval) (top : Int) (steps : Nat) : Decimal :=
  ((List.range steps).findSome? fun (k : Nat) =>
    (i.multiple? (top - (k : Int))).map fun c => Decimal.mk c (top - (k : Int))).getD ⟨0, 0⟩

end RoundingInterval

/-- The shortest decimal that reads back as the positive double `m * 2 ^ q`. -/
def shortestDecimal (m : Nat) (q : Int) : Decimal :=
  (RoundingInterval.of binary64 m q).shortest 309 650

/-- How a decimal is laid out: the exponents of the leading digit from which and below which it is
written with a plain decimal point.  Outside of them it is written with an exponent mark. -/
structure DecimalStyle where
  plainFrom : Int
  plainBelow : Int
  deriving DecidableEq, Repr

/-- Insert the point so that `d` reads as its value; whole numbers end in `.0`. -/
def Decimal.plain (d : Decimal) : String :=
  let text := toString d.digits
  let zeros (n : Nat) : String := String.ofList (List.replicate n '0')
  if 0 ≤ d.exponent then text ++ zeros d.exponent.toNat ++ ".0"
  else
    let places := (-d.exponent).toNat
    if places < text.length then
      String.ofList (text.toList.take (text.length - places)) ++ "." ++
        String.ofList (text.toList.drop (text.length - places))
    else "0." ++ zeros (places - text.length) ++ text

/-- One digit, the point and the others if there are others, and the exponent of the first digit. -/
def Decimal.scientific (d : Decimal) : String :=
  let text := toString d.digits
  let exponent := d.exponent + (text.length : Int) - 1
  match text.toList with
  | [] => ""
  | [c] => String.ofList [c] ++ "e" ++ toString exponent
  | c :: rest => String.ofList (c :: '.' :: rest) ++ "e" ++ toString exponent

/-- The text of a decimal in a style. -/
def Decimal.render (style : DecimalStyle) (d : Decimal) : String :=
  let leading := d.exponent + ((toString d.digits).length : Int) - 1
  if style.plainFrom ≤ leading ∧ leading < style.plainBelow then d.plain else d.scientific

/-- Text of a double: the shortest decimal with its sign, `NaN` without one. -/
def renderDouble (style : DecimalStyle) (word : UInt64) : String :=
  let sign (negative : Bool) : String := if negative then "-" else ""
  match binary64.decode word.toNat with
  | .nan _ _ => "NaN"
  | .infinity negative => sign negative ++ "inf"
  | .finite negative 0 _ => sign negative ++ "0.0"
  | .finite negative m q => sign negative ++ (shortestDecimal m q).render style

end ObjectBridge.Number
