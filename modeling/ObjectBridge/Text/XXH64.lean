set_option autoImplicit false

/-!
# The XXH64 checksum (SPEC §11.3)

The 64-bit member of the xxHash family: four lanes over stripes of 32 bytes, then the rest in words
of eight and four bytes and single bytes, then a final mix.  All arithmetic is modulo 2 ^ 64, words
are read with the low byte first.
-/

namespace ObjectBridge.Text.XXH64

/-- The first of the five primes. -/
def prime1 : UInt64 := 0x9E3779B185EBCA87

/-- The second of the five primes. -/
def prime2 : UInt64 := 0xC2B2AE3D27D4EB4F

/-- The third of the five primes. -/
def prime3 : UInt64 := 0x165667B19E3779F9

/-- The fourth of the five primes. -/
def prime4 : UInt64 := 0x85EBCA77C2B2AE63

/-- The fifth of the five primes. -/
def prime5 : UInt64 := 0x27D4EB2F165667C5

/-- Rotate to the left by `n` bits, for `0 < n < 64`. -/
def rotateLeft (x : UInt64) (n : UInt64) : UInt64 := (x <<< n) ||| (x >>> (64 - n))

/-- The number whose bytes, low byte first, are `bytes`. -/
def word : List UInt8 → UInt64
  | [] => 0
  | b :: rest => b.toUInt64 ||| (word rest <<< 8)

/-- Mix one word of input into a lane. -/
def round (lane input : UInt64) : UInt64 := rotateLeft (lane + input * prime2) 31 * prime1

/-- Fold a finished lane into the checksum. -/
def mergeLane (acc lane : UInt64) : UInt64 := (acc ^^^ round 0 lane) * prime1 + prime4

/-- The four lanes. -/
structure Lanes where
  a : UInt64
  b : UInt64
  c : UInt64
  d : UInt64

/-- The four lanes before the first stripe. -/
def Lanes.start (seed : UInt64) : Lanes :=
  ⟨seed + prime1 + prime2, seed + prime2, seed, seed - prime1⟩

/-- Mix one stripe of 32 bytes into the lanes. -/
def Lanes.stripe (l : Lanes) (bytes : List UInt8) : Lanes :=
  ⟨round l.a (word (bytes.take 8)), round l.b (word ((bytes.drop 8).take 8)),
    round l.c (word ((bytes.drop 16).take 8)), round l.d (word ((bytes.drop 24).take 8))⟩

/-- Mix `n` stripes into the lanes; gives the bytes after them too. -/
def Lanes.stripes : Nat → Lanes → List UInt8 → Lanes × List UInt8
  | 0, l, bytes => (l, bytes)
  | n + 1, l, bytes => (l.stripe bytes).stripes n (bytes.drop 32)

/-- The four lanes as one number. -/
def Lanes.merge (l : Lanes) : UInt64 :=
  let acc := rotateLeft l.a 1 + rotateLeft l.b 7 + rotateLeft l.c 12 + rotateLeft l.d 18
  mergeLane (mergeLane (mergeLane (mergeLane acc l.a) l.b) l.c) l.d

/-- Mix in the bytes after the last stripe: words of eight bytes, then one of four, then single
bytes. -/
def tail (acc : UInt64) (bytes : List UInt8) : UInt64 :=
  match bytes with
  | b0 :: b1 :: b2 :: b3 :: b4 :: b5 :: b6 :: b7 :: rest =>
    tail (rotateLeft (acc ^^^ round 0 (word [b0, b1, b2, b3, b4, b5, b6, b7])) 27 * prime1 +
      prime4) rest
  | b0 :: b1 :: b2 :: b3 :: rest =>
    tail (rotateLeft (acc ^^^ (word [b0, b1, b2, b3] * prime1)) 23 * prime2 + prime3) rest
  | b :: rest => tail (rotateLeft (acc ^^^ (b.toUInt64 * prime5)) 11 * prime1) rest
  | [] => acc

/-- Spread every input bit over the whole checksum. -/
def avalanche (acc : UInt64) : UInt64 :=
  let acc := (acc ^^^ (acc >>> 33)) * prime2
  let acc := (acc ^^^ (acc >>> 29)) * prime3
  acc ^^^ (acc >>> 32)

/-- The checksum of a byte string. -/
def digest (seed : UInt64) (bytes : List UInt8) : UInt64 :=
  let length := bytes.length.toUInt64
  if bytes.length < 32 then avalanche (tail (seed + prime5 + length) bytes)
  else
    let (lanes, rest) := (Lanes.start seed).stripes (bytes.length / 32) bytes
    avalanche (tail (lanes.merge + length) rest)

/-- The checksum, with seed 0, of the UTF-8 bytes of a text. -/
def ofText (text : String) : UInt64 := digest 0 text.toUTF8.toList

end ObjectBridge.Text.XXH64
