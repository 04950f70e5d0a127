set_option autoImplicit false

/-!
# Object layouts (SPEC §11.1, §11.2)

What an object carries after its header.  A class fixes the size of its objects in bytes; two
layouts of one size are told apart by the layout itself.

Left out: where the fields of a payload stand in memory.  Of the layouts that an application can
have, one is here for each size and behaviour that matters to a call.
-/

namespace ObjectBridge

/-- The kinds of payload that an object may carry. -/
inductive Layout where
  /-- nothing -/
  | unit
  /-- one byte, not interpreted -/
  | byte
  /-- eight bytes, not interpreted -/
  | word
  /-- sixty-four bytes, not interpreted -/
  | block
  /-- a label that is noted when the payload is destroyed -/
  | tracked
  /-- a payload that tries to give back a claim on its own object while it is being destroyed -/
  | zombie
  | string
  | blob
  | byteBuf
  | integer
  | float
  | boolean
  | vector
  | hash
  | err
  deriving DecidableEq, Repr, Inhabited

namespace Layout

/-- Bytes that one object of this layout occupies, header included. -/
def size : Layout → Nat
  | unit => 40
  | byte | word | integer | float | boolean => 48
  | zombie | string | blob => 56
  | tracked => 64
  | byteBuf | vector | err => 80
  | hash => 88
  | block => 104

/-- Every layout under the name by which scripts refer to it. -/
def named : List (String × Layout) :=
  [("unit", unit), ("u8", byte), ("u64", word), ("arr64", block), ("tracked", tracked),
    ("zombie", zombie), ("String", string), ("Blob", blob), ("ByteBuf", byteBuf),
    ("Integer", integer), ("Float", float), ("Boolean", boolean), ("Vector", vector),
    ("Hash", hash), ("Err", err)]

end Layout

end ObjectBridge
