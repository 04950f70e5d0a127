import ObjectBridge.Text.Hex
import ObjectBridge.Text.Unseen

set_option autoImplicit false

/-!
# Quoted text

A text between double quotes in which the quote, the backslash and characters that have no glyph of
their own are written as escapes.
-/

namespace ObjectBridge.Text

/-- How one character is written between the quotes. -/
def escape (c : Char) : String :=
  if c = '"' then "\\\""
  else if c = '\\' then "\\\\"
  else if c = '\n' then "\\n"
  else if c = '\r' then "\\r"
  else if c = '\t' then "\\t"
  else if c.toNat = 0 then "\\0"
  else if isUnseen c then "\\u\x7b" ++ hexNumber c.toNat ++ "\x7d"
  else String.ofList [c]

/-- The text between double quotes. -/
def quote (text : String) : String :=
  "\"" ++ String.join (text.toList.map escape) ++ "\""

end ObjectBridge.Text
