set_option autoImplicit false

/-!
# Diagnostic trees

Diagnostic texts of nested data have two layouts: on one line, and spread over lines with every
member indented by four blanks and followed by a comma.  A tree says what is shown; the two
renderings say how.

The specification does not say how data is shown; this is what diagnostic texts do.
-/

namespace ObjectBridge.Text

/-- What a diagnostic text shows. -/
inductive DebugTree where
  /-- a text that is the same in both layouts -/
  | leaf (text : String)
  /-- `Name(a, b)` -/
  | tuple (name : String) (members : List DebugTree)
  /-- `Name { x: a, y: b }` -/
  | fields (name : String) (members : List (String × DebugTree))
  /-- `[a, b]` -/
  | list (members : List DebugTree)
  /-- a map with rendered keys -/
  | map (members : List (String × DebugTree))
  deriving Repr, Inhabited

namespace DebugTree

mutual

/-- The rendering on one line. -/
def compact : DebugTree → String
  | leaf text => text
  | tuple name [] => name
  | tuple name members => name ++ "(" ++ String.intercalate ", " (compactAll members) ++ ")"
  | fields name [] => name
  | fields name members =>
    name ++ " \x7b " ++ String.intercalate ", " (compactNamed members) ++ " \x7d"
  | list members => "[" ++ String.intercalate ", " (compactAll members) ++ "]"
  | map members => "\x7b" ++ String.intercalate ", " (compactNamed members) ++ "\x7d"

/-- The one-line forms of some trees. -/
def compactAll : List DebugTree → List String
  | [] => []
  | t :: rest => compact t :: compactAll rest

/-- The one-line forms of some named trees. -/
def compactNamed : List (String × DebugTree) → List String
  | [] => []
  | (name, t) :: rest => (name ++ ": " ++ compact t) :: compactNamed rest

end

/-- A line break and `depth` levels of indentation. -/
def newline (depth : Nat) : String := "\n" ++ String.ofList (List.replicate (4 * depth) ' ')

/-- Members on lines of their own, each followed by a comma, between two brackets. -/
def block (depth : Nat) (opening closing : String) (members : List String) : String :=
  if members.isEmpty then opening ++ closing
  else opening ++ String.join (members.map fun m => newline (depth + 1) ++ m ++ ",") ++
    newline depth ++ closing

mutual

/-- The rendering over lines, for a tree that starts at indentation level `depth`. -/
def prettyAt (depth : Nat) : DebugTree → String
  | leaf text => text
  | tuple name [] => name
  | tuple name members => name ++ block depth "(" ")" (prettyAll (depth + 1) members)
  | fields name [] => name
  | fields name members => name ++ block depth " \x7b" "\x7d" (prettyNamed (depth + 1) members)
  | list members => block depth "[" "]" (prettyAll (depth + 1) members)
  | map members => block depth "\x7b" "\x7d" (prettyNamed (depth + 1) members)

/-- The indented forms of some trees. -/
def prettyAll (depth : Nat) : List DebugTree → List String
  | [] => []
  | t :: rest => prettyAt depth t :: prettyAll depth rest

/-- The indented forms of some named trees. -/
def prettyNamed (depth : Nat) : List (String × DebugTree) → List String
  | [] => []
  | (name, t) :: rest => (name ++ ": " ++ prettyAt depth t) :: prettyNamed depth rest

end

/-- The rendering over lines. -/
def pretty (t : DebugTree) : String := prettyAt 0 t

end DebugTree

end ObjectBridge.Text
