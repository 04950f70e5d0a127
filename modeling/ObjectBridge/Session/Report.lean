set_option autoImplicit false

/-!
# Reports

What a session answers: trees of counts, texts and named fields, which a front end writes in a
format of its choice.

Sessions are no part of the specification: they put its calls (SPEC §6) in an order and report what
they answer.
-/

namespace ObjectBridge

/-- An answer. -/
inductive Report where
  | null
  | flag (b : Bool)
  | count (n : Nat)
  | text (s : String)
  | list (items : List Report)
  | fields (members : List (String × Report))
  deriving Repr, Inhabited

namespace Report

/-- A list of texts. -/
def texts (items : List String) : Report := .list (items.map .text)

/-- A pair of a key and something. -/
def pair (key : String) (r : Report) : Report := .list [.text key, r]

/-- What `f` reports of a value, or null. -/
def option {α : Type} (f : α → Report) : Option α → Report
  | some a => f a
  | none => .null

/-- The members of a report with named fields. -/
def members : Report → List (String × Report)
  | fields ms => ms
  | _ => []

/-- Add named fields to a report. -/
def extend (r : Report) (more : List (String × Report)) : Report := .fields (r.members ++ more)

/-- The answer of a call that succeeded. -/
def ok (r : Report) : Report := .fields [("ok", r)]

/-- The answer of a call that failed without a message. -/
def error (kind : String) : Report := .fields [("error", .text kind)]

/-- The answer of a call that failed. -/
def errorWith (kind message : String) : Report :=
  .fields [("error", .text kind), ("message", .text message)]

end Report

end ObjectBridge
