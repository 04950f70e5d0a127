import ObjectBridge.Class.Table
import ObjectBridge.Text.DebugTree
import ObjectBridge.Text.Hex
import ObjectBridge.Text.Quoted

set_option autoImplicit false

/-!
# Diagnostic texts of classes (SPEC §11.2)

A class shows its name, the name of its parent and its flags, and a class error shows the names that
it is about.
-/

namespace ObjectBridge

open Text (DebugTree quote hexNumber)

/-- The set flags by name, other bits as one number; no flags as zero. -/
def ClassFlags.render (f : ClassFlags) : String :=
  let rest := f.bits &&& 0xFC
  let parts :=
    (if f.isImmortal then ["IMMORTAL"] else []) ++ (if f.isFinal then ["FINAL"] else []) ++
    (if rest != 0 then ["0x" ++ hexNumber rest.toNat] else [])
  if parts.isEmpty then "0x0" else String.intercalate " | " parts

/-- The debug form of a class. -/
def Class.debugTree (c : Class) : DebugTree :=
  .fields "Class"
    [("name", .leaf (quote c.name)),
      ("parent",
        match c.parent? with
        | some p => .tuple "Some" [.leaf (quote p.name)]
        | none => .leaf "None"),
      ("flags", .leaf ("ClassFlags(" ++ c.flags.render ++ ")"))]

/-- The debug form of a class error. -/
def ClassError.debugTree : ClassError → DebugTree
  | finalParent cls parent =>
    .fields "FinalParent" [("class", .leaf (quote cls)), ("parent", .leaf (quote parent))]
  | conflict name => .fields "Conflict" [("name", .leaf (quote name))]
  | aliasTaken name existing =>
    .fields "AliasTaken" [("alias", .leaf (quote name)), ("existing", .leaf (quote existing))]

end ObjectBridge
