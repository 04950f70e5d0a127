import ObjectBridge.Class.Basic
import ObjectBridge.SnapshotRegistry

set_option autoImplicit false

/-!
# The table of class names (SPEC §11.2)

Binds names and aliases to classes.  A bound name is never bound anew: defining a name that is taken
either finds the class it asks for or fails, and so does aliasing.  A class that was made stays for
ever, whatever becomes of the call that made it.

Left out: the lock around the table.
-/

namespace ObjectBridge

/-- Why a class or an alias could not be defined. -/
inductive ClassError where
  /-- the parent does not allow subclasses -/
  | finalParent (cls parent : String)
  /-- the name is bound to a class with another parent, other flags or another size -/
  | conflict (name : String)
  /-- the alias is bound to another class -/
  | aliasTaken (name existing : String)
  deriving DecidableEq, Repr

/-- The text of a class error. -/
def ClassError.message : ClassError → String
  | finalParent cls parent => s!"class {cls} cannot inherit from final class {parent}"
  | conflict name => s!"class name {name} is already taken by an incompatible class"
  | aliasTaken name existing => s!"alias {name} is already bound to class {existing}"

/-- The bound names, and the classes that exist. -/
structure ClassTable where
  names : SnapshotRegistry String Class
  /-- every class in the order in which they were made; the place of a class is its identity -/
  made : List Class
  deriving Repr

namespace ClassTable

/-- The table that binds the built-in classes to their names. -/
def initial : ClassTable where
  names := (SnapshotRegistry.empty.insertAll (Class.builtins.map fun c => (c.name, c))).2
  made := Class.builtins

/-- The class bound to a name or alias. -/
def fetch (t : ClassTable) (name : String) : Option Class := t.names.get? name

/-- Number of bound names, aliases included. -/
def size (t : ClassTable) : Nat := t.names.size

/-- The class that a definition asks for, with the next identity. -/
def fresh (t : ClassTable) (name : String) (parent : Class) (flags : ClassFlags)
    (size : Nat) : Class :=
  .child ⟨⟨t.made.length⟩, name, flags, size⟩ parent

/-- Whether `c` has the parent, flags and size of a definition. -/
def compatible (c parent : Class) (flags : ClassFlags) (size : Nat) : Bool :=
  (match c.parent? with
    | some p => p.id == parent.id
    | none => false) && c.flags == flags && c.size == size

/-- What `define` did: the class found or made, and whether it was made. -/
structure Defined where
  cls : Class
  isNew : Bool
  deriving Repr

/-- The class bound to `name`.  If there is none, the class that a definition asks for is made and
bound. -/
def findOrMake (t : ClassTable) (name : String) (parent : Class) (flags : ClassFlags) (size : Nat) :
    Defined × ClassTable :=
  match t.fetch name with
  | some c => (⟨c, false⟩, t)
  | none =>
    let c := t.fresh name parent flags size
    (⟨c, true⟩, ⟨(t.names.insert name c).2, t.made ++ [c]⟩)

/-- Define a class below `parent`, whose objects have the given size.  A name that is bound to a
class with the same parent, flags and size gives that class. -/
def define (t : ClassTable) (name : String) (parent : Class) (flags : ClassFlags) (size : Nat) :
    Except ClassError Defined × ClassTable :=
  if parent.isFinal then (.error (.finalParent name parent.name), t)
  else
    let (found, t') := t.findOrMake name parent flags size
    if compatible found.cls parent flags size then (.ok found, t')
    else (.error (.conflict name), t')

/-- Bind one more name to `c`. -/
def addAlias (t : ClassTable) (c : Class) (name : String) : Except ClassError Unit × ClassTable :=
  let (added, names) := t.names.register name c
  let t' := { t with names := names }
  if added then (.ok (), t')
  else
    match t'.fetch name with
    | some existing =>
      if existing.id = c.id then (.ok (), t') else (.error (.aliasTaken name existing.name), t')
    | none => (.error (.aliasTaken name ""), t')

end ClassTable

end ObjectBridge
