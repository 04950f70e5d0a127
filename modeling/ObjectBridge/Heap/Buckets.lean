set_option autoImplicit false

/-!
# Hash buckets (SPEC §3, §11.3)

The inside of a hash object: entries grouped by the checksum of their key text.  An entry names its
key object and its value object; whether a key object has a given text is answered by a test that
the caller passes in.  Operations take the checksum of the key they look for, so nothing here
depends on which checksum it is.

Left out: how many groups a table has room for, which shows in no answer.  In which order groups are
listed is left open by the specification and is a matter of the machine here.
-/

namespace ObjectBridge

/-- Identity of a foreign object.  Identities are handed out in order and never again. -/
structure ObjId where
  index : Nat
  deriving DecidableEq, Repr, Inhabited

/-- A key and its value, both held by a claim. -/
structure HashEntry where
  key : ObjId
  value : Option ObjId
  deriving DecidableEq, Repr, Inhabited

/-- The claims that an entry holds, the key's first. -/
def HashEntry.claims (e : HashEntry) : List ObjId := e.key :: e.value.toList

/-- An order in which the entries of a hash are met.  Each of them is met once; beyond that any
order will do. -/
structure EntryOrder where
  arrange : List HashEntry → List HashEntry
  perm : ∀ es, (arrange es).Perm es

/-- The order in which the entries are stored. -/
def EntryOrder.stored : EntryOrder := ⟨id, fun _ => .refl _⟩

/-- Entries grouped by checksum. -/
structure Buckets where
  groups : List (UInt64 × List HashEntry)
  deriving DecidableEq, Repr, Inhabited

namespace Buckets

/-- The buckets without entries. -/
def empty : Buckets := ⟨[]⟩

/-- Every entry, group by group. -/
def entries (b : Buckets) : List HashEntry := b.groups.flatMap Prod.snd

/-- Number of entries. -/
def size (b : Buckets) : Nat := b.entries.length

/-- The group of a checksum, empty if there is none. -/
def group (b : Buckets) (sum : UInt64) : List HashEntry :=
  match b.groups.find? (fun g => g.1 == sum) with
  | some g => g.2
  | none => []

/-- The entry, in the group of `sum`, whose key passes the test. -/
def find? (b : Buckets) (sum : UInt64) (isKey : ObjId → Bool) : Option HashEntry :=
  (b.group sum).find? fun e => isKey e.key

/-- Give the group of `sum` a new list of entries; an empty one takes the group away. -/
def setGroup (sum : UInt64) (new : List HashEntry) :
    List (UInt64 × List HashEntry) → List (UInt64 × List HashEntry)
  | [] => if new.isEmpty then [] else [(sum, new)]
  | g :: rest =>
    if g.1 = sum then (if new.isEmpty then rest else (sum, new) :: rest)
    else g :: setGroup sum new rest

/-- Put `value` into the first entry whose key passes the test. -/
def replaceIn (isKey : ObjId → Bool) (value : Option ObjId) : List HashEntry → List HashEntry
  | [] => []
  | e :: rest =>
    if isKey e.key then { e with value := value } :: rest else e :: replaceIn isKey value rest

/-- Replace the value of the entry whose key passes the test. -/
def replace (b : Buckets) (sum : UInt64) (isKey : ObjId → Bool) (value : Option ObjId) : Buckets :=
  ⟨setGroup sum (replaceIn isKey value (b.group sum)) b.groups⟩

/-- Add an entry at the end of its group. -/
def add (b : Buckets) (sum : UInt64) (e : HashEntry) : Buckets :=
  ⟨setGroup sum (b.group sum ++ [e]) b.groups⟩

/-- Take away the element at `i`; the last one moves into its place. -/
def swapRemove (i : Nat) (entries : List HashEntry) : List HashEntry :=
  match entries.getLast? with
  | none => []
  | some last => (entries.set i last).dropLast

/-- Take away the entry whose key passes the test. -/
def erase (b : Buckets) (sum : UInt64) (isKey : ObjId → Bool) : Buckets :=
  match (b.group sum).findIdx? (fun e => isKey e.key) with
  | none => b
  | some i => ⟨setGroup sum (swapRemove i (b.group sum)) b.groups⟩

/-- The claims of every entry. -/
def claims (b : Buckets) : List ObjId := b.entries.flatMap HashEntry.claims

end Buckets

end ObjectBridge
