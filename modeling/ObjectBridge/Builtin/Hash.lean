import ObjectBridge.Builtin.Scalar

set_option autoImplicit false

/-!
# Hashes (SPEC §11.3)

A hash maps texts to objects or null.  It copies each key into a string object of its own and holds
one claim on every key and on every value that is not null.  Keys are grouped by the checksum of the
bridge, and keys with equal checksums are told apart by their text.
-/

namespace ObjectBridge.HashObj

/-- The buckets, borrowed. -/
def buckets (hash : ObjId) : Run Buckets := certify hash .hash Payload.hash?

/-- An empty hash. -/
def new : Run ObjId := makeObj .hash (.hash .empty)

/-- Most buckets whose storage, of 32 bytes each, has an address.  Their number is always a power of
two. -/
def maxBuckets : Nat := Nat.pow 2 57

/-- Whether a table for `capacity` entries, which leaves an eighth of its buckets free, has an
address. -/
def hasRoom (capacity : Nat) : Bool := capacity * 8 / 7 ≤ maxBuckets

/-- An empty hash with room for `capacity` entries.  Asking for more room than there can be is a
fault of the host program. -/
def withCapacity (capacity : Nat) : Run ObjId :=
  if hasRoom capacity then new else fault "Hash table capacity overflow"

/-- The entry of a key. -/
def find? (b : Bridge) (buckets : Buckets) (key : String) : Option HashEntry :=
  buckets.find? (b.keySum key) (b.heap.hasText key)

/-- Bind a key to a value and give back the claim on the value it replaces.  Consumes a claim on the
value; on an object that is no hash the claim is lost. -/
def store (hash : ObjId) (key : String) (value : Option ObjId) : Run Unit := do
  let inside ← losing value.toList (buckets hash)
  let b ← get
  match find? b inside key with
  | some e =>
    setPayload hash (.hash (inside.replace (b.keySum key) (b.heap.hasText key) value))
    releaseAll e.value.toList
  | none =>
    let k ← StringObj.new key
    setPayload hash (.hash (inside.add (b.keySum key) ⟨k, value⟩))

/-- A claim on the value of a key; none for null and for a key that is not bound. -/
def fetch (hash : ObjId) (key : String) : Run (Option ObjId) := do
  let inside ← buckets hash
  let value := (find? (← get) inside key).bind HashEntry.value
  value.toList.forM retain
  return value

/-- Whether the key is bound, possibly to null. -/
def contains (hash : ObjId) (key : String) : Run Bool := do
  let inside ← buckets hash
  return (find? (← get) inside key).isSome

/-- Unbind a key; the claim on its value moves to the caller. -/
def delete (hash : ObjId) (key : String) : Run (Option ObjId) := do
  let inside ← buckets hash
  let b ← get
  match find? b inside key with
  | none => return none
  | some e =>
    setPayload hash (.hash (inside.erase (b.keySum key) (b.heap.hasText key)))
    releaseAll [e.key]
    return e.value

/-- Number of bound keys. -/
def size (hash : ObjId) : Run Nat := do return (← buckets hash).size

/-- Every entry, with a new claim on its key and on its value. -/
def entries (hash : ObjId) : Run (List HashEntry) := do
  let inside ← buckets hash
  let b ← get
  let es := b.order.arrange inside.entries
  (es.flatMap HashEntry.claims).forM retain
  return es

end ObjectBridge.HashObj
