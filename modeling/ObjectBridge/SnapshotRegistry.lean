import ObjectBridge.Assoc

set_option autoImplicit false

/-!
# Maps published as immutable snapshots (SPEC §5, §10)

A registry holds the most recently published map.  A write builds the next map from the current one
and publishes it whole; a snapshot that a reader took earlier never changes.  Each publication
carries a stamp of its own, so "this snapshot is the very map now published" is equality of stamps.

A batch whose source fails part way and a `make` that fails publish nothing: the registry they
return is the one they were given.

Left out: the lock that keeps writers apart, and the threads that need it.  Calls come one after the
other.
-/

namespace ObjectBridge

/-- One published map.  The stamp tells publications of one registry apart. -/
structure Snapshot (K V : Type) where
  stamp : Nat
  entries : List (K × V)
  deriving DecidableEq, Repr, Inhabited

/-- A map that is replaced as a whole by every write. -/
structure SnapshotRegistry (K V : Type) where
  current : Snapshot K V
  deriving DecidableEq, Repr, Inhabited

namespace SnapshotRegistry

variable {K V ε : Type} [DecidableEq K]

/-- The registry that has published the empty map. -/
def empty : SnapshotRegistry K V := ⟨⟨0, []⟩⟩

/-- The current complete map. -/
def snapshot (r : SnapshotRegistry K V) : Snapshot K V := r.current

/-- Make `entries` the current map. -/
def publish (r : SnapshotRegistry K V) (entries : List (K × V)) : SnapshotRegistry K V :=
  ⟨⟨r.current.stamp + 1, entries⟩⟩

/-- Whether `s`, a snapshot of this registry, is the map that is published now. -/
def isCurrent (r : SnapshotRegistry K V) (s : Snapshot K V) : Bool := r.current.stamp == s.stamp

/-- The value bound to `k` in the current map. -/
def get? (r : SnapshotRegistry K V) (k : K) : Option V := Assoc.find? k r.current.entries

/-- Whether `k` is bound in the current map. -/
def contains (r : SnapshotRegistry K V) (k : K) : Bool := (r.get? k).isSome

/-- Number of entries of the current map. -/
def size (r : SnapshotRegistry K V) : Nat := r.current.entries.length

/-- Whether the current map has no entries. -/
def isEmpty (r : SnapshotRegistry K V) : Bool := r.current.entries.isEmpty

/-- Bind `k` only if it is unbound, and say whether it was.  A map is published in either case. -/
def register (r : SnapshotRegistry K V) (k : K) (v : V) : Bool × SnapshotRegistry K V :=
  if r.contains k then (false, r.publish r.current.entries)
  else (true, r.publish (Assoc.insert k v r.current.entries))

/-- Bind `k` to `v` and hand back the value it was bound to before. -/
def insert (r : SnapshotRegistry K V) (k : K) (v : V) : Option V × SnapshotRegistry K V :=
  (r.get? k, r.publish (Assoc.insert k v r.current.entries))

/-- Number of pairs whose key was unbound at the time they were bound, the pairs being bound in
turn. -/
def countNew : List (K × V) → List (K × V) → Nat
  | [], _ => 0
  | (k, v) :: rest, m =>
    (if (Assoc.find? k m).isNone then 1 else 0) + countNew rest (Assoc.insert k v m)

/-- Bind every pair under one publication, later pairs replacing earlier ones.  The answer is the
number of keys that were unbound before. -/
def insertAll (r : SnapshotRegistry K V) (pairs : List (K × V)) : Nat × SnapshotRegistry K V :=
  (countNew pairs r.current.entries, r.publish (Assoc.insertAll pairs r.current.entries))

/-- Bind the pairs of a source that may fail in turn to a map of the writer's own, and count those
whose key was unbound.  A failure ends it. -/
def fillFrom : List (Except ε (K × V)) → List (K × V) → Nat → Except ε (Nat × List (K × V))
  | [], m, added => .ok (added, m)
  | .error e :: _, _, _ => .error e
  | .ok (k, v) :: rest, m, added =>
    fillFrom rest (Assoc.insert k v m) (if (Assoc.find? k m).isNone then added + 1 else added)

/-- `insertAll` from a source that may fail while it is read.  Then nothing is published. -/
def insertAllFrom (r : SnapshotRegistry K V) (source : List (Except ε (K × V))) :
    Except ε Nat × SnapshotRegistry K V :=
  match fillFrom source r.current.entries 0 with
  | .error e => (.error e, r)
  | .ok (added, m) => (.ok added, r.publish m)

/-- The value bound to `k`, made and bound if there is none.  `make` sees the registry before the
insertion and may change a state of the caller's; nothing is published if `k` is bound or `make`
fails. -/
def getOrInsertWith {σ : Type} (r : SnapshotRegistry K V) (k : K)
    (make : SnapshotRegistry K V → StateM σ (Except ε V)) :
    StateM σ (Except ε V × SnapshotRegistry K V) :=
  match r.get? k with
  | some v => return (.ok v, r)
  | none => do
    match ← make r with
    | .error e => return (.error e, r)
    | .ok v => return (.ok v, r.publish (Assoc.insert k v r.current.entries))

/-- After a publication the published entries are found. -/
@[simp]
theorem get?_publish (r : SnapshotRegistry K V) (m : List (K × V)) (k : K) :
    (r.publish m).get? k = Assoc.find? k m := rfl

/-- Inserting a key changes what is found at that key only. -/
theorem get?_insert (r : SnapshotRegistry K V) (k k' : K) (v : V) :
    (r.insert k v).2.get? k' = if k = k' then some v else r.get? k' :=
  Assoc.find?_insert r.current.entries k k' v

end SnapshotRegistry

end ObjectBridge
