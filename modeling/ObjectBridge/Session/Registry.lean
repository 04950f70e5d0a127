import ObjectBridge.Session.Show

set_option autoImplicit false

/-!
# Registry scripts (SPEC §10)

Scripts that drive one snapshot registry from texts to 64-bit integers and keep snapshots of it
under names.
-/

namespace ObjectBridge.RegistryScript

/-- The registry that a script works on. -/
abbrev Table := SnapshotRegistry String Int64

/-- One step of a registry script. -/
inductive Command where
  | register (key : String) (value : Int64)
  | insert (key : String) (value : Int64)
  /-- insert a batch whose source fails at an index, if that index exists -/
  | insertAll (pairs : List (String × Int64)) (failAt : Option Nat)
  /-- find or make a value; making may fail, and may add the size it sees -/
  | getOrInsert (key : String) (value : Int64) (fails addSize : Bool)
  | get (key : String)
  | contains (key : String)
  | size
  | isEmpty
  | debug
  | entries
  | snapshot (name : String)
  | snapshotEntries (name : String)
  | snapshotGet (name key : String)
  | snapshotIsCurrent (name : String)

/-- The registry and the kept snapshots. -/
structure State where
  table : Table
  kept : List (String × Snapshot String Int64)

/-- Numbers are reported in decimal. -/
def number (n : Int64) : Report := .text (toString n.toInt)

/-- Entries in the order of their keys. -/
def sorted (entries : List (String × Int64)) : Report :=
  .list ((sortByKey entries).map fun e => .pair e.1 (number e.2))

/-- The debug form of a registry, which shows its size only. -/
def debugTree (t : Table) : Text.DebugTree :=
  .fields "SnapshotRegistry" [("len", .leaf (toString t.size))]

/-- The pairs of a batch, with a failure in place of the one at `failAt`. -/
def source (pairs : List (String × Int64)) (failAt : Option Nat) :
    List (Except String (String × Int64)) :=
  pairs.zipIdx.map fun (p, i) => if failAt = some i then .error s!"entry {i}" else .ok p

/-- The answer about a kept snapshot. -/
def withKept (s : State) (name : String) (f : Snapshot String Int64 → Report) : Report :=
  match Assoc.find? name s.kept with
  | some kept => .ok (f kept)
  | none => .error "NoVar"

/-- Run one step. -/
def step (s : State) : Command → Report × State
  | .register key value =>
    let (added, table) := s.table.register key value
    (.ok (.flag added), { s with table := table })
  | .insert key value =>
    let (old, table) := s.table.insert key value
    (.ok (.option number old), { s with table := table })
  | .insertAll pairs failAt =>
    match s.table.insertAllFrom (source pairs failAt) with
    | (.ok added, table) => (.ok (.count added), { s with table := table })
    | (.error e, table) => (.errorWith "Panic" e, { s with table := table })
  | .getOrInsert key value fails addSize =>
    -- the state says whether `make` has run
    let make (t : Table) : StateM Bool (Except String Int64) := do
      set true
      if fails then return .error "make failed"
      return .ok (if addSize then value + Int64.ofInt t.size else value)
    match (s.table.getOrInsertWith key make).run false with
    | ((.ok v, table), ran) =>
      ((Report.ok (number v)).extend [("ran", .flag ran)], { s with table := table })
    | ((.error e, table), _) => (.errorWith "Panic" e, { s with table := table })
  | .get key => (.ok (.option number (s.table.get? key)), s)
  | .contains key => (.ok (.flag (s.table.contains key)), s)
  | .size => (.ok (.count s.table.size), s)
  | .isEmpty => (.ok (.flag s.table.isEmpty), s)
  | .debug =>
    let tree := debugTree s.table
    ((Report.ok (.text tree.compact)).extend [("pretty", .text tree.pretty)], s)
  | .entries => (.ok (sorted s.table.snapshot.entries), s)
  | .snapshot name =>
    let taken := s.table.snapshot
    (.ok (.count taken.entries.length), { s with kept := Assoc.insert name taken s.kept })
  | .snapshotEntries name => (withKept s name fun kept => sorted kept.entries, s)
  | .snapshotGet name key =>
    (withKept s name fun kept => .option number (Assoc.find? key kept.entries), s)
  | .snapshotIsCurrent name => (withKept s name fun kept => .flag (s.table.isCurrent kept), s)

/-- Run the steps in turn. -/
def steps : List Command → State → List Report × State
  | [], s => ([], s)
  | c :: rest, s =>
    let (r, s') := step s c
    let (rs, s'') := steps rest s'
    (r :: rs, s'')

/-- The answers of a script that starts with an empty registry, and the entries at its end. -/
def run (script : List Command) : Report :=
  let (answers, s) := steps script ⟨.empty, []⟩
  .fields [("steps", .list answers), ("end", sorted s.table.snapshot.entries)]

end ObjectBridge.RegistryScript
