import ObjectBridge.Assoc
import ObjectBridge.SnapshotRegistry
import ObjectBridge.Layout
import ObjectBridge.Class.Basic
import ObjectBridge.Class.Table
import ObjectBridge.Number.Binary
import ObjectBridge.Number.Decimal
import ObjectBridge.Text.Hex
import ObjectBridge.Text.XXH64
import ObjectBridge.Text.DebugTree
import ObjectBridge.Text.Unseen
import ObjectBridge.Text.Quoted
import ObjectBridge.Class.Debug
import ObjectBridge.Heap.Buckets
import ObjectBridge.Heap.Basic
import ObjectBridge.Heap.Sweep
import ObjectBridge.Error
import ObjectBridge.Wrapper
import ObjectBridge.Bridge.State
import ObjectBridge.Bridge.Exception
import ObjectBridge.Bridge.Startup
import ObjectBridge.Bridge.Trap
import ObjectBridge.Builtin.Scalar
import ObjectBridge.Builtin.Vector
import ObjectBridge.Builtin.Hash
import ObjectBridge.Dispatch
import ObjectBridge.Value.Basic
import ObjectBridge.Value.Share
import ObjectBridge.Value.Debug
import ObjectBridge.Conversion
import ObjectBridge.Typed.Basic
import ObjectBridge.Typed.Encode
import ObjectBridge.Typed.Decode
import ObjectBridge.Session.Report
import ObjectBridge.Session.State
import ObjectBridge.Session.Expr
import ObjectBridge.Session.Show
import ObjectBridge.Session.Query
import ObjectBridge.Session.Registry
import ObjectBridge.Session.ClassAction
import ObjectBridge.Session.ObjectAction
import ObjectBridge.Session.ConversionAction
import ObjectBridge.Session.WrapperAction
import ObjectBridge.Session.MethodAction
import ObjectBridge.Session.ErrorAction
import ObjectBridge.Session.Script
import ObjectBridge.Session.Startup
import ObjectBridge.Proofs.HeapClaims
import ObjectBridge.Proofs.Counting
import ObjectBridge.Proofs.Ownership
import ObjectBridge.Proofs.Calls
import ObjectBridge.Proofs.Buckets
import ObjectBridge.Proofs.Containers
import ObjectBridge.Proofs.Conversions
import ObjectBridge.Proofs.DataClaims
import ObjectBridge.Proofs.Sessions
import ObjectBridge.Proofs.Expressions
import ObjectBridge.Proofs.Actions
import ObjectBridge.Proofs.Methods
import ObjectBridge.Proofs.Scripts
import ObjectBridge.Proofs.Accounting
import ObjectBridge.Proofs.Reachability
import ObjectBridge.Proofs.Building
import ObjectBridge.Proofs.Reading
import ObjectBridge.Proofs.Copying
import ObjectBridge.Proofs.RoundTrip
import ObjectBridge.Proofs.ConversionEffect
import ObjectBridge.Proofs.HashMaps
import ObjectBridge.Proofs.Snapshots
import ObjectBridge.Proofs.ConsumedClaims
import ObjectBridge.Proofs.ClassNames
import ObjectBridge.Proofs.Registrations
import ObjectBridge.Proofs.ExactDispatch
import ObjectBridge.Proofs.Programs
import ObjectBridge.Proofs.NestedTraps
import ObjectBridge.Proofs.DestroyCascade
import ObjectBridge.Proofs.TypedRoundTrip
import ObjectBridge.Proofs.UnsharedObjects
import ObjectBridge.Proofs.OwnedTrees
import ObjectBridge.Proofs.HostContainers
import ObjectBridge.Proofs.ContainerSimulation
import ObjectBridge.Proofs.ShareBalance
import ObjectBridge.Proofs.Lineage
import ObjectBridge.Proofs.Changes
import ObjectBridge.Proofs.ScriptChanges
import ObjectBridge.Proofs.OrderlyStates
import ObjectBridge.Proofs.ClassHierarchy
import ObjectBridge.Proofs.ConversionOutcome
import ObjectBridge.Proofs.VectorLists
import ObjectBridge.Proofs.Readability
import ObjectBridge.Proofs.Positions
import ObjectBridge.Proofs.Encodings
import ObjectBridge.Proofs.Extraction
import ObjectBridge.Proofs.ValueCopies
import ObjectBridge.Proofs.Batches
