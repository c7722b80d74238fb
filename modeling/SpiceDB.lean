import SpiceDB.Lib.AList
import SpiceDB.Lib.Except
import SpiceDB.Lib.TruthTable
import SpiceDB.Lib.BinarySearch
import SpiceDB.Lib.Delimited
import SpiceDB.Lib.Utf8
import SpiceDB.Lib.GoStrings
import SpiceDB.Lib.Strconv
import SpiceDB.Lib.Base64
import SpiceDB.Lib.Protowire
import SpiceDB.Lib.Cycle
import SpiceDB.Lib.Heap
import SpiceDB.Lib.Schedule
import SpiceDB.Lib.Condition
import SpiceDB.Lib.WildcardSet
import SpiceDB.Lib.Stream
import SpiceDB.Core.Struct
import SpiceDB.Core.Caveat
import SpiceDB.Core.Tuple
import SpiceDB.Core.Dispatch
import SpiceDB.Core.Schema
import SpiceDB.Caveats.Run
import SpiceDB.Caveats.Builder
import SpiceDB.Caveats.ContextHash
import SpiceDB.Datasets.BaseSubjectSet
import SpiceDB.Datasets.Semantics
import SpiceDB.Datasets.SubjectSet
import SpiceDB.Datasets.Intersection
import SpiceDB.Datasets.Subtract
import SpiceDB.Datasets.Union
import SpiceDB.Datasets.Clone
import SpiceDB.Datasets.Invariant
import SpiceDB.Datasets.View
import SpiceDB.Datasets.Laws
import SpiceDB.Services.BulkCheck
import SpiceDB.Lib.Lex
import SpiceDB.Datastore.Filter
import SpiceDB.Datastore.Sql
import SpiceDB.Datastore.PgSnapshot
import SpiceDB.Datastore.Memdb
import SpiceDB.Datastore.HlcRevision
import SpiceDB.Datastore.PgRevision
import SpiceDB.Datastore.SchemaCaching
import SpiceDB.Datastore.Changes
import SpiceDB.Datastore.ChangesRun
import SpiceDB.Namespace.Aliasing
import SpiceDB.Namespace.Canonicalization
import SpiceDB.Datasets.SubjectByTypeSet
import SpiceDB.Datasets.SubjectSetByResourceId
import SpiceDB.Graph.LookupSubjects
import SpiceDB.Graph.Semantics
import SpiceDB.Typesystem.TypeSystem
import SpiceDB.Typesystem.Reachability
import SpiceDB.Graph.ReachableResources
import SpiceDB.Graph.MembershipSet
import SpiceDB.Graph.Check
import SpiceDB.Graph.CheckSound
import SpiceDB.Graph.LookupSubjectsSound
import SpiceDB.Graph.CheckMetadata
import SpiceDB.Graph.Limits
import SpiceDB.Graph.Cursors
import SpiceDB.Graph.CursorsRun
import SpiceDB.Dispatch.Keys
import SpiceDB.Schemadsl.Lexer
import SpiceDB.Schemadsl.Generator
import SpiceDB.Graph.Expand
import SpiceDB.DevelopmentMembership.TrackingSubjectSet
import SpiceDB.DevelopmentMembership.Membership
import SpiceDB.Graph.ExpandMembership
import SpiceDB.Graph.EntrypointsSound
import SpiceDB.Graph.ReachableResourcesSound
