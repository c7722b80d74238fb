import Mathlib.Data.Int.Notation
import SpiceDB.Lib.BinarySearch
import SpiceDB.Lib.Except

namespace SpiceDB.Datastore.Memdb

/-- A `ReadWriteTx` call, numbered by the caller. -/
abbrev TxId := ℕ

/-- The calls the datastore makes on go-memdb, over its database type `DB`: `NewMemDB`, a write
transaction that takes call `id`'s writes and commits (`Txn(true)`, the user function,
`Commit()`), `Snapshot()`, and what a read transaction (`Txn(false)`) of a database sees. -/
structure MemDB (DB : Type) where
  newMemDB : DB
  commitWrites : DB → TxId → DB
  snapshot : DB → DB
  sees : DB → TxId → Bool

/-- The isolation the datastore relies on: a new database holds nothing, a commit adds what the
call wrote, and a snapshot holds what its database held. A later commit to the live database does
not change a snapshot taken before it: both are values here. -/
structure MemDB.Isolation {DB : Type} (memdb : MemDB DB) : Prop where
  sees_newMemDB : ∀ id, memdb.sees memdb.newMemDB id = false
  sees_commitWrites : ∀ db id id', memdb.sees (memdb.commitWrites db id) id' = (id' == id || memdb.sees db id')
  sees_snapshot : ∀ db id, memdb.sees (memdb.snapshot db) id = memdb.sees db id

variable {DB : Type}

/-- What a snapshot reads: the live `*memdb.MemDB`, whose contents later commits change, or a
`Snapshot()` of it. -/
inductive SnapshotDb (DB : Type) where
  | live
  | frozen (db : DB)

/-- `snapshot`: a revision and the database read at it. -/
structure Snapshot (DB : Type) where
  revision : ℕ
  db : SnapshotDb DB

/-- `memdbDatastore`: the live database, the snapshots, the write transaction in progress, and
the GC window. -/
structure MemdbDatastore (DB : Type) where
  db : DB
  revisions : List (Snapshot DB)
  activeWriteTxn : Option TxId
  negativeGCWindow : ℤ

/-- `NewMemdbDatastore` at clock reading `now`: its one revision reads the live database. -/
def newMemdbDatastore (memdb : MemDB DB) (now gcWindow : ℕ) : MemdbDatastore DB :=
  ⟨memdb.newMemDB, [⟨now, .live⟩], none, -gcWindow⟩

namespace MemdbDatastore

def headRevisionNoLock (mdb : MemdbDatastore DB) : ℕ :=
  (mdb.revisions.getLast?.map Snapshot.revision).getD 0

/-- `newRevisionID`: the clock, moved one nanosecond on if it equals the last revision. -/
def newRevisionID (mdb : MemdbDatastore DB) (now : ℕ) : ℕ :=
  let existing := mdb.headRevisionNoLock
  let created := now
  if created = existing then created + 1 else created

def revisionOutsideGCWindow (mdb : MemdbDatastore DB) (now : ℕ) (revision : ℕ) : Bool :=
  if revision = mdb.headRevisionNoLock then false
  else decide ((revision : ℤ) < now + mdb.negativeGCWindow)

def checkRevisionLocalCallerMustLock (mdb : MemdbDatastore DB) (now : ℕ) (dr : ℕ) :
    Except String Unit :=
  if mdb.revisionOutsideGCWindow now dr then throw "revision stale"
  else if dr > now then
    if dr ≤ mdb.headRevisionNoLock then pure () else throw "could not determine revision"
  else pure ()

/-- The predicate `SnapshotReader` searches with: the snapshot's revision is at least `dr`. -/
def atOrAfter (revisions : List (Snapshot DB)) (dr : ℕ) (i : ℕ) : Bool :=
  match revisions[i]? with
  | some snap => decide (snap.revision > dr) || decide (snap.revision = dr)
  | none => false

/-- `SnapshotReader` at clock reading `now`: the database its read transaction reads. -/
def snapshotReader (mdb : MemdbDatastore DB) (now : ℕ) (dr : ℕ) : Except String DB := do
  if mdb.revisions.isEmpty then throw "memdb datastore is not ready"
  mdb.checkRevisionLocalCallerMustLock now dr
  let revIndex := Slices.search mdb.revisions.length (atOrAfter mdb.revisions dr)
  let revIndex := if revIndex = mdb.revisions.length then mdb.revisions.length - 1 else revIndex
  match mdb.revisions[revIndex]? with
  | some ⟨_, .live⟩ => pure mdb.db
  | some ⟨_, .frozen db⟩ => pure db
  | none => throw "memdb datastore is not ready"

end MemdbDatastore

/-- A `ReadWriteTx` attempt in flight: its revision, and whether its user function has taken
the write transaction (`txSrc`). -/
structure PendingTx where
  id : TxId
  revision : ℕ
  acquired : Bool
  deriving DecidableEq, Repr

/-- The datastore with the calls in flight and the revisions calls have returned. -/
structure Execution (DB : Type) where
  mdb : MemdbDatastore DB
  pending : List PendingTx
  returned : List (TxId × ℕ)

/-- What a `ReadWriteTx` call does next: start (`newRevisionID` under the lock), take the write
transaction or fail with `ErrSerialization`, abort, or commit. -/
inductive Action where
  | begin (id : TxId) (now : ℕ)
  | write (id : TxId)
  | abort (id : TxId)
  | commit (id : TxId)
  deriving DecidableEq, Repr

namespace Execution

variable (memdb : MemDB DB)

def init (now gcWindow : ℕ) : Execution DB := ⟨newMemdbDatastore memdb now gcWindow, [], []⟩

/-- One action; `none` when the call is not in flight. -/
def step (sys : Execution DB) : Action → Option (Execution DB)
  | .begin id now =>
    some { sys with pending := sys.pending ++ [⟨id, sys.mdb.newRevisionID now, false⟩] }
  | .write id => do
    let tx ← sys.pending.find? (·.id = id)
    if tx.acquired then pure sys
    else match sys.mdb.activeWriteTxn with
      | some _ => pure { sys with pending := sys.pending.filter (·.id ≠ id) }
      | none => pure { sys with
          mdb := { sys.mdb with activeWriteTxn := some id }
          pending := sys.pending.map fun p => if p.id = id then { p with acquired := true } else p }
  | .abort id => do
    let tx ← sys.pending.find? (·.id = id)
    let mdb := if tx.acquired then { sys.mdb with activeWriteTxn := none } else sys.mdb
    pure { sys with mdb := mdb, pending := sys.pending.filter (·.id ≠ id) }
  | .commit id => do
    let tx ← sys.pending.find? (·.id = id)
    let db := if tx.acquired then memdb.commitWrites sys.mdb.db id else sys.mdb.db
    let snap : Snapshot DB := ⟨tx.revision, .frozen (memdb.snapshot db)⟩
    -- `activeWriteTxn` is reset whether or not this call held it
    let mdb : MemdbDatastore DB := ⟨db, sys.mdb.revisions ++ [snap], none, sys.mdb.negativeGCWindow⟩
    pure ⟨mdb, sys.pending.filter (·.id ≠ id), sys.returned ++ [(id, tx.revision)]⟩

/-- A run of actions, stopping at the first that cannot be taken. -/
def run (sys : Execution DB) : List Action → Option (Execution DB)
  | [] => some sys
  | action :: actions => step memdb sys action >>= fun sys => run sys actions

end Execution

/-- Three `ReadWriteTx` calls one after another while the clock reads 10 nanoseconds, on a
datastore started at 0, over any go-memdb with its isolation. They return 10, 11 (the clock
equals the head) and 10 again (it no longer does), so the snapshot revisions do not increase.
An accepted read at 10 goes to the first snapshot at or after 10, the first call's, and misses
the third call's writes though that call returned 10; a read at 5 sees the first call's writes
though it returned 10. A read at 0 goes to the initial entry, the live database: it saw nothing
before the calls and sees all three after, though none returned a revision at or below 0. -/
theorem snapshotReader_disagrees_with_returned_revisions (memdb : MemDB DB) (hmemdb : memdb.Isolation) :
    let seen := fun read : Except String DB => read.toOption.map fun db => [1, 2, 3].filter (memdb.sees db)
    ∃ sys, (Execution.init memdb 0 100).run memdb [.begin 1 10, .write 1, .commit 1, .begin 2 10, .write 2,
        .commit 2, .begin 3 10, .write 3, .commit 3] = some sys ∧
      sys.returned = [(1, 10), (2, 11), (3, 10)] ∧
      sys.mdb.revisions.map (·.revision) = [0, 10, 11, 10] ∧
      (sys.mdb.checkRevisionLocalCallerMustLock 10 10).toOption = some () ∧
      seen (sys.mdb.snapshotReader 10 10) = some [1] ∧
      (sys.mdb.checkRevisionLocalCallerMustLock 10 5).toOption = some () ∧
      seen (sys.mdb.snapshotReader 10 5) = some [1] ∧
      seen ((Execution.init memdb 0 100).mdb.snapshotReader 0 0) = some [] ∧
      seen (sys.mdb.snapshotReader 10 0) = some [1, 2, 3] := by
  intro seen
  -- each call commits its writes and appends a snapshot of the database after its commit
  let db₁ := memdb.commitWrites memdb.newMemDB 1
  let db₂ := memdb.commitWrites db₁ 2
  let db₃ := memdb.commitWrites db₂ 3
  have hrun : (Execution.init memdb 0 100).run memdb [.begin 1 10, .write 1, .commit 1, .begin 2 10,
      .write 2, .commit 2, .begin 3 10, .write 3, .commit 3] =
      some ⟨⟨db₃, [⟨0, .live⟩, ⟨10, .frozen (memdb.snapshot db₁)⟩, ⟨11, .frozen (memdb.snapshot db₂)⟩,
        ⟨10, .frozen (memdb.snapshot db₃)⟩], none, -100⟩, [], [(1, 10), (2, 11), (3, 10)]⟩ := rfl
  refine ⟨_, hrun, rfl, rfl, ?_, ?_, ?_, ?_, ?_, ?_⟩ <;>
    simp [seen, db₁, db₂, db₃, MemdbDatastore.snapshotReader, MemdbDatastore.checkRevisionLocalCallerMustLock,
      MemdbDatastore.revisionOutsideGCWindow, MemdbDatastore.headRevisionNoLock, MemdbDatastore.atOrAfter,
      Slices.search, Slices.searchLoop, Execution.init, newMemdbDatastore, Except.toOption, hmemdb.sees_newMemDB,
      hmemdb.sees_commitWrites, hmemdb.sees_snapshot]

/-- go-memdb read as the calls whose writes a database holds, in commit order. -/
def committedCalls : MemDB (List TxId) :=
  ⟨[], fun db id => db ++ [id], fun db => db, fun db id => db.contains id⟩

theorem committedCalls_isolation : committedCalls.Isolation where
  sees_newMemDB _ := rfl
  sees_commitWrites db id id' := by
    simp only [committedCalls, List.contains_append, List.contains_cons, List.contains_nil, Bool.or_false]
    exact Bool.or_comm _ _
  sees_snapshot _ _ := rfl

theorem snapshotReader_disagrees_with_returned_revisions_of_committedCalls :
    committedCalls.Isolation ∧
      let seen := fun read : Except String (List TxId) =>
        read.toOption.map fun db => [1, 2, 3].filter (committedCalls.sees db)
      ∃ sys, (Execution.init committedCalls 0 100).run committedCalls [.begin 1 10, .write 1, .commit 1,
          .begin 2 10, .write 2, .commit 2, .begin 3 10, .write 3, .commit 3] = some sys ∧
        sys.returned = [(1, 10), (2, 11), (3, 10)] ∧
        sys.mdb.revisions.map (·.revision) = [0, 10, 11, 10] ∧
        (sys.mdb.checkRevisionLocalCallerMustLock 10 10).toOption = some () ∧
        seen (sys.mdb.snapshotReader 10 10) = some [1] ∧
        (sys.mdb.checkRevisionLocalCallerMustLock 10 5).toOption = some () ∧
        seen (sys.mdb.snapshotReader 10 5) = some [1] ∧
        seen ((Execution.init committedCalls 0 100).mdb.snapshotReader 0 0) = some [] ∧
        seen (sys.mdb.snapshotReader 10 0) = some [1, 2, 3] :=
  ⟨committedCalls_isolation,
    snapshotReader_disagrees_with_returned_revisions committedCalls committedCalls_isolation⟩

end SpiceDB.Datastore.Memdb
