import SpiceDB.Datastore.PgSnapshot

namespace SpiceDB.Datastore.SchemaCaching

open Slices

/-- The comparisons of `datastore.Revision`. -/
class RevisionOrder (R : Type) where
  equal : R → R → Bool
  greaterThan : R → R → Bool
  lessThan : R → R → Bool

/-- `intervalTrackerEntry`; `created` is a time. -/
structure IntervalTrackerEntry (R T : Type) where
  created : ℤ
  value : T
  startingRevision : R
  endingRevisionOrNil : Option R

variable {R T : Type} [RevisionOrder R]

open RevisionOrder

/-- The comparator `lookup` gives `BinarySearchFunc`. -/
def lookupCmp (lastCheckpointRevision : Option R) (entry : IntervalTrackerEntry R T) (rev : R) :
    Ordering :=
  if equal entry.startingRevision rev then .eq
  else if greaterThan entry.startingRevision rev then .lt
  else
    match entry.endingRevisionOrNil with
    | some endingRevision => if lessThan rev endingRevision then .eq else .gt
    | none =>
      -- without a checkpoint the open entry ends where it starts
      let endingRevisionInclusive := lastCheckpointRevision.getD entry.startingRevision
      if lessThan rev endingRevisionInclusive || equal rev endingRevisionInclusive then .eq
      else if greaterThan rev endingRevisionInclusive then .lt
      else .gt

def lookup (sortedEntries : List (IntervalTrackerEntry R T)) (revision : R)
    (lastCheckpointRevision : Option R) : Option T :=
  let (index, ok) := binarySearchFunc sortedEntries revision (lookupCmp lastCheckpointRevision)
  if ok then sortedEntries[index]?.map (·.value) else none

/-- `intervalTracker.add` at time `now`: whether the entry was taken, and the entries. -/
def add (sortedEntries : List (IntervalTrackerEntry R T)) (entry : T) (revision : R) (now : ℤ) :
    Bool × List (IntervalTrackerEntry R T) :=
  match sortedEntries with
  | [] => (true, [⟨now, entry, revision, none⟩])
  | latest :: earlier =>
    if lessThan revision latest.startingRevision then (false, sortedEntries)
    -- a change at the latest entry's revision is ignored
    else if equal revision latest.startingRevision then (true, sortedEntries)
    else (true, ⟨now, entry, revision, none⟩ ::
      { latest with endingRevisionOrNil := some revision } :: earlier)

/-- `intervalTracker.removeStaleIntervals` at time `now`: the closed entries created before
`now - window` go; whether none is left. -/
def removeStaleIntervals (sortedEntries : List (IntervalTrackerEntry R T)) (window now : ℤ) :
    Bool × List (IntervalTrackerEntry R T) :=
  let remaining := sortedEntries.filter fun entry =>
    entry.endingRevisionOrNil.isNone || !decide (entry.created < now - window)
  (remaining.isEmpty, remaining)

theorem lookup_eq_of_cmp {sortedEntries : List (IntervalTrackerEntry R T)} {revision : R}
    {lastCheckpointRevision : Option R} {p : ℕ} (hp : p < sortedEntries.length)
    (hlow : ∀ k (hk : k < sortedEntries.length), k < p →
      lookupCmp lastCheckpointRevision sortedEntries[k] revision = .lt)
    (hhigh : ∀ k (hk : k < sortedEntries.length), p ≤ k →
      lookupCmp lastCheckpointRevision sortedEntries[k] revision ≠ .lt)
    (hat : lookupCmp lastCheckpointRevision sortedEntries[p] revision = .eq) :
    lookup sortedEntries revision lastCheckpointRevision = some sortedEntries[p].value := by
  simp [lookup, binarySearchFunc_eq hp hlow hhigh, hat, List.getElem?_eq_getElem hp]

section Postgres

open Postgres

instance : RevisionOrder PgSnapshot := ⟨PgSnapshot.equal, PgSnapshot.greaterThan, PgSnapshot.lessThan⟩

/-- Postgres snapshots are ordered only partially, and the comparator takes a closed entry to
hold at every revision before its end that its start is not after. A change at `3:5:3`, which
sees 4 and not 3, followed by a change at `5:5:`, leaves an entry from `3:5:3` to `5:5:`; a
lookup at `4:5:4`, which sees 3 and not 4, returns its value though `3:5:3` is neither equal to
nor before `4:5:4`, whatever the checkpoint. -/
theorem lookup_finds_concurrent_start {T : Type} (v₁ v₂ : T) (t₁ t₂ : ℤ)
    (lastCheckpointRevision : Option PgSnapshot) :
    (PgSnapshot.mk 3 5 [3]).WellFormed ∧ (PgSnapshot.mk 4 5 [4]).WellFormed ∧
      (PgSnapshot.mk 5 5 []).WellFormed ∧ (PgSnapshot.mk 3 5 [3]).lessThan ⟨5, 5, []⟩ = true ∧
      (PgSnapshot.mk 3 5 [3]).compare ⟨4, 5, [4]⟩ = .concurrent ∧
      lookup (add (add [] v₁ ⟨3, 5, [3]⟩ t₁).2 v₂ ⟨5, 5, []⟩ t₂).2 ⟨4, 5, [4]⟩
        lastCheckpointRevision = some v₁ := by
  -- the second change closes the first entry at `5:5:`
  have hentries : (add (add [] v₁ (PgSnapshot.mk 3 5 [3]) t₁).2 v₂ ⟨5, 5, []⟩ t₂).2 =
      [⟨t₂, v₂, ⟨5, 5, []⟩, none⟩, ⟨t₁, v₁, ⟨3, 5, [3]⟩, some ⟨5, 5, []⟩⟩] := by
    have hlt : RevisionOrder.lessThan (PgSnapshot.mk 5 5 []) ⟨3, 5, [3]⟩ = false := by
      decide +kernel
    have heq : RevisionOrder.equal (PgSnapshot.mk 5 5 []) ⟨3, 5, [3]⟩ = false := by decide +kernel
    simp [add, hlt, heq]
  -- the open entry starts after `4:5:4`, and the closed one holds there
  have hopen : ∀ t v, lookupCmp lastCheckpointRevision
      (⟨t, v, ⟨5, 5, []⟩, none⟩ : IntervalTrackerEntry PgSnapshot T) ⟨4, 5, [4]⟩ = .lt := by
    have heq : RevisionOrder.equal (PgSnapshot.mk 5 5 []) ⟨4, 5, [4]⟩ = false := by decide +kernel
    have hgt : RevisionOrder.greaterThan (PgSnapshot.mk 5 5 []) ⟨4, 5, [4]⟩ = true := by
      decide +kernel
    intro t v
    simp [lookupCmp, heq, hgt]
  have hclosed : ∀ t v, lookupCmp lastCheckpointRevision
      (⟨t, v, ⟨3, 5, [3]⟩, some ⟨5, 5, []⟩⟩ : IntervalTrackerEntry PgSnapshot T) ⟨4, 5, [4]⟩ = .eq := by
    have heq : RevisionOrder.equal (PgSnapshot.mk 3 5 [3]) ⟨4, 5, [4]⟩ = false := by decide +kernel
    have hgt : RevisionOrder.greaterThan (PgSnapshot.mk 3 5 [3]) ⟨4, 5, [4]⟩ = false := by
      decide +kernel
    have hlt : RevisionOrder.lessThan (PgSnapshot.mk 4 5 [4]) ⟨5, 5, []⟩ = true := by decide +kernel
    intro t v
    simp [lookupCmp, heq, hgt, hlt]
  refine ⟨PgSnapshot.wellFormed_of_check (by decide) (by decide) (by decide),
    PgSnapshot.wellFormed_of_check (by decide) (by decide) (by decide),
    PgSnapshot.wellFormed_of_check (by decide) (by decide) (by decide), by decide +kernel,
    by decide +kernel, ?_⟩
  rw [hentries]
  refine lookup_eq_of_cmp (p := 1) (by simp) (fun k hk hk1 => ?_) (fun k hk hk1 => ?_) (hclosed t₁ v₁)
  · obtain rfl : k = 0 := by omega
    exact hopen t₂ v₂
  · obtain rfl : k = 1 := by simp at hk; omega
    simp [hclosed t₁ v₁]

end Postgres

end SpiceDB.Datastore.SchemaCaching
