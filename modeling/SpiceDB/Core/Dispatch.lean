import SpiceDB.Core.Caveat

namespace SpiceDB

/-- `dispatch.v1.FoundSubject`: a subject found by LookupSubjects, with the subjects a
wildcard excludes. -/
structure FoundSubject where
  subjectId : String
  caveatExpression : Option CaveatExpression
  excludedSubjects : List FoundSubject

inductive Membership where
  | NOT_MEMBER
  | MEMBER
  | CAVEATED_MEMBER
deriving DecidableEq

structure ResourceCheckResult where
  membership : Membership
  missingExprFields : List String
deriving DecidableEq

/-- The chunks `slicez.ForEachChunk` hands to its handler: a size of zero counts as one. -/
def forEachChunk {α : Type} (chunkSize : ℕ) (data : List α) : List (List α) :=
  let size := max chunkSize 1
  ((List.range (data.length / size + 1)).map fun chunkIndex =>
    (data.drop (chunkIndex * size)).take size).filter fun chunk => !chunk.isEmpty

theorem mem_of_mem_forEachChunk {α : Type} {chunkSize : ℕ} {data chunk : List α} {x : α}
    (hchunk : chunk ∈ forEachChunk chunkSize data) (hx : x ∈ chunk) : x ∈ data := by
  obtain ⟨hchunk, -⟩ := List.mem_filter.1 hchunk
  obtain ⟨chunkIndex, -, rfl⟩ := List.mem_map.1 hchunk
  exact List.mem_of_mem_drop (List.mem_of_mem_take hx)

end SpiceDB
