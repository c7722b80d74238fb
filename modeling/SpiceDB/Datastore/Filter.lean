import SpiceDB.Core.Tuple

namespace SpiceDB.Datastore

/-- `datastore.FilterMaximumIDCount`: the most ids a filter may hold. -/
def filterMaximumIDCount : ℕ := 100

inductive SortOrder where
  | Unsorted
  | ByResource
  | BySubject
deriving DecidableEq

structure SubjectRelationFilter where
  nonEllipsisRelation : String
  includeEllipsisRelation : Bool
  onlyNonEllipsisRelations : Bool
deriving DecidableEq

def SubjectRelationFilter.isEmpty (sf : SubjectRelationFilter) : Bool :=
  !sf.includeEllipsisRelation && sf.nonEllipsisRelation = "" && !sf.onlyNonEllipsisRelations

/-- The filter with no relation set. -/
def SubjectRelationFilter.empty : SubjectRelationFilter := ⟨"", false, false⟩

def SubjectRelationFilter.withOnlyNonEllipsisRelations (sf : SubjectRelationFilter) : SubjectRelationFilter :=
  { sf with onlyNonEllipsisRelations := true, nonEllipsisRelation := "", includeEllipsisRelation := false }

def SubjectRelationFilter.withEllipsisRelation (sf : SubjectRelationFilter) : SubjectRelationFilter :=
  { sf with includeEllipsisRelation := true, onlyNonEllipsisRelations := false }

def SubjectRelationFilter.withNonEllipsisRelation (sf : SubjectRelationFilter) (relation : String) :
    SubjectRelationFilter :=
  { sf with nonEllipsisRelation := relation, onlyNonEllipsisRelations := false }

def SubjectRelationFilter.withRelation (sf : SubjectRelationFilter) (relation : String) :
    SubjectRelationFilter :=
  if relation = ellipsis then sf.withEllipsisRelation else sf.withNonEllipsisRelation relation

/-- `datastore.SubjectsSelector`, and `datastore.SubjectsFilter`, which `AsSelector` copies
field by field. -/
structure SubjectsSelector where
  optionalSubjectType : String
  optionalSubjectIds : List String
  relationFilter : SubjectRelationFilter
deriving DecidableEq

structure RelationshipsFilter where
  optionalResourceType : String
  optionalResourceIds : List String
  optionalResourceIDPrefix : String
  optionalResourceRelation : String
  optionalSubjectsSelectors : List SubjectsSelector
  optionalCaveatName : String
deriving DecidableEq

def SubjectsSelector.test (ss : SubjectsSelector) (subject : ObjectAndRelation) : Bool :=
  if ss.optionalSubjectType ≠ "" ∧ ss.optionalSubjectType ≠ subject.«namespace» then false
  else if ss.optionalSubjectIds ≠ [] ∧ !ss.optionalSubjectIds.contains subject.objectId then false
  else if !ss.relationFilter.isEmpty then
    if ss.relationFilter.includeEllipsisRelation ∧ subject.relation = ellipsis then true
    else if ss.relationFilter.nonEllipsisRelation ≠ "" ∧
        ss.relationFilter.nonEllipsisRelation ≠ subject.relation then false
    else if ss.relationFilter.onlyNonEllipsisRelations ∧ subject.relation = ellipsis then false
    else true
  else true

/-- `RelationshipsFilter.Test`. As in the source, a relationship that some subjects selector
accepts is accepted before the caveat name is looked at. -/
def RelationshipsFilter.test (rf : RelationshipsFilter) (relationship : RelationTuple) : Bool :=
  if rf.optionalResourceType ≠ "" ∧
      rf.optionalResourceType ≠ relationship.resourceAndRelation.«namespace» then false
  else if rf.optionalResourceIds ≠ [] ∧
      !rf.optionalResourceIds.contains relationship.resourceAndRelation.objectId then false
  else if rf.optionalResourceIDPrefix ≠ "" ∧
      !rf.optionalResourceIDPrefix.isPrefixOf relationship.resourceAndRelation.objectId then false
  else if rf.optionalResourceRelation ≠ "" ∧
      rf.optionalResourceRelation ≠ relationship.resourceAndRelation.relation then false
  else if rf.optionalSubjectsSelectors ≠ [] then
    rf.optionalSubjectsSelectors.any fun selector => selector.test relationship.subject
  else if rf.optionalCaveatName ≠ "" then
    match relationship.caveat with
    | some caveat => caveat.caveatName = rf.optionalCaveatName
    | none => false
  else true

theorem RelationshipsFilter.test_resource {rf : RelationshipsFilter} {relationship : RelationTuple}
    (htest : rf.test relationship = true) (htype : rf.optionalResourceType ≠ "")
    (hrelation : rf.optionalResourceRelation ≠ "") :
    relationship.resourceAndRelation.«namespace» = rf.optionalResourceType ∧
      relationship.resourceAndRelation.relation = rf.optionalResourceRelation := by
  by_cases hns : rf.optionalResourceType = relationship.resourceAndRelation.«namespace»
  · by_cases hrel : rf.optionalResourceRelation = relationship.resourceAndRelation.relation
    · exact ⟨hns.symm, hrel.symm⟩
    -- whatever the id and prefix tests decide, the relation test rejects it
    · simp [RelationshipsFilter.test, hns, hrel, hrelation] at htest
  · simp [RelationshipsFilter.test, htype, hns] at htest

/-- The filter memdb's `ReverseQueryRelationships` tests, for a subjects filter and the
resource relation of `WithResRelation`. -/
def reverseQueryFilter (subjectsFilter : SubjectsSelector) (resRelation : RelationReference) :
    RelationshipsFilter :=
  ⟨resRelation.«namespace», [], "", resRelation.relation, [subjectsFilter], ""⟩

end SpiceDB.Datastore
