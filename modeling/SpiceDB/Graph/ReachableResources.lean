import SpiceDB.Typesystem.Reachability
import SpiceDB.Datastore.Filter
import SpiceDB.Core.Dispatch
import SpiceDB.Graph.Semantics

namespace SpiceDB.Graph

open Typesystem Datastore

inductive ReachableResultStatus where
  | REQUIRES_CHECK
  | HAS_PERMISSION
deriving DecidableEq, Repr

structure ReachableResource where
  resourceId : String
  resultStatus : ReachableResultStatus
  forSubjectIds : List String
deriving DecidableEq, Repr

structure SubjectInfo where
  subjectId : String
  isCaveated : Bool
deriving DecidableEq, Repr

/-- `resourcesSubjectMap`: each resource id found, with the subjects that led to it. -/
structure ResourcesSubjectMap where
  resourceType : RelationReference
  resourcesAndSubjects : AList fun _ : String => List SubjectInfo

def newResourcesSubjectMap (resourceType : RelationReference) : ResourcesSubjectMap := ⟨resourceType, ∅⟩

namespace ResourcesSubjectMap

/-- `MultiMap.Add`: one more subject for a resource. -/
def add (rsm : ResourcesSubjectMap) (resourceId : String) (info : SubjectInfo) : ResourcesSubjectMap :=
  let infos := ((rsm.resourcesAndSubjects.lookup resourceId).getD []) ++ [info]
  { rsm with resourcesAndSubjects := rsm.resourcesAndSubjects.insert resourceId infos }

/-- `addRelationship` (the expected and found protos rendered as `ns#rel` and `ns:id#rel`). -/
def addRelationship (rsm : ResourcesSubjectMap) (rel : RelationTuple) : Except String ResourcesSubjectMap :=
  if rel.resourceAndRelation.«namespace» ≠ rsm.resourceType.«namespace» ∨
      rel.resourceAndRelation.relation ≠ rsm.resourceType.relation then
    throw (mustBugf ("invalid relationship for addRelationship. expected: " ++ joinRelRef rsm.resourceType ++
      ", found: " ++ rel.resourceAndRelation.«namespace» ++ ":" ++ rel.resourceAndRelation.objectId ++ "#" ++
      rel.resourceAndRelation.relation))
  else
    pure (rsm.add rel.resourceAndRelation.objectId
      ⟨rel.subject.objectId, rel.caveat.any fun caveat => caveat.caveatName ≠ ""⟩)

def addSubjectIdAsFoundResourceId (rsm : ResourcesSubjectMap) (subjectId : String) : ResourcesSubjectMap :=
  rsm.add subjectId ⟨subjectId, false⟩

def isEmpty (rsm : ResourcesSubjectMap) : Bool :=
  rsm.resourcesAndSubjects.entries.isEmpty

/-- `filterSubjectIDsToDispatch`: the resource ids not yet dispatched as subjects of the type,
and the dispatched set with them added. -/
def filterSubjectIdsToDispatch (rsm : ResourcesSubjectMap) (dispatched : List ObjectAndRelation)
    (dispatchSubjectType : RelationReference) : List String × List ObjectAndRelation :=
  rsm.resourcesAndSubjects.keys.foldl (fun (filtered, dispatched) resourceId =>
    let onr : ObjectAndRelation := ⟨dispatchSubjectType.«namespace», resourceId, dispatchSubjectType.relation⟩
    if onr ∈ dispatched then (filtered, dispatched) else (filtered ++ [resourceId], dispatched ++ [onr]))
    ([], dispatched)

/-- One resource of `asReachableResources`: when every subject that led to it is caveated it
needs a check, and otherwise it has the entrypoint's status for the uncaveated subjects. -/
def asReachableResource (isDirectEntrypoint : Bool) (resourceId : String) (subjectInfos : List SubjectInfo) :
    ReachableResource :=
  let status : ReachableResultStatus := if isDirectEntrypoint then .HAS_PERMISSION else .REQUIRES_CHECK
  let subjectIds := (subjectInfos.map (·.subjectId)).insertionSort (· ≤ ·)
  let nonCaveatedSubjectIds := (subjectInfos.filter (!·.isCaveated)).map (·.subjectId)
  if subjectInfos.all (·.isCaveated) then ⟨resourceId, .REQUIRES_CHECK, subjectIds⟩
  else ⟨resourceId, status, nonCaveatedSubjectIds⟩

/-- `asReachableResources`, in the order of the sorted resource ids. -/
def asReachableResources (rsm : ResourcesSubjectMap) (isDirectEntrypoint : Bool) : List ReachableResource :=
  (rsm.resourcesAndSubjects.keys.insertionSort (· ≤ ·)).map fun resourceId =>
    asReachableResource isDirectEntrypoint resourceId ((rsm.resourcesAndSubjects.lookup resourceId).getD [])

/-- `mapFoundResource`: a resource found one level deeper, mapped back through the subjects
that led to the resources it was found for. -/
def mapFoundResource (rsm : ResourcesSubjectMap) (foundResource : ReachableResource) (isDirectEntrypoint : Bool) :
    Except String ReachableResource := do
  let status := if isDirectEntrypoint then foundResource.resultStatus else .REQUIRES_CHECK
  let infos ← foundResource.forSubjectIds.mapM fun forSubjectId =>
    match rsm.resourcesAndSubjects.lookup forSubjectId with
    | none => throw (mustBugf "missing for subject ID")
    | some infos => pure infos
  let infos := infos.flatten
  let forSubjectIds := (infos.map (·.subjectId)).eraseDups
  let nonCaveatedSubjectIds := ((infos.filter (!·.isCaveated)).map (·.subjectId)).eraseDups
  if nonCaveatedSubjectIds ≠ [] then pure ⟨foundResource.resourceId, status, nonCaveatedSubjectIds⟩
  else pure ⟨foundResource.resourceId, .REQUIRES_CHECK, forSubjectIds⟩

end ResourcesSubjectMap

/-- `subjectIDsToResourcesMap`: each subject stands for itself as a resource. -/
def subjectIdsToResourcesMap (resourceType : RelationReference) (subjectIds : List String) :
    ResourcesSubjectMap :=
  subjectIds.foldl ResourcesSubjectMap.addSubjectIdAsFoundResourceId (newResourcesSubjectMap resourceType)

/-- `dispatch.DispatchReachableResourcesRequest`, its cursor, limit and metadata left out. -/
structure ReachableResourcesRequest where
  resourceRelation : RelationReference
  subjectRelation : RelationReference
  subjectIds : List String
deriving DecidableEq, Repr

section Cursored

variable (schema : List NamespaceDefinition) (relationships : List RelationTuple)
  (dispatch : ReachableResourcesRequest → Except String (List ReachableResource))

/-- `redispatchOrReport`: the resources found are reported when no entrypoint leads on from
their relation and it is the resource relation, and are otherwise dispatched as subjects (those
not dispatched before) and the results mapped back. -/
def redispatchOrReport (ts : NamespaceDefinition) (req : ReachableResourcesRequest)
    (foundResourceType : RelationReference) (foundResources : ResourcesSubjectMap)
    (entrypoint : ReachabilityEntrypoint) (dispatched : List ObjectAndRelation) :
    Except String (List ReachableResource × List ObjectAndRelation) := do
  if foundResources.isEmpty then return ([], dispatched)
  let hasResourceEntrypoints ←
    hasOptimizedEntrypointsForSubjectToResource schema ts foundResourceType req.resourceRelation
  if !hasResourceEntrypoints then
    if foundResourceType = req.resourceRelation then
      return (foundResources.asReachableResources entrypoint.isDirectResult, dispatched)
    else return ([], dispatched)
  let (filteredSubjectIds, dispatched) :=
    foundResources.filterSubjectIdsToDispatch dispatched foundResourceType
  if filteredSubjectIds = [] then return ([], dispatched)
  let results ← dispatch ⟨req.resourceRelation, foundResourceType, filteredSubjectIds⟩
  let mapped ← results.mapM fun result => foundResources.mapFoundResource result entrypoint.isDirectResult
  pure (mapped, dispatched)

/-- `redispatchOrReportOverDatabaseQuery`: the relationships of the source relation whose
subject the filter selects, as resources found. -/
def redispatchOrReportOverDatabaseQuery (ts : NamespaceDefinition) (req : ReachableResourcesRequest)
    (subjectsFilter : SubjectsSelector) (sourceResourceType foundResourceType : RelationReference)
    (entrypoint : ReachabilityEntrypoint) (dispatched : List ObjectAndRelation) :
    Except String (List ReachableResource × List ObjectAndRelation) := do
  let found := relationships.filter (reverseQueryFilter subjectsFilter sourceResourceType).test
  let rsm ← found.foldlM ResourcesSubjectMap.addRelationship (newResourcesSubjectMap sourceResourceType)
  redispatchOrReport schema dispatch ts req foundResourceType rsm entrypoint dispatched

/-- `lookupRelationEntrypoint`: the subjects, and the wildcard where the relation allows it,
looked up as subjects of the entrypoint's relation. -/
def lookupRelationEntrypoint (ts : NamespaceDefinition) (entrypoint : ReachabilityEntrypoint)
    (req : ReachableResourcesRequest) (dispatched : List ObjectAndRelation) :
    Except String (List ReachableResource × List ObjectAndRelation) := do
  let relationReference ← entrypoint.directRelation
  let relTypeSystem ← readNamespaceAndTypes schema relationReference.«namespace»
  let isDirectAllowed ← isAllowedDirectRelation relTypeSystem relationReference.relation
    req.subjectRelation.«namespace» req.subjectRelation.relation
  let subjectIds := if isDirectAllowed = .DirectRelationValid then req.subjectIds else []
  let subjectIds ←
    if req.subjectRelation.relation = ellipsis then do
      let isWildcardAllowed ← isAllowedPublicNamespace relTypeSystem relationReference.relation
        req.subjectRelation.«namespace»
      pure (if isWildcardAllowed = .PublicSubjectAllowed then subjectIds ++ [publicWildcard] else subjectIds)
    else pure subjectIds
  let relationFilter : SubjectRelationFilter :=
    if req.subjectRelation.relation = ellipsis then ⟨"", true, false⟩
    else ⟨req.subjectRelation.relation, false, false⟩
  redispatchOrReportOverDatabaseQuery schema relationships dispatch ts req
    ⟨req.subjectRelation.«namespace», subjectIds, relationFilter⟩ relationReference relationReference
    entrypoint dispatched

/-- `lookupTTUEntrypoint`: the subjects looked up as subjects of the arrow's tupleset, and the
resources found as objects of the containing relation. -/
def lookupTTUEntrypoint (ts : NamespaceDefinition) (entrypoint : FoundEntrypoint)
    (req : ReachableResourcesRequest) (dispatched : List ObjectAndRelation) :
    Except String (List ReachableResource × List ObjectAndRelation) := do
  let containingRelation := entrypoint.2
  let ttuTypeSystem ← readNamespaceAndTypes schema containingRelation.«namespace»
  let tuplesetRelation ← entrypoint.1.tuplesetRelationOf
  let allowedRelations ← getAllowedDirectNamespaceSubjectRelations ttuTypeSystem tuplesetRelation
    req.subjectRelation.«namespace»
  match allowedRelations with
  | none => pure ([], dispatched)
  | some allowedRelations =>
    -- a single allowed relation is passed on as the relation filter
    let relationFilter := match allowedRelations with
      | [allowedRelationName] => SubjectRelationFilter.empty.withRelation allowedRelationName
      | _ => SubjectRelationFilter.empty
    redispatchOrReportOverDatabaseQuery schema relationships dispatch ts req
      ⟨req.subjectRelation.«namespace», req.subjectIds, relationFilter⟩
      ⟨containingRelation.«namespace», tuplesetRelation⟩ containingRelation entrypoint.1 dispatched

/-- One entrypoint of `afterSameType`, by its kind. -/
def lookupEntrypoint (ts : NamespaceDefinition) (req : ReachableResourcesRequest)
    (entrypoint : FoundEntrypoint) (dispatched : List ObjectAndRelation) :
    Except String (List ReachableResource × List ObjectAndRelation) :=
  match entrypoint.1.kind with
  | .RELATION_ENTRYPOINT =>
    lookupRelationEntrypoint schema relationships dispatch ts entrypoint.1 req dispatched
  | .COMPUTED_USERSET_ENTRYPOINT =>
    let rewrittenSubjectRelation := entrypoint.2
    redispatchOrReport schema dispatch ts req rewrittenSubjectRelation
      (subjectIdsToResourcesMap rewrittenSubjectRelation req.subjectIds) entrypoint.1 dispatched
  | .TUPLESET_TO_USERSET_ENTRYPOINT =>
    lookupTTUEntrypoint schema relationships dispatch ts entrypoint req dispatched

/-- `afterSameType`: every optimized entrypoint from the subject relation to the resource
relation, followed in order with one dispatched set. -/
def afterSameType (req : ReachableResourcesRequest) : Except String (List ReachableResource) := do
  let ts ← readNamespaceAndTypes schema req.resourceRelation.«namespace»
  let entrypoints ←
    optimizedEntrypointsForSubjectToResource schema ts req.subjectRelation req.resourceRelation
  let (results, _) ← entrypoints.foldlM (fun (results, dispatched) entrypoint => do
      let (found, dispatched) ← lookupEntrypoint schema relationships dispatch ts req entrypoint dispatched
      pure (results ++ found, dispatched)) ([], [])
  pure results

/-- `CursoredReachableResources.ReachableResources`: the subjects themselves when they are of
the resource relation, then what the entrypoints reach. -/
def reachableResources (req : ReachableResourcesRequest) : Except String (List ReachableResource) := do
  if req.subjectIds = [] then throw "no subjects ids given to reachable resources dispatch"
  let req := { req with subjectIds := req.subjectIds.insertionSort (· ≤ ·) }
  let sameType : List ReachableResource :=
    if req.subjectRelation = req.resourceRelation then
      req.subjectIds.map fun subjectId => ⟨subjectId, .HAS_PERMISSION, [subjectId]⟩
    else []
  let reached ← afterSameType schema relationships dispatch req
  pure (sameType ++ reached)

end Cursored

/-- The dispatcher's ReachableResources: with no depth remaining it fails (`CheckDepth`), and
otherwise it runs `reachableResources` dispatching one level deeper. -/
def dispatchReachableResources (schema : List NamespaceDefinition) (relationships : List RelationTuple) :
    ℕ → ReachableResourcesRequest → Except String (List ReachableResource)
  | 0, _ => throw "max depth exceeded: this usually indicates a recursive or too deep data dependency"
  | depth + 1, req => reachableResources schema relationships (dispatchReachableResources schema relationships depth) req

inductive ResolvedPermissionship where
  | HAS_PERMISSION
  | CONDITIONALLY_HAS_PERMISSION
deriving DecidableEq, Repr

structure ResolvedResource where
  resourceId : String
  permissionship : ResolvedPermissionship
  missingRequiredContext : List String
deriving DecidableEq, Repr

/-- What the checking stream publishes for a reachable resource: one that has permission as
it is, and one that needs a check when Check finds it a member, with the context a caveat still
misses. `check` is the bulk check's result for a resource id (none when it has none). -/
def checkReachableResource (check : String → Except String (Option ResourceCheckResult))
    (resource : ReachableResource) : Except String (Option ResolvedResource) :=
  match resource.resultStatus with
  | .HAS_PERMISSION => pure (some ⟨resource.resourceId, .HAS_PERMISSION, []⟩)
  | .REQUIRES_CHECK => do
    let checkResult ← check resource.resourceId
    match checkResult with
    | none => pure none
    | some result =>
      match result.membership with
      | .NOT_MEMBER => pure none
      | .MEMBER => pure (some ⟨resource.resourceId, .HAS_PERMISSION, []⟩)
      | .CAVEATED_MEMBER =>
        pure (some ⟨resource.resourceId, .CONDITIONALLY_HAS_PERMISSION, result.missingExprFields⟩)

/-- `CursoredLookupResources.LookupResources` without a limit: ReachableResources from the
subject, through the checking stream. -/
def lookupResources (schema : List NamespaceDefinition) (relationships : List RelationTuple)
    (check : String → Except String (Option ResourceCheckResult)) (depth : ℕ)
    (objectRelation : RelationReference) (subject : ObjectAndRelation) :
    Except String (List ResolvedResource) := do
  if subject.objectId = publicWildcard then throw "cannot perform lookup resources on wildcard"
  let reachable ← dispatchReachableResources schema relationships depth
    ⟨objectRelation, ⟨subject.«namespace», subject.relation⟩, [subject.objectId]⟩
  let resolved ← reachable.mapM (checkReachableResource check)
  pure resolved.reduceOption

section NoEntrypoints

variable {schema : List NamespaceDefinition} {relationships : List RelationTuple}

theorem afterSameType_of_no_entrypoints
    {dispatch : ReachableResourcesRequest → Except String (List ReachableResource)}
    {req : ReachableResourcesRequest} {ts : NamespaceDefinition}
    (hts : readNamespaceAndTypes schema req.resourceRelation.«namespace» = .ok ts)
    (hnone : optimizedEntrypointsForSubjectToResource schema ts req.subjectRelation req.resourceRelation = .ok []) :
    afterSameType schema relationships dispatch req = .ok [] := by
  simp [afterSameType, hts, hnone]

theorem reachableResources_of_no_entrypoints
    {dispatch : ReachableResourcesRequest → Except String (List ReachableResource)}
    {req : ReachableResourcesRequest} {ts : NamespaceDefinition} (hsubjects : req.subjectIds ≠ [])
    (hrelation : req.subjectRelation ≠ req.resourceRelation)
    (hts : readNamespaceAndTypes schema req.resourceRelation.«namespace» = .ok ts)
    (hnone : optimizedEntrypointsForSubjectToResource schema ts req.subjectRelation req.resourceRelation = .ok []) :
    reachableResources schema relationships dispatch req = .ok [] := by
  have hreached : afterSameType schema relationships dispatch
      { req with subjectIds := req.subjectIds.insertionSort (· ≤ ·) } = .ok [] :=
    afterSameType_of_no_entrypoints hts hnone
  simp [reachableResources, hsubjects, hrelation, hreached]

theorem lookupResources_of_no_entrypoints (check : String → Except String (Option ResourceCheckResult))
    (depth : ℕ) {objectRelation : RelationReference} {subject : ObjectAndRelation} {ts : NamespaceDefinition}
    (hwildcard : subject.objectId ≠ publicWildcard)
    (hrelation : (⟨subject.«namespace», subject.relation⟩ : RelationReference) ≠ objectRelation)
    (hts : readNamespaceAndTypes schema objectRelation.«namespace» = .ok ts)
    (hnone : optimizedEntrypointsForSubjectToResource schema ts ⟨subject.«namespace», subject.relation⟩
      objectRelation = .ok []) :
    lookupResources schema relationships check (depth + 1) objectRelation subject = .ok [] := by
  have hreached : reachableResources schema relationships (dispatchReachableResources schema relationships depth)
      ⟨objectRelation, ⟨subject.«namespace», subject.relation⟩, [subject.objectId]⟩ = .ok [] :=
    reachableResources_of_no_entrypoints (List.cons_ne_nil _ _) hrelation hts hnone
  have hnothing : ([] : List (Option ResolvedResource)).reduceOption = [] := rfl
  simp [lookupResources, dispatchReachableResources, hwildcard, hreached, hnothing]

end NoEntrypoints

/-- A `nil` child ends the walk of a union's children in the reachability builder, so the
children after it get no entrypoint. With `view = nil + viewer`, `user:tom` is a viewer of
`document:d` and so has `view`, but LookupResources finds no resource, at any depth and
whatever Check answers; with the children in the other order it finds `document:d`. -/
theorem lookupResources_misses_union_after_nil (check : String → Except String (Option ResourceCheckResult))
    (depth : ℕ) (v : Caveats.Valuation) :
    let viewer : Relation := ⟨"viewer", none, some [⟨"user", .relation ellipsis, none⟩], .RELATION, ""⟩
    let document := fun view : UsersetRewrite =>
      (⟨"document", [viewer, ⟨"view", some view, none, .PERMISSION, ""⟩]⟩ : NamespaceDefinition)
    let schema := fun view => [⟨"user", []⟩, document view]
    let relationships : List RelationTuple := [⟨⟨"document", "d", "viewer"⟩, ⟨"user", "tom", ellipsis⟩, none⟩]
    let nilFirst := UsersetRewrite.union [.xNil, .computedUserset "viewer"]
    member (schema nilFirst) relationships v 3 ⟨"document", "d", "view"⟩ ⟨"user", "tom", ellipsis⟩ = true ∧
      lookupResources (schema nilFirst) relationships check (depth + 1) ⟨"document", "view"⟩
        ⟨"user", "tom", ellipsis⟩ = .ok [] ∧
      lookupResources (schema (.union [.computedUserset "viewer", .xNil])) relationships check (depth + 2)
        ⟨"document", "view"⟩ ⟨"user", "tom", ellipsis⟩ = .ok [⟨"d", .HAS_PERMISSION, []⟩] := by
  intro viewer document schema relationships nilFirst
  -- the graph of `document#view` stops at `nil`: no entrypoint leads to it from `user`
  have hnone : optimizedEntrypointsForSubjectToResource (schema nilFirst) (document nilFirst)
      ⟨"user", ellipsis⟩ ⟨"document", "view"⟩ = .ok [] := by
    rfl
  refine ⟨rfl, ?_, rfl⟩
  exact lookupResources_of_no_entrypoints check depth (by decide +kernel) (by decide +kernel) rfl hnone

end SpiceDB.Graph
