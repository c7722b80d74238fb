import SpiceDB.Graph.MembershipSet
import SpiceDB.Graph.Semantics
import SpiceDB.Datastore.Filter
import SpiceDB.Typesystem.TypeSystem

namespace SpiceDB.Graph

open Caveats Datastore Typesystem MembershipSet

inductive ResultsSetting where
  | REQUIRE_ALL_RESULTS
  | ALLOW_SINGLE_RESULT
deriving DecidableEq, Repr

/-- `dispatch.DispatchCheckRequest`, its metadata and debug option left out. -/
structure CheckRequest where
  resourceRelation : RelationReference
  resourceIds : List String
  subject : ObjectAndRelation
  resultsSetting : ResultsSetting
deriving DecidableEq, Repr

structure CurrentRequestContext where
  parentReq : CheckRequest
  filteredResourceIds : List String
  resultsSetting : ResultsSetting
  maxDispatchCount : ℕ

/-- The context the children of an intersection, and the subtracted children of an exclusion,
run in. -/
def CurrentRequestContext.requireAllResults (crc : CurrentRequestContext) : CurrentRequestContext :=
  { crc with resultsSetting := .REQUIRE_ALL_RESULTS }

def maxDispatchChunkSize : ℕ := filterMaximumIDCount

/-- `CheckResult`: the results, or the error. -/
abbrev CheckResult := Except String CheckResultsMap

def noMembers : CheckResult := pure ∅

structure DirectDispatch where
  resourceType : RelationReference
  resourceIds : List String

/-- The dispatches for the subjects of some relationships (`tuple.ONRByTypeSet`, then
`slicez.ForEachChunk` per type): for each subject relation, in the order first met, the object
ids without repeats, in chunks. -/
def directDispatches (maxDispatchCount : ℕ) (subjects : List ObjectAndRelation) : List DirectDispatch :=
  let types := (subjects.map fun subject => (⟨subject.«namespace», subject.relation⟩ : RelationReference)).eraseDups
  types.flatMap fun rr =>
    let resourceIds := ((subjects.filter fun subject =>
      (⟨subject.«namespace», subject.relation⟩ : RelationReference) = rr).map (·.objectId)).eraseDups
    (forEachChunk maxDispatchCount resourceIds).map fun chunk => ⟨rr, chunk⟩

/-- `filterForFoundMemberResource`: the subject itself, when it is among the resources, is a
member and is not checked further. -/
def filterForFoundMemberResource (resourceRelation : RelationReference) (resourceIds : List String)
    (subject : ObjectAndRelation) : MembershipSet × List String :=
  if resourceRelation.«namespace» ≠ subject.«namespace» ∨ resourceRelation.relation ≠ subject.relation then
    (newMembershipSet, resourceIds)
  else if subject.objectId ∈ resourceIds then
    (newMembershipSet.addDirectMember subject.objectId none, resourceIds.erase subject.objectId)
  else (newMembershipSet, resourceIds)

/-- `mapFoundResources`: the resources found one level down, mapped back through the
relationships whose subjects they are. -/
def mapFoundResources (result : CheckResultsMap) (resourceType : RelationReference)
    (relationshipsBySubject : List RelationTuple) : CheckResultsMap :=
  (result.entries.foldl (fun membershipSet found =>
    let subjectKey : ObjectAndRelation := ⟨resourceType.«namespace», found.1, resourceType.relation⟩
    (relationshipsBySubject.filter (·.subject = subjectKey)).foldl (fun membershipSet relationTuple =>
      membershipSet.addMemberViaRelationship relationTuple.resourceAndRelation.objectId found.2 relationTuple)
      membershipSet) newMembershipSet).asCheckResultsMap

def combineResultWithFoundResources (result : CheckResult) (foundResources : MembershipSet) : CheckResult := do
  let results ← result
  if foundResources.isEmpty then pure results
  else pure (foundResources.unionWith results).asCheckResultsMap

/-- The loop of `union`: the first error ends it, and so does a member without caveat when a
single result is allowed. -/
def unionResults (resultsSetting : ResultsSetting) (membershipSet : MembershipSet) :
    List CheckResult → CheckResult
  | [] => pure membershipSet.asCheckResultsMap
  | result :: rest => do
    let results ← result
    let membershipSet := membershipSet.unionWith results
    if membershipSet.hasDeterminedMember ∧ resultsSetting = .ALLOW_SINGLE_RESULT then
      pure membershipSet.asCheckResultsMap
    else unionResults resultsSetting membershipSet rest

def union (resultsSetting : ResultsSetting) : List CheckResult → CheckResult
  | [] => noMembers
  | [result] => result
  | results => unionResults resultsSetting newMembershipSet results

/-- The loop of `all`: the first result is the set, each further one is intersected with it,
and an empty set ends it. -/
def allResults : Option MembershipSet → List CheckResult → CheckResult
  | membershipSet, [] => pure (membershipSet.getD newMembershipSet).asCheckResultsMap
  | membershipSet, result :: rest => do
    let results ← result
    let membershipSet := match membershipSet with
      | none => newMembershipSet.unionWith results
      | some membershipSet => membershipSet.intersectWith results
    if membershipSet.isEmpty then noMembers else allResults (some membershipSet) rest

def all : List CheckResult → CheckResult
  | [] => noMembers
  | [result] => result
  | results => allResults none results

/-- The loop of `difference` over the subtracted results. -/
def subtractResults (membershipSet : MembershipSet) : List CheckResult → CheckResult
  | [] => pure membershipSet.asCheckResultsMap
  | result :: rest => do
    let results ← result
    let membershipSet := membershipSet.subtract results
    if membershipSet.isEmpty then noMembers else subtractResults membershipSet rest

/-- `difference` with two children or more: the base result less the others. -/
def difference (base : CheckResult) (others : List CheckResult) : CheckResult := do
  let results ← base
  let membershipSet := newMembershipSet.unionWith results
  if membershipSet.isEmpty then noMembers else subtractResults membershipSet others

section Checker

variable (schema : List NamespaceDefinition) (relationships : List RelationTuple)
  (dispatch : CheckRequest → CheckResult)

/-- The loop of `checkDirect` over the relationships with the subject or its wildcard: `.inl`
when a single result is allowed and a member without caveat was found, which ends the check. -/
def addDirectMembers (crc : CurrentRequestContext) :
    MembershipSet → List RelationTuple → Except String (CheckResultsMap ⊕ MembershipSet)
  | foundResources, [] => pure (.inr foundResources)
  | foundResources, tpl :: rest =>
    if !onrEqualOrWildcard tpl.subject crc.parentReq.subject then
      throw ("error performing check: somehow got invalid ONR for direct check matching: " ++
        stringONR crc.parentReq.subject ++ " vs " ++ stringONR tpl.resourceAndRelation ++ "@" ++
        stringONR tpl.subject)
    else
      let foundResources := foundResources.addDirectMember tpl.resourceAndRelation.objectId tpl.caveat
      if crc.resultsSetting = .ALLOW_SINGLE_RESULT ∧ foundResources.hasDeterminedMember then
        pure (.inl foundResources.asCheckResultsMap)
      else addDirectMembers crc foundResources rest

/-- `checkDirect`: the relationships with the subject or its wildcard, then the usersets among
the subjects of the resources not yet found, dispatched and mapped back. -/
def checkDirect (crc : CurrentRequestContext) (relation : Relation) : CheckResult := do
  let subject := crc.parentReq.subject
  let allowedDirectRelations := relation.typeInformation.getD []
  let hasDirectSubject := allowedDirectRelations.any fun allowed =>
    allowed.«namespace» = subject.«namespace» ∧ !allowed.isPublicWildcard ∧ allowed.getRelation = subject.relation
  let hasWildcardSubject := allowedDirectRelations.any fun allowed =>
    allowed.«namespace» = subject.«namespace» ∧ allowed.isPublicWildcard
  let hasNonTerminals := allowedDirectRelations.any fun allowed => allowed.getRelation ≠ ellipsis
  let found ←
    if hasDirectSubject ∨ hasWildcardSubject then
      let subjectSelectors : List SubjectsSelector :=
        (if hasDirectSubject then
          [⟨subject.«namespace», [subject.objectId], SubjectRelationFilter.empty.withRelation subject.relation⟩]
        else []) ++
        (if hasWildcardSubject then
          [⟨subject.«namespace», [publicWildcard], SubjectRelationFilter.empty.withEllipsisRelation⟩]
        else [])
      let filter : RelationshipsFilter := ⟨crc.parentReq.resourceRelation.«namespace», crc.filteredResourceIds,
        "", crc.parentReq.resourceRelation.relation, subjectSelectors, ""⟩
      addDirectMembers crc newMembershipSet (relationships.filter filter.test)
    else pure (.inr newMembershipSet)
  match found with
  | .inl results => pure results
  | .inr foundResources =>
    let furtherFilteredResourceIds :=
      crc.filteredResourceIds.filter fun resourceId => !foundResources.hasConcreteResourceId resourceId
    if !hasNonTerminals ∨ furtherFilteredResourceIds = [] then return foundResources.asCheckResultsMap
    let filter : RelationshipsFilter := ⟨crc.parentReq.resourceRelation.«namespace», furtherFilteredResourceIds,
      "", crc.parentReq.resourceRelation.relation,
      [⟨"", [], SubjectRelationFilter.empty.withOnlyNonEllipsisRelations⟩], ""⟩
    let tuples := relationships.filter filter.test
    if tuples.any (·.subject.relation = ellipsis) then
      throw "error performing check: got a terminal for a non-terminal query"
    let result := union crc.resultsSetting ((directDispatches crc.maxDispatchCount (tuples.map (·.subject))).map
      fun dd => do
        let childResult ← dispatch ⟨dd.resourceType, dd.resourceIds, subject, crc.resultsSetting⟩
        pure (mapFoundResources childResult dd.resourceType tuples))
    combineResultWithFoundResources result foundResources

/-- `checkComputedUserset`: a relation of the resources themselves (`TUPLE_OBJECT`, with no
tupleset subjects), or of the subjects of a tupleset of one type (`TUPLE_USERSET_OBJECT`). -/
def checkComputedUserset (crc : CurrentRequestContext) (computedRelation : String)
    (tuplesetSubjects : Option DirectDispatch) : CheckResult := do
  let (startNamespace, targetResourceIds) ← match tuplesetSubjects with
    | some dd =>
      if dd.resourceIds = [] then throw (mustBugf "computed userset for tupleset without tuples")
      else pure (dd.resourceType.«namespace», dd.resourceIds)
    | none => pure (crc.parentReq.resourceRelation.«namespace», crc.filteredResourceIds)
  let targetRR : RelationReference := ⟨startNamespace, computedRelation⟩
  let (membershipSet, updatedTargetResourceIds) :=
    filterForFoundMemberResource targetRR targetResourceIds crc.parentReq.subject
  if (membershipSet.hasDeterminedMember ∧ crc.resultsSetting = .ALLOW_SINGLE_RESULT) ∨
      updatedTargetResourceIds = [] then
    return membershipSet.asCheckResultsMap
  -- a relation reached through an arrow may be missing from the subject's definition
  if tuplesetSubjects.isSome then
    match checkNamespaceAndRelation schema targetRR.«namespace» targetRR.relation true with
    | .error (.relationNotFound _ _) => return ∅
    | .error err => throw err.message
    | .ok () => pure ()
  combineResultWithFoundResources
    (dispatch ⟨targetRR, updatedTargetResourceIds, crc.parentReq.subject, crc.resultsSetting⟩) membershipSet

/-- `checkTupleToUserset`: the computed relation of the subjects of the tupleset, mapped back
through the tupleset relationships. -/
def checkTupleToUserset (crc : CurrentRequestContext) (tuplesetRelation computedUsersetRelation : String) :
    CheckResult :=
  let filter : RelationshipsFilter :=
    ⟨crc.parentReq.resourceRelation.«namespace», crc.filteredResourceIds, "", tuplesetRelation, [], ""⟩
  let tuples := relationships.filter filter.test
  union crc.resultsSetting ((directDispatches crc.maxDispatchCount (tuples.map (·.subject))).map fun dd => do
    let childResult ← checkComputedUserset schema dispatch crc computedUsersetRelation (some dd)
    pure (mapFoundResources childResult dd.resourceType tuples))

mutual
def checkUsersetRewrite (crc : CurrentRequestContext) : UsersetRewrite → CheckResult
  | .union child => union crc.resultsSetting (runSetOperations crc child)
  | .intersection child =>
    -- a single child runs in the request's context, several require all results
    all (runSetOperations (if child.length = 1 then crc else crc.requireAllResults) child)
  | .exclusion [] => noMembers
  | .exclusion [_] => throw "difference requires more than a single child"
  | .exclusion (base :: others) =>
    -- the base runs in the request's context, the subtracted children require all results
    difference (runSetOperation crc base) (runSetOperations crc.requireAllResults others)

def runSetOperation (crc : CurrentRequestContext) : SetOperationChild → CheckResult
  | .xThis => throw "use of _this is unsupported; please rewrite your schema"
  | .computedUserset relation => checkComputedUserset schema dispatch crc relation none
  | .usersetRewrite rewrite => checkUsersetRewrite crc rewrite
  | .tupleToUserset tuplesetRelation computedUsersetRelation =>
    checkTupleToUserset schema relationships dispatch crc tuplesetRelation computedUsersetRelation
  | .xNil => noMembers

/-- The results of the children, in their order. -/
def runSetOperations (crc : CurrentRequestContext) : List SetOperationChild → List CheckResult
  | [] => []
  | child :: rest => runSetOperation crc child :: runSetOperations crc rest
end

def checkInternal (req : CheckRequest) (relation : Relation) : CheckResult := do
  if relation.typeInformation.isNone ∧ relation.usersetRewrite.isNone then
    throw ("found relation \x60" ++ relation.name ++
      "\x60 without type information; to fix, please re-write your schema")
  if req.resourceIds = [] then throw "empty resource IDs given to dispatched check"
  if req.subject.objectId = publicWildcard then throw "cannot perform check on wildcard"
  let resourceIds := req.resourceIds.eraseDups
  let (membershipSet, filteredResourceIds) :=
    filterForFoundMemberResource req.resourceRelation resourceIds req.subject
  if membershipSet.hasDeterminedMember ∧ req.resultsSetting = .ALLOW_SINGLE_RESULT then
    return membershipSet.asCheckResultsMap
  if filteredResourceIds = [] then return ∅
  -- a single resource id always allows a single result
  let resultsSetting := if filteredResourceIds.length = 1 then .ALLOW_SINGLE_RESULT else req.resultsSetting
  let crc : CurrentRequestContext := ⟨req, filteredResourceIds, resultsSetting, maxDispatchChunkSize⟩
  match relation.usersetRewrite with
  | none => combineResultWithFoundResources (checkDirect relationships dispatch crc relation) membershipSet
  | some rewrite =>
    combineResultWithFoundResources (checkUsersetRewrite schema relationships dispatch crc rewrite) membershipSet

end Checker

/-- The request and relation the local dispatcher checks: a relation aliasing another, asked
for a subject of another type than the resource, is checked as the relation it aliases. -/
def resolveAliasingRelation (ns : NamespaceDefinition) (req : CheckRequest) (relation : Relation) :
    Except String (CheckRequest × Relation) :=
  if relation.aliasingRelation ≠ "" ∧ req.resourceRelation.«namespace» ≠ req.subject.«namespace» then do
    let relation ← relationOrError ns relation.aliasingRelation
    pure ({ req with resourceRelation := ⟨req.resourceRelation.«namespace», relation.name⟩ }, relation)
  else pure (req, relation)

theorem resolveAliasingRelation_eq_ok {ns : NamespaceDefinition} {req : CheckRequest} {relation : Relation}
    {checked : CheckRequest × Relation} (h : resolveAliasingRelation ns req relation = .ok checked) :
    checked = (req, relation) ∨ relation.aliasingRelation ≠ "" ∧
      relationOrError ns relation.aliasingRelation = .ok checked.2 ∧
      checked.1 = { req with resourceRelation := ⟨req.resourceRelation.«namespace», checked.2.name⟩ } := by
  unfold resolveAliasingRelation at h
  split at h
  · rename_i halias
    obtain ⟨aliased, haliased, h⟩ := Except.bind_eq_ok.1 h
    cases h
    exact .inr ⟨halias.1, haliased, rfl⟩
  · cases h
    exact .inl rfl

/-- The local dispatcher's `DispatchCheck`: with no depth remaining it fails (`CheckDepth`),
and otherwise it reads the relation and checks it, or its alias, dispatching one level deeper. -/
def dispatchCheck (schema : List NamespaceDefinition) (relationships : List RelationTuple) :
    ℕ → CheckRequest → CheckResult
  | 0, _ => throw "max depth exceeded: this usually indicates a recursive or too deep data dependency"
  | depth + 1, req => do
    let ns ← readNamespaceAndTypes schema req.resourceRelation.«namespace»
    let relation ← relationOrError ns req.resourceRelation.relation
    let checked ← resolveAliasingRelation ns req relation
    checkInternal schema relationships (dispatchCheck schema relationships depth) checked.1 checked.2

/-- A request that inherits `ALLOW_SINGLE_RESULT` with several resource ids runs the base of an
exclusion with it: the base stops at its first member, which the subtracted child may remove,
and the exclusion then finds no member among the ids though another one is. On the subtracted
side of an outer exclusion that missing member becomes a grant. `tom` reads `document:r`,
which blocks the members of `group:a` and `group:b`; `tom` is in `group:b` (in its base and not
banned), so the reference semantics denies `view`. Check, with the relationships of `group:a`
read first, answers `MEMBER`: `blocked` on the single id `r` switches to
`ALLOW_SINGLE_RESULT`, dispatches `group#member` on `a` and `b` with it, whose base stops at `a`,
which `banned` then removes. -/
theorem check_grants_view_blocked_through_group (depth : ℕ) (v : Caveats.Valuation) :
    let userRelation := fun name => Relation.mk name none (some [⟨"user", .relation ellipsis, none⟩]) .RELATION ""
    let group : NamespaceDefinition := ⟨"group", [userRelation "base", userRelation "banned",
      ⟨"member", some (.exclusion [.computedUserset "base", .computedUserset "banned"]), none, .PERMISSION, ""⟩]⟩
    let document : NamespaceDefinition := ⟨"document", [userRelation "reader",
      ⟨"blocked", none, some [⟨"group", .relation "member", none⟩], .RELATION, ""⟩,
      ⟨"view", some (.exclusion [.computedUserset "reader", .computedUserset "blocked"]), none, .PERMISSION, ""⟩]⟩
    let schema := [⟨"user", []⟩, group, document]
    let tom : ObjectAndRelation := ⟨"user", "tom", ellipsis⟩
    let relationships : List RelationTuple := [⟨⟨"document", "r", "reader"⟩, tom, none⟩,
      ⟨⟨"document", "r", "blocked"⟩, ⟨"group", "a", "member"⟩, none⟩,
      ⟨⟨"document", "r", "blocked"⟩, ⟨"group", "b", "member"⟩, none⟩,
      ⟨⟨"group", "a", "base"⟩, tom, none⟩, ⟨⟨"group", "b", "base"⟩, tom, none⟩,
      ⟨⟨"group", "a", "banned"⟩, tom, none⟩]
    member schema relationships v (depth + 5) ⟨"document", "r", "view"⟩ tom = false ∧
      (dispatchCheck schema relationships (depth + 5) ⟨⟨"document", "view"⟩, ["r"], tom, .REQUIRE_ALL_RESULTS⟩).map
        (fun results => (results.lookup "r").map membershipOf) = .ok (some .MEMBER) := by
  exact ⟨rfl, rfl⟩

end SpiceDB.Graph
