import SpiceDB.Graph.CheckSound

namespace SpiceDB.Graph.Metadata

open Caveats Datastore Typesystem MembershipSet

/-- `v1.ResponseMeta`: its `DepthRequired`. -/
structure ResponseMeta where
  depthRequired : ℕ
  deriving DecidableEq, Repr

def emptyMetadata : ResponseMeta := ⟨0⟩

def combineResponseMetadata (existing responseMetadata : ResponseMeta) : ResponseMeta :=
  ⟨max existing.depthRequired responseMetadata.depthRequired⟩

/-- `addCallToResponseMetadata`: one more for the current call. -/
def addCallToResponseMetadata (metadata : ResponseMeta) : ResponseMeta :=
  ⟨metadata.depthRequired + 1⟩

/-- `CheckResult`: the results of the response or the error, and the response's metadata. -/
structure CheckResult where
  resp : Except String CheckResultsMap
  metadata : ResponseMeta

def noMembers : CheckResult := ⟨.ok ∅, emptyMetadata⟩

def noMembersWithMetadata (metadata : ResponseMeta) : CheckResult := ⟨.ok ∅, metadata⟩

def checkResultsForMembership (foundMembership : MembershipSet) (subProblemMetadata : ResponseMeta) :
    CheckResult :=
  ⟨.ok foundMembership.asCheckResultsMap, subProblemMetadata⟩

def checkResultError (err : String) (subProblemMetadata : ResponseMeta) : CheckResult :=
  ⟨.error err, subProblemMetadata⟩

def withDistinctMetadata (result : CheckResult) : CheckResult :=
  { result with metadata := combineResponseMetadata emptyMetadata result.metadata }

def combineResultWithFoundResources (result : CheckResult) (foundResources : MembershipSet) :
    CheckResult :=
  match result.resp with
  | .error _ => result
  | .ok results =>
    if foundResources.isEmpty then result
    else ⟨.ok (foundResources.unionWith results).asCheckResultsMap, result.metadata⟩

/-- `mapFoundResources` on a successful result, its metadata kept. -/
def mapFoundResources (results : CheckResultsMap) (metadata : ResponseMeta)
    (resourceType : RelationReference) (relationshipsBySubject : List RelationTuple) : CheckResult :=
  ⟨.ok (Graph.mapFoundResources results resourceType relationshipsBySubject), metadata⟩

def unionResults (resultsSetting : ResultsSetting) (membershipSet : MembershipSet)
    (responseMetadata : ResponseMeta) : List CheckResult → CheckResult
  | [] => checkResultsForMembership membershipSet responseMetadata
  | result :: rest =>
    let responseMetadata := combineResponseMetadata responseMetadata result.metadata
    match result.resp with
    | .error err => checkResultError err responseMetadata
    | .ok results =>
      let membershipSet := membershipSet.unionWith results
      if membershipSet.hasDeterminedMember ∧ resultsSetting = .ALLOW_SINGLE_RESULT then
        checkResultsForMembership membershipSet responseMetadata
      else unionResults resultsSetting membershipSet responseMetadata rest

def union (resultsSetting : ResultsSetting) : List CheckResult → CheckResult
  | [] => noMembers
  | [result] => withDistinctMetadata result
  | results => unionResults resultsSetting newMembershipSet emptyMetadata results

def allResults : Option MembershipSet → ResponseMeta → List CheckResult → CheckResult
  | membershipSet, responseMetadata, [] =>
    checkResultsForMembership (membershipSet.getD newMembershipSet) responseMetadata
  | membershipSet, responseMetadata, result :: rest =>
    let responseMetadata := combineResponseMetadata responseMetadata result.metadata
    match result.resp with
    | .error err => checkResultError err responseMetadata
    | .ok results =>
      let membershipSet := match membershipSet with
        | none => newMembershipSet.unionWith results
        | some membershipSet => membershipSet.intersectWith results
      if membershipSet.isEmpty then noMembersWithMetadata responseMetadata
      else allResults (some membershipSet) responseMetadata rest

def all : List CheckResult → CheckResult
  | [] => noMembers
  | [result] => withDistinctMetadata result
  | results => allResults none emptyMetadata results

def subtractResults (membershipSet : MembershipSet) (responseMetadata : ResponseMeta) :
    List CheckResult → CheckResult
  | [] => checkResultsForMembership membershipSet responseMetadata
  | sub :: rest =>
    let responseMetadata := combineResponseMetadata responseMetadata sub.metadata
    match sub.resp with
    | .error err => checkResultError err responseMetadata
    | .ok results =>
      let membershipSet := membershipSet.subtract results
      if membershipSet.isEmpty then noMembersWithMetadata responseMetadata
      else subtractResults membershipSet responseMetadata rest

/-- `difference` with two children or more. -/
def difference (base : CheckResult) (others : List CheckResult) : CheckResult :=
  let responseMetadata := combineResponseMetadata emptyMetadata base.metadata
  match base.resp with
  | .error err => checkResultError err responseMetadata
  | .ok results =>
    let membershipSet := newMembershipSet.unionWith results
    if membershipSet.isEmpty then noMembersWithMetadata responseMetadata
    else subtractResults membershipSet responseMetadata others

section Checker

variable (schema : List NamespaceDefinition) (relationships : List RelationTuple)
  (dispatch : CheckRequest → CheckResult)

def checkDirect (crc : CurrentRequestContext) (relation : Relation) : CheckResult :=
  let subject := crc.parentReq.subject
  let allowedDirectRelations := relation.typeInformation.getD []
  let hasDirectSubject := allowedDirectRelations.any fun allowed =>
    allowed.«namespace» = subject.«namespace» ∧ !allowed.isPublicWildcard ∧ allowed.getRelation = subject.relation
  let hasWildcardSubject := allowedDirectRelations.any fun allowed =>
    allowed.«namespace» = subject.«namespace» ∧ allowed.isPublicWildcard
  let hasNonTerminals := allowedDirectRelations.any fun allowed => allowed.getRelation ≠ ellipsis
  let found : Except String (CheckResultsMap ⊕ MembershipSet) :=
    if hasDirectSubject ∨ hasWildcardSubject then
      let subjectSelectors : List SubjectsSelector :=
        (if hasDirectSubject then
          [⟨subject.«namespace», [subject.objectId], SubjectRelationFilter.empty.withRelation subject.relation⟩]
        else []) ++
        (if hasWildcardSubject then
          [⟨subject.«namespace», [publicWildcard], SubjectRelationFilter.empty.withEllipsisRelation⟩]
        else [])
      let filter : RelationshipsFilter := ⟨crc.parentReq.resourceRelation.«namespace», crc.filteredResourceIds,
        "", crc.parentReq.resourceRelation.relation, subjectSelectors, ""⟩
      addDirectMembers crc newMembershipSet (relationships.filter filter.test)
    else pure (.inr newMembershipSet)
  match found with
  | .error err => checkResultError err emptyMetadata
  | .ok (.inl results) => ⟨.ok results, emptyMetadata⟩
  | .ok (.inr foundResources) =>
    let furtherFilteredResourceIds :=
      crc.filteredResourceIds.filter fun resourceId => !foundResources.hasConcreteResourceId resourceId
    if !hasNonTerminals ∨ furtherFilteredResourceIds = [] then
      checkResultsForMembership foundResources emptyMetadata
    else
      let filter : RelationshipsFilter := ⟨crc.parentReq.resourceRelation.«namespace», furtherFilteredResourceIds,
        "", crc.parentReq.resourceRelation.relation,
        [⟨"", [], SubjectRelationFilter.empty.withOnlyNonEllipsisRelations⟩], ""⟩
      let tuples := relationships.filter filter.test
      if tuples.any (·.subject.relation = ellipsis) then
        checkResultError "error performing check: got a terminal for a non-terminal query" emptyMetadata
      else
        let result := union crc.resultsSetting ((directDispatches crc.maxDispatchCount (tuples.map (·.subject))).map
          fun dd =>
            let childResult := dispatch ⟨dd.resourceType, dd.resourceIds, subject, crc.resultsSetting⟩
            match childResult.resp with
            | .error _ => childResult
            | .ok results => mapFoundResources results childResult.metadata dd.resourceType tuples)
        combineResultWithFoundResources result foundResources

def checkComputedUserset (crc : CurrentRequestContext) (computedRelation : String)
    (tuplesetSubjects : Option DirectDispatch) : CheckResult :=
  let target : Except String (String × List String) := match tuplesetSubjects with
    | some dd =>
      if dd.resourceIds = [] then throw (mustBugf "computed userset for tupleset without tuples")
      else pure (dd.resourceType.«namespace», dd.resourceIds)
    | none => pure (crc.parentReq.resourceRelation.«namespace», crc.filteredResourceIds)
  match target with
  | .error err => checkResultError err emptyMetadata
  | .ok (startNamespace, targetResourceIds) =>
    let targetRR : RelationReference := ⟨startNamespace, computedRelation⟩
    let (membershipSet, updatedTargetResourceIds) :=
      filterForFoundMemberResource targetRR targetResourceIds crc.parentReq.subject
    if (membershipSet.hasDeterminedMember ∧ crc.resultsSetting = .ALLOW_SINGLE_RESULT) ∨
        updatedTargetResourceIds = [] then
      checkResultsForMembership membershipSet emptyMetadata
    else
      let dispatched := combineResultWithFoundResources
        (dispatch ⟨targetRR, updatedTargetResourceIds, crc.parentReq.subject, crc.resultsSetting⟩) membershipSet
      -- a relation reached through an arrow may be missing from the subject's definition
      if tuplesetSubjects.isSome then
        match checkNamespaceAndRelation schema targetRR.«namespace» targetRR.relation true with
        | .error (.relationNotFound _ _) => noMembers
        | .error err => checkResultError err.message emptyMetadata
        | .ok () => dispatched
      else dispatched

def checkTupleToUserset (crc : CurrentRequestContext) (tuplesetRelation computedUsersetRelation : String) :
    CheckResult :=
  let filter : RelationshipsFilter :=
    ⟨crc.parentReq.resourceRelation.«namespace», crc.filteredResourceIds, "", tuplesetRelation, [], ""⟩
  let tuples := relationships.filter filter.test
  union crc.resultsSetting ((directDispatches crc.maxDispatchCount (tuples.map (·.subject))).map fun dd =>
    let childResult := checkComputedUserset schema dispatch crc computedUsersetRelation (some dd)
    match childResult.resp with
    | .error _ => childResult
    | .ok results => mapFoundResources results childResult.metadata dd.resourceType tuples)

mutual
def checkUsersetRewrite (crc : CurrentRequestContext) : UsersetRewrite → CheckResult
  | .union child => union crc.resultsSetting (runSetOperations crc child)
  | .intersection child =>
    all (runSetOperations (if child.length = 1 then crc else crc.requireAllResults) child)
  | .exclusion [] => noMembers
  | .exclusion [_] => checkResultError "difference requires more than a single child" emptyMetadata
  | .exclusion (base :: others) =>
    difference (runSetOperation crc base) (runSetOperations crc.requireAllResults others)

def runSetOperation (crc : CurrentRequestContext) : SetOperationChild → CheckResult
  | .xThis => checkResultError "use of _this is unsupported; please rewrite your schema" emptyMetadata
  | .computedUserset relation => checkComputedUserset schema dispatch crc relation none
  | .usersetRewrite rewrite => checkUsersetRewrite crc rewrite
  | .tupleToUserset tuplesetRelation computedUsersetRelation =>
    checkTupleToUserset schema relationships dispatch crc tuplesetRelation computedUsersetRelation
  | .xNil => noMembers

def runSetOperations (crc : CurrentRequestContext) : List SetOperationChild → List CheckResult
  | [] => []
  | child :: rest => runSetOperation crc child :: runSetOperations crc rest
end

def checkInternal (req : CheckRequest) (relation : Relation) : CheckResult :=
  if relation.typeInformation.isNone ∧ relation.usersetRewrite.isNone then
    checkResultError ("found relation \x60" ++ relation.name ++
      "\x60 without type information; to fix, please re-write your schema") emptyMetadata
  else if req.resourceIds = [] then
    checkResultError "empty resource IDs given to dispatched check" emptyMetadata
  else if req.subject.objectId = publicWildcard then
    checkResultError "cannot perform check on wildcard" emptyMetadata
  else
    let (membershipSet, filteredResourceIds) :=
      filterForFoundMemberResource req.resourceRelation req.resourceIds.eraseDups req.subject
    if membershipSet.hasDeterminedMember ∧ req.resultsSetting = .ALLOW_SINGLE_RESULT then
      checkResultsForMembership membershipSet emptyMetadata
    else if filteredResourceIds = [] then noMembers
    else
      let resultsSetting :=
        if filteredResourceIds.length = 1 then .ALLOW_SINGLE_RESULT else req.resultsSetting
      let crc : CurrentRequestContext := ⟨req, filteredResourceIds, resultsSetting, maxDispatchChunkSize⟩
      match relation.usersetRewrite with
      | none => combineResultWithFoundResources (checkDirect relationships dispatch crc relation) membershipSet
      | some rewrite =>
        combineResultWithFoundResources (checkUsersetRewrite schema relationships dispatch crc rewrite)
          membershipSet

/-- `ConcurrentChecker.Check`: one more call in the metadata. -/
def check (req : CheckRequest) (relation : Relation) : CheckResult :=
  let resolved := checkInternal schema relationships dispatch req relation
  { resolved with metadata := addCallToResponseMetadata resolved.metadata }

/-- `localDispatcher.DispatchCheck` with depth remaining: the relation read, then checked, or
its alias checked in its place. -/
def localDispatchCheck (req : CheckRequest) : CheckResult :=
  match readNamespaceAndTypes schema req.resourceRelation.«namespace» >>= fun ns =>
      relationOrError ns req.resourceRelation.relation >>= resolveAliasingRelation ns req with
  | .error err => checkResultError err emptyMetadata
  | .ok checked => check schema relationships dispatch checked.1 checked.2

end Checker

/-- What `CheckDepth` answers to a request with no depth remaining. -/
def maxDepthExceeded : CheckResult :=
  checkResultError "max depth exceeded: this usually indicates a recursive or too deep data dependency"
    emptyMetadata

/-- The local dispatcher, dispatching to itself one level down. -/
def dispatchCheck (schema : List NamespaceDefinition) (relationships : List RelationTuple) :
    ℕ → CheckRequest → CheckResult
  | 0, _ => maxDepthExceeded
  | depth + 1, req => localDispatchCheck schema relationships (dispatchCheck schema relationships depth) req

section Results

theorem unionResults_resp (resultsSetting : ResultsSetting) :
    ∀ (results : List CheckResult) (membershipSet : MembershipSet) (responseMetadata : ResponseMeta),
      (unionResults resultsSetting membershipSet responseMetadata results).resp =
        Graph.unionResults resultsSetting membershipSet (results.map (·.resp))
  | [], _, _ => rfl
  | result :: rest, membershipSet, responseMetadata => by
    simp only [unionResults, Graph.unionResults, List.map_cons]
    cases result.resp with
    | error err => rfl
    | ok results =>
      simp only [Except.ok_bind]
      split
      · rfl
      · exact unionResults_resp resultsSetting rest _ _

theorem union_resp (resultsSetting : ResultsSetting) (results : List CheckResult) :
    (union resultsSetting results).resp = Graph.union resultsSetting (results.map (·.resp)) := by
  match results with
  | [] => rfl
  | [_] => rfl
  | _ :: _ :: _ => exact unionResults_resp resultsSetting _ _ _

theorem allResults_resp :
    ∀ (results : List CheckResult) (membershipSet : Option MembershipSet) (responseMetadata : ResponseMeta),
      (allResults membershipSet responseMetadata results).resp =
        Graph.allResults membershipSet (results.map (·.resp))
  | [], _, _ => rfl
  | result :: rest, membershipSet, responseMetadata => by
    simp only [allResults, Graph.allResults, List.map_cons]
    cases result.resp with
    | error err => rfl
    | ok results =>
      simp only [Except.ok_bind]
      -- the first child starts the intersection and the others narrow it, alike on both sides
      cases membershipSet <;>
      · dsimp only
        split
        · rfl
        · exact allResults_resp rest _ _

theorem all_resp (results : List CheckResult) : (all results).resp = Graph.all (results.map (·.resp)) := by
  match results with
  | [] => rfl
  | [_] => rfl
  | _ :: _ :: _ => exact allResults_resp _ _ _

theorem subtractResults_resp :
    ∀ (results : List CheckResult) (membershipSet : MembershipSet) (responseMetadata : ResponseMeta),
      (subtractResults membershipSet responseMetadata results).resp =
        Graph.subtractResults membershipSet (results.map (·.resp))
  | [], _, _ => rfl
  | result :: rest, membershipSet, responseMetadata => by
    simp only [subtractResults, Graph.subtractResults, List.map_cons]
    cases result.resp with
    | error err => rfl
    | ok results =>
      simp only [Except.ok_bind]
      split
      · rfl
      · exact subtractResults_resp rest _ _

theorem difference_resp (base : CheckResult) (others : List CheckResult) :
    (difference base others).resp = Graph.difference base.resp (others.map (·.resp)) := by
  simp only [difference, Graph.difference]
  cases base.resp with
  | error err => rfl
  | ok results =>
    simp only [Except.ok_bind]
    split
    · rfl
    · exact subtractResults_resp _ _ _

theorem combineResultWithFoundResources_resp (result : CheckResult) (foundResources : MembershipSet) :
    (combineResultWithFoundResources result foundResources).resp =
      Graph.combineResultWithFoundResources result.resp foundResources := by
  unfold combineResultWithFoundResources Graph.combineResultWithFoundResources
  cases hresult : result.resp with
  | error err => simp [hresult]
  | ok results =>
    simp only [Except.ok_bind]
    split <;> simp [hresult]

section Checker

variable (schema : List NamespaceDefinition) (relationships : List RelationTuple)
  {dispatch : CheckRequest → CheckResult} {dispatch' : CheckRequest → Graph.CheckResult}

theorem mapChild_resp {child : CheckResult} {child' : Graph.CheckResult} (h : child.resp = child')
    (resourceType : RelationReference) (tuples : List RelationTuple) :
    (match child.resp with
      | .error _ => child
      | .ok results => mapFoundResources results child.metadata resourceType tuples).resp =
      (do
        let childResult ← child'
        pure (Graph.mapFoundResources childResult resourceType tuples)) := by
  subst h
  cases hchild : child.resp with
  | error err => simp [hchild]
  | ok results => rfl

theorem checkDirect_resp (hdispatch : ∀ req, (dispatch req).resp = dispatch' req)
    (crc : CurrentRequestContext) (relation : Relation) :
    (checkDirect relationships dispatch crc relation).resp = Graph.checkDirect relationships dispatch' crc relation := by
  unfold checkDirect Graph.checkDirect
  dsimp only
  -- the source's continuation after `found` is pushed into both branches on the Graph side
  split
  · rename_i hfound
    split at hfound
    · rw [if_pos ‹_›, hfound]
      rfl
    · cases hfound
  · rename_i hfound
    split at hfound
    · rw [if_pos ‹_›, hfound]
      rfl
    · cases hfound
  · rename_i foundResources hfound
    split at hfound
    case' isTrue hsubject => rw [if_pos hsubject, hfound]
    case' isFalse hsubject =>
      cases hfound
      rw [if_neg hsubject]
    all_goals
      simp only [Except.ok_bind, Except.pure_eq_ok]
      split
      · rfl
      · split
        · rfl
        · -- each child dispatched has the results the other dispatcher gives
          rw [combineResultWithFoundResources_resp, union_resp, List.map_map]
          congr 2
          exact List.map_congr_left fun dd _ => mapChild_resp (hdispatch _) _ _

theorem checkComputedUserset_resp (hdispatch : ∀ req, (dispatch req).resp = dispatch' req)
    (crc : CurrentRequestContext) (computedRelation : String) (tuplesetSubjects : Option DirectDispatch) :
    (checkComputedUserset schema dispatch crc computedRelation tuplesetSubjects).resp =
      Graph.checkComputedUserset schema dispatch' crc computedRelation tuplesetSubjects := by
  unfold checkComputedUserset Graph.checkComputedUserset
  cases tuplesetSubjects with
  | none =>
    simp only [Except.pure_eq_ok, Except.ok_bind, Option.isSome_none, Bool.false_eq_true, if_false]
    split
    · rfl
    · rw [combineResultWithFoundResources_resp, hdispatch]
  | some dd =>
    by_cases hempty : dd.resourceIds = []
    · simp [hempty, checkResultError]
    · simp only [hempty, if_false, Except.pure_eq_ok, Except.ok_bind, Option.isSome_some, if_true]
      split
      · rfl
      · -- the computed relation is looked up in the subjects' definition, alike on both sides
        cases checkNamespaceAndRelation schema dd.resourceType.«namespace» computedRelation true with
        | error err => cases err <;> rfl
        | ok _ =>
          dsimp only
          rw [combineResultWithFoundResources_resp, hdispatch]

theorem checkTupleToUserset_resp (hdispatch : ∀ req, (dispatch req).resp = dispatch' req)
    (crc : CurrentRequestContext) (tuplesetRelation computedUsersetRelation : String) :
    (checkTupleToUserset schema relationships dispatch crc tuplesetRelation computedUsersetRelation).resp =
      Graph.checkTupleToUserset schema relationships dispatch' crc tuplesetRelation computedUsersetRelation := by
  unfold checkTupleToUserset Graph.checkTupleToUserset
  rw [union_resp, List.map_map]
  congr 1
  exact List.map_congr_left fun dd _ => mapChild_resp (checkComputedUserset_resp schema hdispatch crc _ _) _ _

mutual
theorem checkUsersetRewrite_resp (hdispatch : ∀ req, (dispatch req).resp = dispatch' req)
    (crc : CurrentRequestContext) :
    ∀ rewrite : UsersetRewrite, (checkUsersetRewrite schema relationships dispatch crc rewrite).resp =
      Graph.checkUsersetRewrite schema relationships dispatch' crc rewrite
  | .union child => by
    rw [checkUsersetRewrite, Graph.checkUsersetRewrite, union_resp, runSetOperations_resp hdispatch crc child]
  | .intersection child => by
    rw [checkUsersetRewrite, Graph.checkUsersetRewrite, all_resp, runSetOperations_resp hdispatch _ child]
  | .exclusion [] => rfl
  | .exclusion [_] => rfl
  | .exclusion (base :: other :: others) => by
    simp only [checkUsersetRewrite, Graph.checkUsersetRewrite]
    rw [difference_resp, runSetOperation_resp hdispatch crc base, runSetOperations_resp hdispatch _ (other :: others)]

theorem runSetOperation_resp (hdispatch : ∀ req, (dispatch req).resp = dispatch' req)
    (crc : CurrentRequestContext) :
    ∀ child : SetOperationChild, (runSetOperation schema relationships dispatch crc child).resp =
      Graph.runSetOperation schema relationships dispatch' crc child
  | .xThis => rfl
  | .computedUserset relation => checkComputedUserset_resp schema hdispatch crc relation none
  | .usersetRewrite rewrite => checkUsersetRewrite_resp hdispatch crc rewrite
  | .tupleToUserset tuplesetRelation computedUsersetRelation =>
    checkTupleToUserset_resp schema relationships hdispatch crc tuplesetRelation computedUsersetRelation
  | .xNil => rfl

theorem runSetOperations_resp (hdispatch : ∀ req, (dispatch req).resp = dispatch' req)
    (crc : CurrentRequestContext) :
    ∀ children : List SetOperationChild, (runSetOperations schema relationships dispatch crc children).map (·.resp) =
      Graph.runSetOperations schema relationships dispatch' crc children
  | [] => rfl
  | child :: rest => by
    rw [runSetOperations, Graph.runSetOperations, List.map_cons, runSetOperation_resp hdispatch crc child,
      runSetOperations_resp hdispatch crc rest]
end

theorem checkInternal_resp (hdispatch : ∀ req, (dispatch req).resp = dispatch' req) (req : CheckRequest)
    (relation : Relation) :
    (checkInternal schema relationships dispatch req relation).resp =
      Graph.checkInternal schema relationships dispatch' req relation := by
  unfold checkInternal Graph.checkInternal
  dsimp only
  -- the same conditions in the same order, the early returns answering alike
  split
  · rfl
  split
  · rfl
  split
  · rfl
  split
  · rfl
  split
  · rfl
  cases relation.usersetRewrite with
  | none =>
    dsimp only
    rw [combineResultWithFoundResources_resp, checkDirect_resp relationships hdispatch]
  | some rewrite =>
    dsimp only
    rw [combineResultWithFoundResources_resp, checkUsersetRewrite_resp schema relationships hdispatch]

end Checker

end Results

/-- The metadata rides beside the results and never decides them: the dispatcher's responses
are those of `Graph/Check.lean`, level by level. -/
theorem dispatchCheck_resp (schema : List NamespaceDefinition) (relationships : List RelationTuple) :
    ∀ depth req, (dispatchCheck schema relationships depth req).resp = Graph.dispatchCheck schema relationships depth req
  | 0, _ => rfl
  | depth + 1, req => by
    unfold dispatchCheck Graph.dispatchCheck localDispatchCheck
    -- the three reads fail alike, and then the same request is checked
    cases readNamespaceAndTypes schema req.resourceRelation.«namespace» with
    | error err => rfl
    | ok ns =>
      simp only [Except.ok_bind]
      cases relationOrError ns req.resourceRelation.relation with
      | error err => rfl
      | ok relation =>
        simp only [Except.ok_bind]
        cases resolveAliasingRelation ns req relation with
        | error err => rfl
        | ok checked =>
          exact checkInternal_resp schema relationships (dispatchCheck_resp schema relationships depth)
            checked.1 checked.2

section Reproduction

variable {bound : ℕ}

/-- `result'` is `result` wherever `result` succeeds needing at most `bound` levels. -/
def ReproducedBelow (bound : ℕ) (result result' : CheckResult) : Prop :=
  ∀ results, result.resp = .ok results → result.metadata.depthRequired ≤ bound → result' = result

theorem ReproducedBelow.refl (result : CheckResult) : ReproducedBelow bound result result :=
  fun _ _ _ => rfl

theorem ReproducedBelow.of_error {result : CheckResult} {err : String} (h : result.resp = .error err)
    (result' : CheckResult) : ReproducedBelow bound result result' := by
  intro results hok
  rw [h] at hok
  cases hok

theorem ReproducedBelow.map {result result' : CheckResult} (f : CheckResult → CheckResult)
    (hf : ∀ results, (f result).resp = .ok results →
      ∃ read, result.resp = .ok read ∧ result.metadata.depthRequired ≤ (f result).metadata.depthRequired)
    (h : ReproducedBelow bound result result') : ReproducedBelow bound (f result) (f result') := by
  intro results hok hdepth
  obtain ⟨read, hread, hle⟩ := hf results hok
  rw [h read hread (le_trans hle hdepth)]

/-- What a set operation's loop does with the next child's result, its metadata combined into
`responseMetadata`: fail with the child's error, stop with a result, or go on from a new state. -/
inductive LoopStep {σ : Type} (loop : σ → ResponseMeta → List CheckResult → CheckResult)
    (result : CheckResult) (responseMetadata : ResponseMeta) (next : List CheckResult → CheckResult) :
    Prop
  | error {err : String} : result.resp = .error err →
      (∀ rest, next rest = checkResultError err responseMetadata) → LoopStep loop result responseMetadata next
  | stop {results : CheckResultsMap} (stop : CheckResult) : result.resp = .ok results →
      stop.metadata = responseMetadata → (∀ rest, next rest = stop) → LoopStep loop result responseMetadata next
  | proceed {results : CheckResultsMap} (state : σ) : result.resp = .ok results →
      (∀ rest, next rest = loop state responseMetadata rest) → LoopStep loop result responseMetadata next

namespace LoopStep

variable {σ : Type} {loop : σ → ResponseMeta → List CheckResult → CheckResult} {result : CheckResult}
  {responseMetadata : ResponseMeta} {next : List CheckResult → CheckResult}

theorem le_depthRequired (rest : List CheckResult)
    (hrest : ∀ state responseMetadata, responseMetadata.depthRequired ≤
      (loop state responseMetadata rest).metadata.depthRequired)
    (hstep : LoopStep loop result responseMetadata next) :
    responseMetadata.depthRequired ≤ (next rest).metadata.depthRequired := by
  cases hstep with
  | error _ hnext => rw [hnext rest]; rfl
  | stop stop _ hstop hnext => rw [hnext rest, hstop]
  | proceed state _ hnext => rw [hnext rest]; exact hrest _ _

/-- A step reproduces its result where it reads a child that is reproduced and goes on with a
rest that is. The step is taken from any child, `g` saying how. -/
theorem reproducedBelow {bound : ℕ} {result' : CheckResult} {rest rest' : List CheckResult}
    {g : CheckResult → List CheckResult → CheckResult}
    (hrestDepth : ∀ state responseMetadata, responseMetadata.depthRequired ≤
      (loop state responseMetadata rest).metadata.depthRequired)
    (hstep : LoopStep loop result (combineResponseMetadata responseMetadata result.metadata) (g result))
    (hhead : ReproducedBelow bound result result')
    (hrest : ∀ state, ReproducedBelow bound
      (loop state (combineResponseMetadata responseMetadata result.metadata) rest)
      (loop state (combineResponseMetadata responseMetadata result.metadata) rest')) :
    ReproducedBelow bound (g result rest) (g result' rest') := by
  intro found hfound hdepth
  -- the child was read, so it needed no more than the whole
  have hread : result.metadata.depthRequired ≤ bound :=
    le_trans (le_max_right _ _) (le_trans (hstep.le_depthRequired rest hrestDepth) hdepth)
  cases hstep with
  | error _ hnext =>
    rw [hnext rest] at hfound
    cases hfound
  | stop stop hok _ hnext =>
    obtain rfl : result' = result := hhead _ hok hread
    rw [hnext rest, hnext rest']
  | proceed state hok hnext =>
    obtain rfl : result' = result := hhead _ hok hread
    rw [hnext rest] at hfound hdepth
    rw [hnext rest, hnext rest']
    exact hrest state found hfound hdepth

end LoopStep

/-- The loops of `union`, `all` and `difference` read the children's results in order, each
combining the child's metadata before it looks at the child. -/
structure ReadsInOrder {σ : Type} (loop : σ → ResponseMeta → List CheckResult → CheckResult) : Prop where
  nil : ∀ state responseMetadata, (loop state responseMetadata []).metadata = responseMetadata
  cons : ∀ state responseMetadata result, LoopStep loop result
    (combineResponseMetadata responseMetadata result.metadata) fun rest => loop state responseMetadata (result :: rest)

namespace ReadsInOrder

variable {σ : Type} {loop : σ → ResponseMeta → List CheckResult → CheckResult}

theorem le_depthRequired (hloop : ReadsInOrder loop) :
    ∀ (results : List CheckResult) (state : σ) (responseMetadata : ResponseMeta),
      responseMetadata.depthRequired ≤ (loop state responseMetadata results).metadata.depthRequired
  | [], state, responseMetadata => by rw [hloop.nil]
  | result :: rest, state, responseMetadata => by
    have hstep := hloop.cons state responseMetadata result
    calc responseMetadata.depthRequired
        ≤ (combineResponseMetadata responseMetadata result.metadata).depthRequired := le_max_left _ _
      _ ≤ (loop state responseMetadata (result :: rest)).metadata.depthRequired :=
        hstep.le_depthRequired rest (hloop.le_depthRequired rest)

theorem reproducedBelow (hloop : ReadsInOrder loop) {results results' : List CheckResult}
    (h : List.Forall₂ (ReproducedBelow bound) results results') :
    ∀ state responseMetadata, ReproducedBelow bound (loop state responseMetadata results)
      (loop state responseMetadata results') := by
  induction h with
  | nil => intro _ _; exact ReproducedBelow.refl _
  | @cons result result' rest rest' hhead _ ih =>
    intro state responseMetadata
    exact LoopStep.reproducedBelow (g := fun result rest => loop state responseMetadata (result :: rest))
      (hloop.le_depthRequired rest) (hloop.cons state responseMetadata result) hhead fun state => ih state _

end ReadsInOrder

theorem readsInOrder_unionResults (resultsSetting : ResultsSetting) :
    ReadsInOrder (unionResults resultsSetting) where
  nil _ _ := rfl
  cons membershipSet responseMetadata result := by
    cases hresult : result.resp with
    | error err => exact .error hresult fun rest => by simp [unionResults, hresult]
    | ok results =>
      by_cases hstop : (membershipSet.unionWith results).hasDeterminedMember = true ∧
          resultsSetting = .ALLOW_SINGLE_RESULT
      · exact .stop (checkResultsForMembership (membershipSet.unionWith results)
          (combineResponseMetadata responseMetadata result.metadata)) hresult rfl
          fun rest => by simp only [unionResults, hresult, if_pos hstop]
      · exact .proceed (membershipSet.unionWith results) hresult
          fun rest => by simp only [unionResults, hresult, if_neg hstop]

theorem readsInOrder_allResults : ReadsInOrder allResults where
  nil _ _ := rfl
  cons membershipSet responseMetadata result := by
    cases hresult : result.resp with
    | error err => exact .error hresult fun rest => by simp [allResults, hresult]
    | ok results =>
      -- the first child starts the intersection and the others narrow it
      obtain ⟨intersected, hstep⟩ : ∃ intersected : MembershipSet, ∀ rest,
          allResults membershipSet responseMetadata (result :: rest) =
            if intersected.isEmpty then
              noMembersWithMetadata (combineResponseMetadata responseMetadata result.metadata)
            else allResults (some intersected) (combineResponseMetadata responseMetadata result.metadata) rest :=
        ⟨_, fun rest => by rw [allResults, hresult]⟩
      by_cases hstop : intersected.isEmpty = true
      · exact .stop (noMembersWithMetadata (combineResponseMetadata responseMetadata result.metadata)) hresult rfl
          fun rest => by rw [hstep, if_pos hstop]
      · exact .proceed (some intersected) hresult fun rest => by rw [hstep, if_neg hstop]

theorem readsInOrder_subtractResults : ReadsInOrder subtractResults where
  nil _ _ := rfl
  cons membershipSet responseMetadata result := by
    cases hresult : result.resp with
    | error err => exact .error hresult fun rest => by simp [subtractResults, hresult]
    | ok results =>
      by_cases hstop : (membershipSet.subtract results).isEmpty = true
      · exact .stop (noMembersWithMetadata (combineResponseMetadata responseMetadata result.metadata)) hresult rfl
          fun rest => by simp only [subtractResults, hresult, if_pos hstop]
      · exact .proceed (membershipSet.subtract results) hresult
          fun rest => by simp only [subtractResults, hresult, if_neg hstop]

theorem loopStep_difference (base : CheckResult) :
    LoopStep subtractResults base (combineResponseMetadata emptyMetadata base.metadata) (difference base) := by
  cases hbase : base.resp with
  | error err => exact .error hbase fun others => by simp [difference, hbase]
  | ok results =>
    by_cases hstop : (newMembershipSet.unionWith results).isEmpty = true
    · exact .stop (noMembersWithMetadata (combineResponseMetadata emptyMetadata base.metadata)) hbase rfl
        fun others => by simp only [difference, hbase, if_pos hstop]
    · exact .proceed (newMembershipSet.unionWith results) hbase
        fun others => by simp only [difference, hbase, if_neg hstop]

theorem withDistinctMetadata_reproducedBelow {result result' : CheckResult}
    (h : ReproducedBelow bound result result') :
    ReproducedBelow bound (withDistinctMetadata result) (withDistinctMetadata result') :=
  ReproducedBelow.map withDistinctMetadata (fun results hok => ⟨results, hok, le_max_right _ _⟩) h

theorem union_reproducedBelow (resultsSetting : ResultsSetting) {results results' : List CheckResult}
    (h : List.Forall₂ (ReproducedBelow bound) results results') :
    ReproducedBelow bound (union resultsSetting results) (union resultsSetting results') := by
  match results, results', h with
  | [], [], .nil => exact ReproducedBelow.refl _
  | [_], [_], .cons hhead .nil => exact withDistinctMetadata_reproducedBelow hhead
  | _ :: _ :: _, _ :: _ :: _, h => exact (readsInOrder_unionResults resultsSetting).reproducedBelow h _ _

theorem all_reproducedBelow {results results' : List CheckResult}
    (h : List.Forall₂ (ReproducedBelow bound) results results') :
    ReproducedBelow bound (all results) (all results') := by
  match results, results', h with
  | [], [], .nil => exact ReproducedBelow.refl _
  | [_], [_], .cons hhead .nil => exact withDistinctMetadata_reproducedBelow hhead
  | _ :: _ :: _, _ :: _ :: _, h => exact readsInOrder_allResults.reproducedBelow h _ _

theorem difference_reproducedBelow {base base' : CheckResult} {others others' : List CheckResult}
    (hbase : ReproducedBelow bound base base') (h : List.Forall₂ (ReproducedBelow bound) others others') :
    ReproducedBelow bound (difference base others) (difference base' others') :=
  LoopStep.reproducedBelow (readsInOrder_subtractResults.le_depthRequired others) (loopStep_difference base)
    hbase fun state => readsInOrder_subtractResults.reproducedBelow h state _

theorem combineResultWithFoundResources_metadata (result : CheckResult) (foundResources : MembershipSet) :
    (combineResultWithFoundResources result foundResources).metadata = result.metadata := by
  unfold combineResultWithFoundResources
  split
  · rfl
  · split <;> rfl

theorem combineResultWithFoundResources_reproducedBelow {result result' : CheckResult}
    (foundResources : MembershipSet) (h : ReproducedBelow bound result result') :
    ReproducedBelow bound (combineResultWithFoundResources result foundResources)
      (combineResultWithFoundResources result' foundResources) := by
  refine ReproducedBelow.map (combineResultWithFoundResources · foundResources) (fun results hok => ?_) h
  -- the found resources join a successful result and keep its metadata
  cases hresult : result.resp with
  | error err => simp [combineResultWithFoundResources, hresult] at hok
  | ok read => exact ⟨read, rfl, by rw [combineResultWithFoundResources_metadata]⟩

/-- A child's result mapped to the resources it reaches, an error passed on. -/
theorem mapChild_reproducedBelow {child child' : CheckResult} (resourceType : RelationReference)
    (tuples : List RelationTuple) (h : ReproducedBelow bound child child') :
    ReproducedBelow bound
      (match child.resp with
        | .error _ => child
        | .ok results => mapFoundResources results child.metadata resourceType tuples)
      (match child'.resp with
        | .error _ => child'
        | .ok results => mapFoundResources results child'.metadata resourceType tuples) := by
  refine ReproducedBelow.map (fun child => match child.resp with
    | .error _ => child
    | .ok results => mapFoundResources results child.metadata resourceType tuples) (fun results hok => ?_) h
  cases hchild : child.resp with
  | error err => simp [hchild] at hok
  | ok read => exact ⟨read, rfl, by simp [mapFoundResources]⟩

section Checker

variable (schema : List NamespaceDefinition) (relationships : List RelationTuple)
  {dispatch dispatch' : CheckRequest → CheckResult}

theorem checkDirect_reproducedBelow (hdispatch : ∀ req, ReproducedBelow bound (dispatch req) (dispatch' req))
    (crc : CurrentRequestContext) (relation : Relation) :
    ReproducedBelow bound (checkDirect relationships dispatch crc relation)
      (checkDirect relationships dispatch' crc relation) := by
  unfold checkDirect
  dsimp only
  -- the relationships are read alike; only the dispatched children differ
  split
  · exact ReproducedBelow.refl _
  · exact ReproducedBelow.refl _
  · split
    · exact ReproducedBelow.refl _
    · split
      · exact ReproducedBelow.refl _
      · refine combineResultWithFoundResources_reproducedBelow _ (union_reproducedBelow _ ?_)
        rw [List.forall₂_map_left_iff, List.forall₂_map_right_iff, List.forall₂_same]
        intro dd _
        exact mapChild_reproducedBelow _ _ (hdispatch _)

theorem checkComputedUserset_reproducedBelow
    (hdispatch : ∀ req, ReproducedBelow bound (dispatch req) (dispatch' req)) (crc : CurrentRequestContext)
    (computedRelation : String) (tuplesetSubjects : Option DirectDispatch) :
    ReproducedBelow bound (checkComputedUserset schema dispatch crc computedRelation tuplesetSubjects)
      (checkComputedUserset schema dispatch' crc computedRelation tuplesetSubjects) := by
  unfold checkComputedUserset
  dsimp only
  split
  · exact ReproducedBelow.refl _
  · split
    · exact ReproducedBelow.refl _
    · split
      · split
        · exact ReproducedBelow.refl _
        · exact ReproducedBelow.refl _
        · exact combineResultWithFoundResources_reproducedBelow _ (hdispatch _)
      · exact combineResultWithFoundResources_reproducedBelow _ (hdispatch _)

theorem checkTupleToUserset_reproducedBelow
    (hdispatch : ∀ req, ReproducedBelow bound (dispatch req) (dispatch' req)) (crc : CurrentRequestContext)
    (tuplesetRelation computedUsersetRelation : String) :
    ReproducedBelow bound (checkTupleToUserset schema relationships dispatch crc tuplesetRelation computedUsersetRelation)
      (checkTupleToUserset schema relationships dispatch' crc tuplesetRelation computedUsersetRelation) := by
  refine union_reproducedBelow _ ?_
  rw [List.forall₂_map_left_iff, List.forall₂_map_right_iff, List.forall₂_same]
  intro dd _
  exact mapChild_reproducedBelow _ _ (checkComputedUserset_reproducedBelow schema hdispatch crc _ _)

mutual
theorem checkUsersetRewrite_reproducedBelow
    (hdispatch : ∀ req, ReproducedBelow bound (dispatch req) (dispatch' req)) (crc : CurrentRequestContext) :
    ∀ rewrite : UsersetRewrite, ReproducedBelow bound (checkUsersetRewrite schema relationships dispatch crc rewrite)
      (checkUsersetRewrite schema relationships dispatch' crc rewrite)
  | .union child => union_reproducedBelow _ (runSetOperations_reproducedBelow hdispatch crc child)
  | .intersection child => all_reproducedBelow (runSetOperations_reproducedBelow hdispatch _ child)
  | .exclusion [] => ReproducedBelow.refl _
  | .exclusion [_] => ReproducedBelow.refl _
  | .exclusion (base :: _ :: others) =>
    difference_reproducedBelow (runSetOperation_reproducedBelow hdispatch crc base)
      (runSetOperations_reproducedBelow hdispatch _ (_ :: others))

theorem runSetOperation_reproducedBelow
    (hdispatch : ∀ req, ReproducedBelow bound (dispatch req) (dispatch' req)) (crc : CurrentRequestContext) :
    ∀ child : SetOperationChild, ReproducedBelow bound (runSetOperation schema relationships dispatch crc child)
      (runSetOperation schema relationships dispatch' crc child)
  | .xThis => ReproducedBelow.refl _
  | .computedUserset relation => checkComputedUserset_reproducedBelow schema hdispatch crc relation none
  | .usersetRewrite rewrite => checkUsersetRewrite_reproducedBelow hdispatch crc rewrite
  | .tupleToUserset tuplesetRelation computedUsersetRelation =>
    checkTupleToUserset_reproducedBelow schema relationships hdispatch crc tuplesetRelation computedUsersetRelation
  | .xNil => ReproducedBelow.refl _

theorem runSetOperations_reproducedBelow
    (hdispatch : ∀ req, ReproducedBelow bound (dispatch req) (dispatch' req)) (crc : CurrentRequestContext) :
    ∀ children : List SetOperationChild, List.Forall₂ (ReproducedBelow bound)
      (runSetOperations schema relationships dispatch crc children)
      (runSetOperations schema relationships dispatch' crc children)
  | [] => .nil
  | child :: rest =>
    .cons (runSetOperation_reproducedBelow hdispatch crc child) (runSetOperations_reproducedBelow hdispatch crc rest)
end

theorem checkInternal_reproducedBelow
    (hdispatch : ∀ req, ReproducedBelow bound (dispatch req) (dispatch' req)) (req : CheckRequest)
    (relation : Relation) :
    ReproducedBelow bound (checkInternal schema relationships dispatch req relation)
      (checkInternal schema relationships dispatch' req relation) := by
  unfold checkInternal
  dsimp only
  split
  · exact ReproducedBelow.refl _
  · split
    · exact ReproducedBelow.refl _
    · split
      · exact ReproducedBelow.refl _
      · split
        · exact ReproducedBelow.refl _
        · split
          · exact ReproducedBelow.refl _
          · split
            · exact combineResultWithFoundResources_reproducedBelow _ (checkDirect_reproducedBelow relationships hdispatch _ _)
            · exact combineResultWithFoundResources_reproducedBelow _
                (checkUsersetRewrite_reproducedBelow schema relationships hdispatch _ _)

theorem check_reproducedBelow
    (hdispatch : ∀ req, ReproducedBelow bound (dispatch req) (dispatch' req)) (req : CheckRequest)
    (relation : Relation) :
    ReproducedBelow (bound + 1) (check schema relationships dispatch req relation)
      (check schema relationships dispatch' req relation) := by
  intro results hok hdepth
  have hinner := checkInternal_reproducedBelow schema relationships hdispatch req relation results hok
    (Nat.le_of_succ_le_succ hdepth)
  simp only [check, hinner]

theorem localDispatchCheck_reproducedBelow
    (hdispatch : ∀ req, ReproducedBelow bound (dispatch req) (dispatch' req)) (req : CheckRequest) :
    ReproducedBelow (bound + 1) (localDispatchCheck schema relationships dispatch req)
      (localDispatchCheck schema relationships dispatch' req) := by
  unfold localDispatchCheck
  split
  · exact ReproducedBelow.refl _
  · exact check_reproducedBelow schema relationships hdispatch _ _

theorem localDispatchCheck_depthRequired_pos {dispatch : CheckRequest → CheckResult} {req : CheckRequest}
    {results : CheckResultsMap} (hok : (localDispatchCheck schema relationships dispatch req).resp = .ok results) :
    0 < (localDispatchCheck schema relationships dispatch req).metadata.depthRequired := by
  unfold localDispatchCheck at hok ⊢
  split
  · rename_i hread
    simp only [hread] at hok
    cases hok
  · exact Nat.succ_pos _

end Checker

end Reproduction

theorem dispatchCheck_reproducedBelow (schema : List NamespaceDefinition) (relationships : List RelationTuple) :
    ∀ depth bound req, ReproducedBelow bound (dispatchCheck schema relationships depth req)
      (dispatchCheck schema relationships bound req)
  | 0, _, _ => ReproducedBelow.of_error rfl _
  | _ + 1, 0, _ => fun _ hok hdepth =>
    absurd hdepth (Nat.not_le.2 (localDispatchCheck_depthRequired_pos schema relationships hok))
  | depth + 1, bound + 1, req =>
    localDispatchCheck_reproducedBelow schema relationships
      (fun req => dispatchCheck_reproducedBelow schema relationships depth bound req) req

/-- The responses `caching.Dispatcher` in front of the local dispatcher gives to a request with
`depth` remaining, over any interleaving of requests. A cached response is one a run for the
same request gave successfully, with any depth, and is served where it requires no more than
`depth`; otherwise the local dispatcher answers, with the children dispatched through the
caching dispatcher again, one level down, or reports the depth exceeded at `0`. Each child
request of one local run has one answer. -/
inductive CachingAnswer (schema : List NamespaceDefinition) (relationships : List RelationTuple) :
    ℕ → CheckRequest → CheckResult → Prop
  | cached {stored depth : ℕ} {req : CheckRequest} {results : CheckResultsMap} {metadata : ResponseMeta} :
      CachingAnswer schema relationships stored req ⟨.ok results, metadata⟩ → metadata.depthRequired ≤ depth →
      CachingAnswer schema relationships depth req ⟨.ok results, metadata⟩
  | delegated {depth : ℕ} {req : CheckRequest} (children : CheckRequest → CheckResult) :
      (∀ child, CachingAnswer schema relationships depth child (children child)) →
      CachingAnswer schema relationships (depth + 1) req (localDispatchCheck schema relationships children req)
  | maxDepth {req : CheckRequest} : CachingAnswer schema relationships 0 req maxDepthExceeded

section Caching

variable {schema : List NamespaceDefinition} {relationships : List RelationTuple}

theorem cachingAnswer_dispatchCheck : ∀ depth req,
    CachingAnswer schema relationships depth req (dispatchCheck schema relationships depth req)
  | 0, _ => .maxDepth
  | depth + 1, _ => .delegated _ fun child => cachingAnswer_dispatchCheck depth child

/-- A successful answer of the caching dispatcher is what the local dispatcher alone computes
with the same depth remaining. The induction is on how the answer was given: a cached one by
`dispatchCheck_reproducedBelow`, as its depth required is within the depth remaining, and a
delegated one as its children are. -/
theorem CachingAnswer.eq_dispatchCheck {depth : ℕ} {req : CheckRequest} {answer : CheckResult}
    (h : CachingAnswer schema relationships depth req answer) :
    ∀ results, answer.resp = .ok results → dispatchCheck schema relationships depth req = answer := by
  induction h with
  | @cached stored depth req results metadata _ hle ih =>
    intro _ _
    have hstored := ih results rfl
    rw [← hstored]
    exact dispatchCheck_reproducedBelow schema relationships stored depth req results (by rw [hstored])
      (by rw [hstored]; exact hle)
  | @delegated depth req children _ ih =>
    intro results hok
    -- every child this answer read succeeded, so the local dispatcher computes it alike
    exact localDispatchCheck_reproducedBelow schema relationships
      (fun child found hfound _ => ih child found hfound) req results hok (Nat.le_succ _)
  | maxDepth =>
    intro _ hok
    cases hok

end Caching

end SpiceDB.Graph.Metadata
